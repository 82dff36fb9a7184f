import Rtk.Kernel.Trap
import Rtk.Lib.QueueLists

/-!
# The scheduler and free-list partition

Every descriptor has at most one home among the queues that link descriptors:
`available_descriptors` for a free one, and the scheduler queue of its state and
priority for an allocated one other than the running task.  This file states
that the queues hold exactly the descriptors whose home they are, and follows
the partition through `SetTaskState` and the two halves of
`ScheduleAndActivate`.
-/

namespace Rtk.Kernel

open Rtk.Lib

theorem inTable_iff {index : ℤ} : InTable index ↔ 0 ≤ index ∧ index < 1024 :=
  Iff.rfl

/-- A descriptor in use: neither `FREE` nor `DESTROYED`. -/
def Allocated (s : State) (index : ℤ) : Prop := 0 ≤ (s.task index).state.value

instance (s : State) (index : ℤ) : Decidable (Allocated s index) :=
  inferInstanceAs (Decidable (_ ≤ _))

/-- The queue in which a descriptor belongs. -/
def home (s : State) (running : Option ℤ) (index : ℤ) : Option TaskQueue :=
  if (s.task index).state = .free then some .available
  else if (s.task index).state = .destroyed ∨ running = some index then none
  else some (.states (s.task index).state (s.task index).priority)

/-- The queues of descriptors are `lists`, and these hold every descriptor in
its home, once. -/
structure Partition (s : State) (running : Option ℤ)
    (lists : Lists TaskQueue ℤ) : Prop where
  represents : Represents s.taskQueues lists
  tidy : Tidy s.taskQueues lists
  mem_iff : ∀ {queue index},
    index ∈ lists queue ↔ InTable index ∧ home s running index = some queue

/-- Every descriptor in use has a tid of its slot, which is a `long`. -/
structure Named (s : State) : Prop where
  tid_emod : ∀ {index}, InTable index → Allocated s index →
    (s.task index).tid % maxTasks = index
  tid_nonneg : ∀ {index}, InTable index → Allocated s index →
    0 ≤ (s.task index).tid
  tid_le : ∀ {index}, InTable index → Allocated s index →
    (s.task index).tid ≤ longMax

/-- A descriptor that is not in use has the tid of the task that last used it,
or is still a table length below its first tid; a free one can be used again. -/
structure Numbered (s : State) : Prop where
  tid_emod : ∀ {index}, InTable index → (s.task index).tid % maxTasks = index
  tid_lower : ∀ {index}, InTable index → -maxTasks ≤ (s.task index).tid
  tid_free : ∀ {index}, InTable index → (s.task index).state = .free →
    (s.task index).tid < longMax - maxTasks

theorem allocated_iff {s : State} {index : ℤ} :
    Allocated s index ↔
      (s.task index).state ≠ .free ∧ (s.task index).state ≠ .destroyed := by
  rw [Allocated]
  cases (s.task index).state <;> simp [TaskState.value]

theorem allocated_of_state {s : State} {index : ℤ} {state : TaskState}
    (hstate : (s.task index).state = state) (hvalue : 0 ≤ state.value) : Allocated s index := by
  rwa [Allocated, hstate]

theorem home_of_running {s : State} {index : ℤ} (halloc : Allocated s index) :
    home s (some index) index = none := by
  obtain ⟨hfree, _⟩ := allocated_iff.mp halloc
  simp [home, hfree]

theorem home_of_not_running {s : State} {running : Option ℤ} {index : ℤ}
    (halloc : Allocated s index) (hrunning : running ≠ some index) :
    home s running index =
      some (.states (s.task index).state (s.task index).priority) := by
  obtain ⟨hfree, hdestroyed⟩ := allocated_iff.mp halloc
  simp [home, hfree, hdestroyed, hrunning]

theorem home_eq_available_iff {s : State} {running : Option ℤ} {index : ℤ} :
    home s running index = some .available ↔ (s.task index).state = .free := by
  rw [home]
  split_ifs with hfree <;> simp [hfree]

theorem home_eq_states_iff {s : State} {running : Option ℤ} {index : ℤ}
    {state : TaskState} {priority : Priority} :
    home s running index = some (.states state priority) ↔
      Allocated s index ∧ running ≠ some index ∧
        (s.task index).state = state ∧ (s.task index).priority = priority := by
  rw [home, allocated_iff]
  split_ifs with hfree hnone
  · simp [hfree]
  · rcases hnone with hdestroyed | hrunning
    · simp [hdestroyed]
    · simp [hrunning]
  · rw [not_or] at hnone
    simp [hfree, hnone]

/-! ## Slots -/

theorem slot_eq_emod {tid : ℤ} (htid : 0 ≤ tid) : slot tid = tid % maxTasks :=
  Int.tmod_eq_emod_of_nonneg htid

theorem inTable_slot {tid : ℤ} (htid : 0 ≤ tid) : InTable (slot tid) := by
  rw [slot_eq_emod htid, inTable_iff]
  simp only [maxTasks]
  omega

theorem Named.slot_tid {s : State} (hnamed : Named s) {index : ℤ}
    (hindex : InTable index) (halloc : Allocated s index) :
    slot (s.task index).tid = index := by
  rw [slot_eq_emod (hnamed.tid_nonneg hindex halloc)]
  exact hnamed.tid_emod hindex halloc

/-! ## Equations for the functions that change a state -/

@[simp]
theorem useDescriptor_of_inTable {s : State} {index : ℤ}
    (hindex : InTable index) : s.useDescriptor index = s := by
  rw [State.useDescriptor, if_pos hindex]

@[simp]
theorem useState_of_nonneg {s : State} {state : TaskState}
    (hstate : 0 ≤ state.value) : s.useState state = s := by
  rw [State.useState, if_pos hstate]

theorem enqueueStatefulPriorityTaskQueue_eq {s : State} {index : ℤ}
    (halloc : Allocated s index) :
    enqueueStatefulPriorityTaskQueue s index =
      { s with
        taskQueues := s.taskQueues.enqueueQueue
          (.states (s.task index).state (s.task index).priority) index } := by
  rw [enqueueStatefulPriorityTaskQueue, useState_of_nonneg halloc]

theorem removeStatefulPriorityTaskQueueNode_eq {s : State} {index : ℤ}
    (halloc : Allocated s index) :
    removeStatefulPriorityTaskQueueNode s index =
      { s with
        taskQueues := s.taskQueues.removeQueueNode
          (.states (s.task index).state (s.task index).priority) index } := by
  rw [removeStatefulPriorityTaskQueueNode, useState_of_nonneg halloc]

/-- `SetTaskState` on a tid that no descriptor has does nothing. -/
theorem setTaskState_of_tid_ne {s : State} {tid : ℤ} {state : TaskState}
    (hslot : InTable (slot tid)) (htid : (s.task (slot tid)).tid ≠ tid) :
    setTaskState s tid state = s := by
  rw [setTaskState, useDescriptor_of_inTable hslot]
  simp only [ne_eq, htid, not_false_eq_true, if_true]

section Relink

variable {s : State} {running : Option ℤ} {lists : Lists TaskQueue ℤ}

theorem Partition.free_of_home_none (hpart : Partition s running lists)
    {index : ℤ} (hhome : home s running index = none) (queue : TaskQueue) :
    index ∉ lists queue := by
  rw [hpart.mem_iff, hhome]
  simp

theorem Partition.removable (hpart : Partition s running lists) {index : ℤ}
    (halloc : Allocated s index) (queue : TaskQueue)
    (hmem : index ∈ lists queue) :
    queue = .states (s.task index).state (s.task index).priority := by
  obtain ⟨_, hhome⟩ := hpart.mem_iff.mp hmem
  by_cases hrunning : running = some index
  · rw [hrunning, home_of_running halloc] at hhome
    exact absurd hhome (by simp)
  · rw [home_of_not_running halloc hrunning] at hhome
    exact (Option.some.inj hhome).symm

/-- `SetTaskState` of the running task only changes its state. -/
theorem Partition.setTaskState_running (hpart : Partition s running lists)
    {index : ℤ} (state : TaskState) (hindex : InTable index)
    (hslot : slot (s.task index).tid = index) (halloc : Allocated s index)
    (hcurrent : s.currentTask = some index) (hrunning : running = some index) :
    setTaskState s (s.task index).tid state =
      s.setTask index { s.task index with state := state } := by
  have hhome : home s running index = none := by
    rw [hrunning, home_of_running halloc]
  have hremove := hpart.represents.removeQueueNode_unlinked hpart.tidy
    (hpart.free_of_home_none hhome)
  simp only [setTaskState, hslot, useDescriptor_of_inTable hindex,
    removeStatefulPriorityTaskQueueNode_eq halloc, hremove]
  simp [State.setTask, State.current, hcurrent]

/-- Any other task moves to the end of the queue of its new state. -/
theorem Partition.setTaskState_other (hpart : Partition s running lists)
    {index : ℤ} (state : TaskState) (hindex : InTable index)
    (hslot : slot (s.task index).tid = index) (halloc : Allocated s index)
    (hstate : 0 ≤ state.value) (hne : s.current ≠ index)
    (htid : (s.task index).tid ≠ (s.task s.current).tid) :
    ∃ queues,
      setTaskState s (s.task index).tid state =
        { s.setTask index { s.task index with state := state } with
          taskQueues := queues } ∧
      Represents queues ((lists.erase index).append
        (.states state (s.task index).priority) index) ∧
      Tidy queues ((lists.erase index).append
        (.states state (s.task index).priority) index) := by
  have hremovable := hpart.removable halloc
  have hrep := hpart.represents.removeQueueNode hpart.tidy hremovable
  have htidy := hpart.represents.tidy_removeQueueNode hpart.tidy hremovable
  have hfresh : ∀ queue, index ∉ lists.erase index queue := by
    intro queue hmem
    exact (hpart.represents.mem_erase_iff.mp hmem).2 rfl
  refine ⟨_, ?_, hrep.enqueueQueue hfresh, hrep.tidy_enqueueQueue htidy⟩
  simp only [setTaskState, hslot, useDescriptor_of_inTable hindex,
    removeStatefulPriorityTaskQueueNode_eq halloc]
  simp [State.setTask, State.current] at hne htid ⊢
  simp [hne, htid, hstate, enqueueStatefulPriorityTaskQueue]

end Relink

end Rtk.Kernel
