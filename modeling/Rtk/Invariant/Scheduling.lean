import Rtk.Invariant.Frame

/-!
# The scheduler while a handler runs

`InKernel s c lists` is the partition while the handler of a system call or
interrupt of task `c` runs.  It is preserved by `SetTaskState`, and
`ScheduleAndActivate` turns it into the same statement about the next task.
-/

namespace Rtk.Kernel

open Function
open Rtk.Lib

/-- The partition while a handler runs on behalf of task `c`. -/
structure InKernel (s : State) (c : ℤ) (lists : Lists TaskQueue ℤ) : Prop where
  partition : Partition s (some c) lists
  named : Named s
  current : s.currentTask = some c
  inTable : InTable c
  tid_emod : (s.task c).tid % maxTasks = c

/-- No task but `c` is `ACTIVE`. -/
def Sole (s : State) (c : ℤ) : Prop :=
  ∀ {index}, InTable index → (s.task index).state = .active → index = c

theorem InKernel.current_eq {s : State} {c : ℤ} {lists : Lists TaskQueue ℤ}
    (h : InKernel s c lists) : s.current = c := by
  rw [State.current, h.current, Option.getD_some]

theorem InKernel.getCurrentTid_eq {s : State} {c : ℤ}
    {lists : Lists TaskQueue ℤ} (h : InKernel s c lists) :
    getCurrentTid s = (s.task c).tid := by
  rw [getCurrentTid, h.current]

/-- The scheduler depends on the descriptors and their queues only. -/
theorem InKernel.congr {s s' : State} {c : ℤ} {lists : Lists TaskQueue ℤ}
    (h : InKernel s c lists) (htask : s'.task = s.task)
    (hcurrent : s'.currentTask = s.currentTask)
    (hqueues : s'.taskQueues = s.taskQueues) : InKernel s' c lists where
  partition :=
    { represents := by
        rw [hqueues]
        exact h.partition.represents
      tidy := by
        rw [hqueues]
        exact h.partition.tidy
      mem_iff := by
        intro queue index
        rw [h.partition.mem_iff, home, home, htask] }
  named := h.named.congr (.of_task_eq htask)
  current := hcurrent.trans h.current
  inTable := h.inTable
  tid_emod := by
    rw [htask]
    exact h.tid_emod

theorem InKernel.silent {s s' : State} {c : ℤ} {lists : Lists TaskQueue ℤ}
    (h : InKernel s c lists) (hsilent : Silent s s') : InKernel s' c lists :=
  h.congr hsilent.task hsilent.currentTask hsilent.taskQueues

/-- The running task is in no queue, so its descriptor may be rewritten. -/
theorem InKernel.setCurrent {s : State} {c : ℤ} {lists : Lists TaskQueue ℤ}
    (h : InKernel s c lists) {task : Task}
    (hkeeps : Keeps s (s.setTask c task)) :
    InKernel (s.setTask c task) c lists where
  partition :=
    { represents := h.partition.represents
      tidy := h.partition.tidy
      mem_iff := by
        intro queue index
        have hhome : home (s.setTask c task) (some c) index =
            home s (some c) index := by
          by_cases hindex : index = c
          · subst index
            simp only [home, hkeeps.free, or_true, if_true]
          · simp only [home, State.setTask, update_of_ne hindex]
        rw [h.partition.mem_iff, hhome] }
  named := h.named.congr hkeeps
  current := h.current
  inTable := h.inTable
  tid_emod := by
    rw [hkeeps.tid]
    exact h.tid_emod

/-! ## `SetTaskState` -/

def withState (task : ℤ → Task) (tid : ℤ) (state : TaskState) : ℤ → Task :=
  if (task (slot tid)).tid = tid then
    update task (slot tid) { task (slot tid) with state := state }
  else task

/-- The queues after `SetTaskState` while task `c` runs: a task that exists and
is not running moves to the end of the queue of its new state. -/
def relinked (s : State) (c : ℤ) (lists : Lists TaskQueue ℤ) (tid : ℤ)
    (state : TaskState) : Lists TaskQueue ℤ :=
  if (s.task (slot tid)).tid = tid ∧ slot tid ≠ c then
    (lists.erase (slot tid)).append
      (.states state (s.task (slot tid)).priority) (slot tid)
  else lists

/-- `tid` names no descriptor, or one in use. -/
def NotDestroyed (s : State) (tid : ℤ) : Prop :=
  (s.task (slot tid)).tid = tid → Allocated s (slot tid)

instance (s : State) (tid : ℤ) : Decidable (NotDestroyed s tid) :=
  inferInstanceAs (Decidable (_ → _))

theorem NotDestroyed.congr {s s' : State} {tid : ℤ} (hlive : NotDestroyed s tid)
    (hkeeps : Keeps s s') : NotDestroyed s' tid := by
  intro htid
  rw [hkeeps.tid] at htid
  exact (hkeeps.allocated_iff _).mpr (hlive htid)

theorem withState_of_tid_ne {task : ℤ → Task} {tid : ℤ} {state : TaskState}
    (htid : (task (slot tid)).tid ≠ tid) : withState task tid state = task := by
  rw [withState, if_neg htid]

theorem withState_of_ne {task : ℤ → Task} {tid : ℤ} {state : TaskState}
    {index : ℤ} (hindex : index ≠ slot tid) :
    withState task tid state index = task index := by
  rw [withState]
  split_ifs
  · rw [update_of_ne hindex]
  · rfl

theorem withState_slot {task : ℤ → Task} {tid : ℤ} {state : TaskState}
    (htid : (task (slot tid)).tid = tid) :
    withState task tid state (slot tid) =
      { task (slot tid) with state := state } := by
  rw [withState, if_pos htid, update_self]

@[simp]
theorem tid_withState (task : ℤ → Task) (tid : ℤ) (state : TaskState)
    (index : ℤ) : (withState task tid state index).tid = (task index).tid := by
  by_cases hindex : index = slot tid
  · subst index
    rw [withState]
    split_ifs <;> simp
  · rw [withState_of_ne hindex]

theorem keeps_withState {s s' : State} {tid : ℤ} {state : TaskState}
    (htask : s'.task = withState s.task tid state) (hlive : NotDestroyed s tid)
    (hstate : 0 ≤ state.value) : Keeps s s' := by
  by_cases htid : (s.task (slot tid)).tid = tid
  · rw [withState, if_pos htid] at htask
    exact .of_update htask (hlive htid) hstate rfl rfl
  · rw [withState, if_neg htid] at htask
    exact .of_task_eq htask

section SetTaskState

variable {s : State} {c : ℤ} {lists : Lists TaskQueue ℤ} {tid : ℤ}
  {state : TaskState}

/-- The running task changes its state without moving. -/
theorem InKernel.partition_withState_running (h : InKernel s c lists)
    (htid : (s.task (slot tid)).tid = tid) (halloc : Allocated s (slot tid))
    (hstate : 0 ≤ state.value) (hrunning : slot tid = c) :
    Partition (s.withTasks (withState s.task tid state) s.taskQueues) (some c)
      lists where
  represents := h.partition.represents
  tidy := h.partition.tidy
  mem_iff := by
    intro queue index
    have hhome : home (s.withTasks (withState s.task tid state) s.taskQueues)
        (some c) index = home s (some c) index := by
      by_cases hindex : index = slot tid
      · subst index
        have hold : home s (some c) (slot tid) = none :=
          hrunning ▸ home_of_running halloc
        have hnew : Allocated
            (s.withTasks (withState s.task tid state) s.taskQueues) (slot tid) := by
          rw [Allocated, State.withTasks_task, withState_slot htid]
          exact hstate
        rw [hold, ← home_of_running hnew, hrunning]
      · simp only [home, State.withTasks_task, withState_of_ne hindex]
    rw [h.partition.mem_iff, hhome]

/-- Any other task moves to the queue of its new state. -/
theorem InKernel.partition_withState_other (h : InKernel s c lists)
    (hslot : InTable (slot tid)) (htid : (s.task (slot tid)).tid = tid)
    (hstate : 0 ≤ state.value) (hrunning : slot tid ≠ c)
    {queues : QueueHeap TaskQueue ℤ}
    (hrep : Represents queues ((lists.erase (slot tid)).append
      (.states state (s.task (slot tid)).priority) (slot tid)))
    (htidy : Tidy queues ((lists.erase (slot tid)).append
      (.states state (s.task (slot tid)).priority) (slot tid))) :
    Partition (s.withTasks (withState s.task tid state) queues) (some c)
      ((lists.erase (slot tid)).append
        (.states state (s.task (slot tid)).priority) (slot tid)) where
  represents := hrep
  tidy := htidy
  mem_iff := by
    intro queue index
    rw [Lists.mem_append_iff, h.partition.represents.mem_erase_iff,
      h.partition.mem_iff]
    by_cases hindex : index = slot tid
    · subst index
      have hhome : home (s.withTasks (withState s.task tid state) queues)
          (some c) (slot tid) =
            some (.states state (s.task (slot tid)).priority) := by
        rw [home_of_not_running]
        · simp only [State.withTasks_task, withState_slot htid]
        · rw [Allocated, State.withTasks_task, withState_slot htid]
          exact hstate
        · simpa using Ne.symm hrunning
      rw [hhome]
      simp [hslot, eq_comm]
    · simp [home, withState_of_ne hindex, hindex]

/-- No other task has the tid of the running one. -/
theorem InKernel.tid_ne_current (h : InKernel s c lists) {index : ℤ}
    (hindex : InTable index) (halloc : Allocated s index) (hne : index ≠ c) :
    (s.task index).tid ≠ (s.task c).tid := by
  intro heq
  have hemod := h.named.tid_emod hindex halloc
  rw [heq, h.tid_emod] at hemod
  exact hne hemod.symm

/-- `SetTaskState` of a tid that names no destroyed task keeps the partition
and changes nothing but that task's state and place. -/
theorem InKernel.exists_setTaskState (h : InKernel s c lists)
    (hslot : InTable (slot tid)) (hlive : NotDestroyed s tid)
    (hstate : 0 ≤ state.value) :
    ∃ queues,
      setTaskState s tid state = s.withTasks (withState s.task tid state) queues ∧
      InKernel (s.withTasks (withState s.task tid state) queues) c
        (relinked s c lists tid state) := by
  have hkeeps : ∀ queues,
      Keeps s (s.withTasks (withState s.task tid state) queues) := by
    intro queues
    exact keeps_withState rfl hlive hstate
  have hcurrent : ∀ queues,
      ((s.withTasks (withState s.task tid state) queues).task c).tid % maxTasks = c := by
    intro queues
    rw [(hkeeps queues).tid]
    exact h.tid_emod
  by_cases htid : (s.task (slot tid)).tid = tid
  · have halloc : Allocated s (slot tid) := hlive htid
    by_cases hrunning : slot tid = c
    · refine ⟨s.taskQueues, ?_, ?_⟩
      · have heq := h.partition.setTaskState_running state hslot
          (by rw [htid]) halloc (by rw [h.current, hrunning]) (by rw [hrunning])
        rw [htid] at heq
        rw [heq, withState, if_pos htid]
        rfl
      · rw [relinked, if_neg (by simp [hrunning])]
        exact ⟨h.partition_withState_running htid halloc hstate hrunning,
          h.named.congr (hkeeps _), h.current, h.inTable, hcurrent _⟩
    · obtain ⟨queues, heq, hrep, htidy⟩ :=
        h.partition.setTaskState_other state hslot (by rw [htid]) halloc hstate
          (by rw [h.current_eq]; exact Ne.symm hrunning)
          (by rw [h.current_eq]; exact h.tid_ne_current hslot halloc hrunning)
      rw [htid] at heq
      refine ⟨queues, ?_, ?_⟩
      · rw [heq, withState, if_pos htid]
        rfl
      · rw [relinked, if_pos ⟨htid, hrunning⟩]
        exact ⟨h.partition_withState_other hslot htid hstate hrunning hrep htidy,
          h.named.congr (hkeeps _), h.current, h.inTable, hcurrent _⟩
  · refine ⟨s.taskQueues, ?_, ?_⟩
    · rw [setTaskState_of_tid_ne hslot htid, withState_of_tid_ne htid]
      rfl
    · rw [withState_of_tid_ne htid, relinked, if_neg (by simp [htid])]
      exact h

end SetTaskState

/-- `SetTaskState` between states outside any exchange is quiet. -/
theorem quiet_withState {s : State} {tid : ℤ} {state : TaskState}
    {queues : QueueHeap TaskQueue ℤ} (hlive : NotDestroyed s tid)
    (hstate : 0 ≤ state.value)
    (hquiet : (s.task (slot tid)).tid = tid →
      Unaffected (s.task (slot tid)).state state) :
    Quiet s (s.withTasks (withState s.task tid state) queues) := by
  by_cases htid : (s.task (slot tid)).tid = tid
  · apply Quiet.of_update (slot tid) { s.task (slot tid) with state := state }
    · simp only [State.withTasks_task, withState, if_pos htid]
    all_goals first
      | rfl
      | exact keeps_withState rfl hlive hstate
      | exact hquiet htid
  · apply Quiet.of_eq
    · simp only [State.withTasks_task, withState, if_neg htid]
    all_goals first
      | rfl
      | exact ⟨[], by simp⟩

/-! ## `ScheduleAndActivate` -/

/-- The descriptors after the first half of `ScheduleAndActivate`. -/
def preempted (s : State) (c : ℤ) : ℤ → Task :=
  if (s.task c).state = .active then
    update s.task c { s.task c with state := .ready }
  else s.task

theorem keeps_preempted {s s' : State} {c : ℤ}
    (htask : s'.task = preempted s c) : Keeps s s' := by
  by_cases hactive : (s.task c).state = .active
  · rw [preempted, if_pos hactive] at htask
    apply Keeps.of_update htask
    · exact allocated_of_state hactive (by decide)
    · exact (by decide : 0 ≤ TaskState.ready.value)
    · rfl
    · rfl
  · rw [preempted, if_neg hactive] at htask
    exact .of_task_eq htask

theorem preempted_of_ne {s : State} {c index : ℤ} (hindex : index ≠ c) :
    preempted s c index = s.task index := by
  rw [preempted]
  split_ifs
  · rw [update_of_ne hindex]
  · rfl

theorem preempted_self (s : State) (c : ℤ) :
    preempted s c c =
      { s.task c with
        state := if (s.task c).state = .active then .ready
          else (s.task c).state } := by
  rw [preempted]
  split_ifs
  · rw [update_self]
  · rfl

/-- Requeueing changes no priority. -/
theorem priority_preempted (s : State) (c index : ℤ) :
    (preempted s c index).priority = (s.task index).priority := by
  by_cases hindex : index = c
  · rw [hindex, preempted_self]
  · rw [preempted_of_ne hindex]

theorem preempted_of_not_allocated {s : State} {c : ℤ}
    (halloc : ¬Allocated s c) : preempted s c = s.task := by
  rw [preempted, if_neg]
  intro hactive
  rw [Allocated, hactive] at halloc
  exact halloc (by decide)

def requeuedLinks (s : State) (c : ℤ) : QueueHeap TaskQueue ℤ :=
  if Allocated s c then
    s.taskQueues.enqueueQueue
      (.states (preempted s c c).state (s.task c).priority) c
  else s.taskQueues

def requeued (s : State) (c : ℤ) (lists : Lists TaskQueue ℤ) :
    Lists TaskQueue ℤ :=
  if Allocated s c then
    lists.append (.states (preempted s c c).state (s.task c).priority) c
  else lists

/-- The current task goes back to the queue of its state and priority; if it has
destroyed itself it stays where it is. -/
theorem scheduleCurrent_eq {s : State} {c : ℤ}
    (hcurrent : s.currentTask = some c) :
    scheduleCurrent s =
      s.withTasks (preempted s c) (requeuedLinks s c) := by
  have hkeep : (if (s.task c).state = .active then setCurrentTaskState s .ready
      else s) = (s.withTasks (preempted s c) s.taskQueues) := by
    rw [preempted]
    split_ifs
    · have hc : s.current = c := by rw [State.current, hcurrent, Option.getD_some]
      rw [setCurrentTaskState, hc]
      rfl
    · rfl
  have hvalue : Allocated (s.withTasks (preempted s c) s.taskQueues) c ↔ Allocated s c :=
    Keeps.allocated_iff (keeps_preempted rfl) c
  rw [scheduleCurrent, hcurrent]
  simp only [hkeep]
  by_cases halloc : Allocated s c
  · have hnew := hvalue.mpr halloc
    have hpriority : (preempted s c c).priority = (s.task c).priority := by
      rw [preempted_self]
    have hnewValue : 0 ≤ (preempted s c c).state.value := hnew
    simp only [State.withTasks_task, hnewValue, if_true, scheduleTask]
    rw [enqueueStatefulPriorityTaskQueue_eq hnew, requeuedLinks, if_pos halloc,
      State.withTasks_task, hpriority]
    rfl
  · have hnew : ¬0 ≤ (preempted s c c).state.value := fun hnew =>
      halloc (hvalue.mp hnew)
    simp only [State.withTasks_task, hnew, if_false, requeuedLinks, if_neg halloc]

theorem InKernel.partition_requeued {s : State} {c : ℤ} {lists : Lists TaskQueue ℤ}
    (h : InKernel s c lists) :
    Partition (s.withTasks (preempted s c) (requeuedLinks s c)) none
      (requeued s c lists) := by
  have hsame : ∀ index, index ≠ c →
      home (s.withTasks (preempted s c) (requeuedLinks s c))
        none index = home s (some c) index := by
    intro index hindex
    simp [home, preempted_of_ne hindex, Ne.symm hindex]
  by_cases halloc : Allocated s c
  · have hfresh := h.partition.free_of_home_none (home_of_running halloc)
    have hhome : home
        (s.withTasks (preempted s c) (requeuedLinks s c))
          none c = some (.states (preempted s c c).state (s.task c).priority) := by
      rw [home_of_not_running]
      · simp only [State.withTasks_task, preempted_self]
      · exact (Keeps.allocated_iff (keeps_preempted rfl) c).mpr halloc
      · simp
    rw [requeued, if_pos halloc]
    constructor
    · simp only [State.withTasks_taskQueues, requeuedLinks, if_pos halloc]
      exact h.partition.represents.enqueueQueue hfresh
    · simp only [State.withTasks_taskQueues, requeuedLinks, if_pos halloc]
      exact h.partition.represents.tidy_enqueueQueue h.partition.tidy
    · intro queue index
      rw [Lists.mem_append_iff, h.partition.mem_iff]
      by_cases hindex : index = c
      · subst index
        rw [hhome, home_of_running halloc]
        simp [h.inTable, eq_comm]
      · rw [hsame index hindex]
        simp [hindex]
  · rw [requeued, if_neg halloc]
    constructor
    · simp only [State.withTasks_taskQueues, requeuedLinks, if_neg halloc]
      exact h.partition.represents
    · simp only [State.withTasks_taskQueues, requeuedLinks, if_neg halloc]
      exact h.partition.tidy
    · intro queue index
      rw [h.partition.mem_iff]
      by_cases hindex : index = c
      · subst index
        have hcases : (s.task c).state = .free ∨ (s.task c).state = .destroyed := by
          rw [allocated_iff] at halloc
          tauto
        rcases hcases with hcase | hcase <;>
          simp [home, preempted_of_not_allocated halloc, hcase]
      · rw [hsame index hindex]

end Rtk.Kernel
