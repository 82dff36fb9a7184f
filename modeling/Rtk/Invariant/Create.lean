import Rtk.Invariant.Family
import Rtk.Invariant.Dispatch

/-!
# `CreateTask`

A descriptor on the free list has no children and is in no other queue, so that
resetting its links changes nothing.  It gets a fresh tid and joins the ready
queue of its priority and the children of the running task.
-/

namespace Rtk.Kernel

open Function
open Rtk.ByteMemory
open Rtk.Lib
open Rtk.Lib.QueueHeap

/-- The links of the children queues once the running task has a new child. -/
def adopted (s : State) (index : ℤ) : QueueHeap ℤ ℤ :=
  match s.currentTask with
  | some parent => s.siblings.enqueueQueue parent index
  | none => s.siblings

def withChild (s : State) (children : Lists ℤ ℤ) (index : ℤ) : Lists ℤ ℤ :=
  match s.currentTask with
  | some parent => children.append parent index
  | none => children

/-- The state after `CreateTask` has taken the descriptor `index`. -/
def created (s : State) (index : ℤ) (priority : Priority) (code : Word) : State :=
  let stored := s.storeWord ((s.task index).stack + (stackSizeBytes - 4)) s.image.exit
  { stored with
    task := update s.task index (newTask s (s.task index) priority code)
    taskQueues := (s.taskQueues.dequeueQueue .available).2.enqueueQueue
      (.states .ready priority) index
    siblings := adopted s index
    numTasks := s.numTasks + 1 }

section Create

variable {s : State} {running : Option ℤ} {lists : Lists TaskQueue ℤ}
  {children : Lists ℤ ℤ} {depth : ℤ → ℕ} {index : ℤ} {rest : List ℤ}

theorem Partition.state_free (hpart : Partition s running lists)
    (hmem : index ∈ lists .available) :
    InTable index ∧ (s.task index).state = .free := by
  obtain ⟨hindex, hhome⟩ := hpart.mem_iff.mp hmem
  exact ⟨hindex, home_eq_available_iff.mp hhome⟩

theorem not_allocated_of_free (hfree : (s.task index).state = .free) :
    ¬Allocated s index := by
  rw [allocated_iff]
  exact fun halloc => halloc.1 hfree

/-- Resetting the family links of a descriptor that is not in use changes
nothing. -/
theorem Family.reset_eq (h : Family s Whole children depth)
    (halloc : ¬Allocated s index) :
    (s.siblings.setQueue index Queue.null).setNode index QueueNode.null =
      s.siblings := by
  have hcontents := h.represents.contents index
  rw [h.children_of_not_allocated halloc] at hcontents
  have hqueue : s.siblings.queue index = Queue.null :=
    Queue.ext hcontents.first hcontents.last
  have hnode : s.siblings.node index = QueueNode.null :=
    h.tidy index (h.not_mem_of_not_allocated halloc)
  apply QueueHeap.ext
  · rw [queue_setNode, setQueue, ← hqueue, update_eq_self]
  · rw [setNode, ← hnode]
    exact update_eq_self _ _

/-- Resetting the links of a dequeued descriptor changes nothing. -/
theorem setNode_dequeued {queues : QueueHeap TaskQueue ℤ}
    (hrep : Represents queues lists) (htidy : Tidy queues lists)
    (hqueue : lists .available = index :: rest) :
    (queues.dequeueQueue .available).2.setNode index QueueNode.null =
      (queues.dequeueQueue .available).2 := by
  have hunlinked : ∀ queue, index ∉ lists.erase index queue := by
    intro queue hmem
    exact (hrep.mem_erase_iff.mp hmem).2 rfl
  have hnode := hrep.tidy_dequeueQueue htidy hqueue index hunlinked
  apply QueueHeap.ext
  · rfl
  · rw [setNode, ← hnode]
    exact update_eq_self _ _

theorem createTask_of_empty (hpart : Partition s running lists)
    (hqueue : lists .available = []) (priority : Priority) (code : Word) :
    createTask s priority code = (errUnavailableDescriptor, s) := by
  have hfirst : (s.taskQueues.queue .available).first = none := by
    rw [(hpart.represents.contents _).first, hqueue, List.head?_nil]
  rw [createTask, s.taskQueues.dequeueQueue_of_first_none _ hfirst]

/-- `CreateTask` takes the first free descriptor. -/
theorem createTask_eq (hpart : Partition s running lists)
    (hfamily : Family s Whole children depth)
    (hqueue : lists .available = index :: rest) (priority : Priority)
    (code : Word) :
    createTask s priority code =
      ((s.task index).tid + maxTasks, created s index priority code) := by
  have hfirst : (s.taskQueues.dequeueQueue .available).1 = some index :=
    (hpart.represents.dequeueQueue hqueue).1
  have hfree := (hpart.state_free (hqueue ▸ List.mem_cons_self)).2
  have hreset := hfamily.reset_eq (not_allocated_of_free hfree)
  have hunlinked := setNode_dequeued hpart.represents hpart.tidy hqueue
  rw [createTask]
  cases hdequeue : s.taskQueues.dequeueQueue .available with
  | mk dequeued queues =>
      rw [hdequeue] at hfirst hunlinked
      simp only at hfirst hunlinked
      subst dequeued
      have hready : (0 : ℤ) ≤ TaskState.ready.value := by decide
      cases hcurrent : s.currentTask <;>
        simp only [startTask, hunlinked, scheduleTask, State.storeWord,
          State.setTask, State.emit, State.useState, if_pos hready,
          enqueueStatefulPriorityTaskQueue, newTask, update_self, hreset,
          getCurrentTid, hcurrent, created, adopted, hdequeue]

theorem task_created_self (s : State) (index : ℤ) (priority : Priority)
    (code : Word) :
    (created s index priority code).task index =
      newTask s (s.task index) priority code := update_self _ _ _

theorem task_created_of_ne {other : ℤ} (priority : Priority) (code : Word)
    (hother : other ≠ index) :
    (created s index priority code).task other = s.task other :=
  update_of_ne hother _ _

theorem allocated_created_iff (priority : Priority) (code : Word) (other : ℤ) :
    Allocated (created s index priority code) other ↔
      other = index ∨ Allocated s other := by
  by_cases hother : other = index
  · subst other
    rw [Allocated, task_created_self]
    simp [newTask, TaskState.value]
  · rw [Allocated, task_created_of_ne priority code hother]
    simp [hother, Allocated]

/-- The new task joins the ready queue of its priority. -/
theorem Partition.created (hpart : Partition s running lists)
    (hrunning : ∀ c, running = some c → Allocated s c)
    (hqueue : lists .available = index :: rest) (priority : Priority)
    (code : Word) :
    Partition (created s index priority code) running
      ((lists.erase index).append (.states .ready priority) index) := by
  have hrep := (hpart.represents.dequeueQueue hqueue).2
  have htidy := hpart.represents.tidy_dequeueQueue hpart.tidy hqueue
  have hfresh : ∀ queue, index ∉ lists.erase index queue := by
    intro queue hmem
    exact (hpart.represents.mem_erase_iff.mp hmem).2 rfl
  obtain ⟨hindex, hfree⟩ := hpart.state_free (hqueue ▸ List.mem_cons_self)
  refine ⟨hrep.enqueueQueue hfresh, hrep.tidy_enqueueQueue htidy, ?_⟩
  intro queue other
  rw [Lists.mem_append_iff, hpart.represents.mem_erase_iff, hpart.mem_iff]
  by_cases hother : other = index
  · subst other
    have hnot : running ≠ some index := by
      intro hself
      exact not_allocated_of_free hfree (hrunning index hself)
    have hhome : home (Kernel.created s index priority code) running index =
        some (.states .ready priority) := by
      rw [home_eq_states_iff, allocated_created_iff, task_created_self]
      exact ⟨.inl rfl, hnot, rfl, rfl⟩
    rw [hhome]
    simp [hindex, eq_comm]
  · simp [home, task_created_of_ne priority code hother, hother]

theorem Named.created (hnamed : Named s) (hnumbered : Numbered s)
    (hindex : InTable index) (hfree : (s.task index).state = .free)
    (priority : Priority) (code : Word) :
    Named (created s index priority code) := by
  have hlow := hnumbered.tid_lower hindex
  have hhigh := hnumbered.tid_free hindex hfree
  have hemod := hnumbered.tid_emod hindex
  have hold : ∀ other, other ≠ index →
      Allocated (Kernel.created s index priority code) other →
        Allocated s other := by
    intro other hother halloc
    exact ((allocated_created_iff priority code other).mp halloc).resolve_left hother
  constructor <;> intro other hother halloc <;> by_cases hne : other = index
  · subst other
    rw [task_created_self]
    simp only [newTask, Int.add_emod_right]
    exact hemod
  · rw [task_created_of_ne priority code hne]
    exact hnamed.tid_emod hother (hold other hne halloc)
  · subst other
    rw [task_created_self]
    simp only [newTask]
    omega
  · rw [task_created_of_ne priority code hne]
    exact hnamed.tid_nonneg hother (hold other hne halloc)
  · subst other
    rw [task_created_self]
    simp only [newTask]
    omega
  · rw [task_created_of_ne priority code hne]
    exact hnamed.tid_le hother (hold other hne halloc)

theorem Numbered.created (hnumbered : Numbered s) (priority : Priority)
    (code : Word) : Numbered (created s index priority code) := by
  constructor <;> intro other hother <;> by_cases hne : other = index
  · subst other
    rw [task_created_self]
    simp only [newTask, Int.add_emod_right]
    exact hnumbered.tid_emod hother
  · rw [task_created_of_ne priority code hne]
    exact hnumbered.tid_emod hother
  · subst other
    have hlow := hnumbered.tid_lower hother
    rw [task_created_self]
    simp only [newTask, maxTasks] at hlow ⊢
    omega
  · rw [task_created_of_ne priority code hne]
    exact hnumbered.tid_lower hother
  · subst other
    rw [task_created_self]
    simp [newTask]
  · rw [task_created_of_ne priority code hne]
    exact hnumbered.tid_free hother

def withDepth (s : State) (depth : ℤ → ℕ) (index : ℤ) : ℤ → ℕ :=
  update depth index (depth s.current + 1)

/-- The task that creates another is in use and has the tid of its slot. -/
def Creator (s : State) (c : ℤ) : Prop :=
  InTable c ∧ Allocated s c ∧ 0 ≤ (s.task c).tid ∧ slot (s.task c).tid = c

theorem parentTid_newTask_of_some {c : ℤ} (hcurrent : s.currentTask = some c)
    (task : Task) (priority : Priority) (code : Word) :
    (newTask s task priority code).parentTid = (s.task c).tid := by
  simp only [newTask, getCurrentTid, hcurrent]

theorem parentTid_newTask_of_none (hcurrent : s.currentTask = none)
    (task : Task) (priority : Priority) (code : Word) :
    (newTask s task priority code).parentTid = -1 := by
  simp only [newTask, getCurrentTid, hcurrent]

/-- A new task that has a parent has the running task as parent. -/
theorem parentTid_created {priority : Priority} {code : Word}
    (hparent : ((created s index priority code).task index).parentTid ≠ -1) :
    ∃ c, s.currentTask = some c ∧
      ((created s index priority code).task index).parentTid = (s.task c).tid := by
  rw [task_created_self] at hparent ⊢
  cases hcurrent : s.currentTask with
  | none => exact absurd (parentTid_newTask_of_none hcurrent _ _ _) hparent
  | some c => exact ⟨c, rfl, parentTid_newTask_of_some hcurrent _ _ _⟩

theorem Ancestry.created (h : Ancestry s depth)
    (hfree : (s.task index).state = .free)
    (hcreator : ∀ c, s.currentTask = some c → Creator s c)
    (priority : Priority) (code : Word) :
    Ancestry (created s index priority code) (withDepth s depth index) := by
  have hnot := not_allocated_of_free hfree
  -- the parent of a task in use is in use, so it is not the new task
  have hold : ∀ child, child ≠ index → InTable child →
      Allocated (Kernel.created s index priority code) child →
      (s.task child).parentTid ≠ -1 →
      Allocated s child ∧ slot (s.task child).parentTid ≠ index := by
    intro child hne hchild halloc hparent
    have hlive := ((allocated_created_iff priority code child).mp halloc).resolve_left hne
    refine ⟨hlive, fun heq => hnot ?_⟩
    rw [← heq]
    exact h.parent_allocated hchild hlive hparent
  have hnew : ∀ c, s.currentTask = some c → c ≠ index := by
    rintro c hcurrent rfl
    exact hnot (hcreator c hcurrent).2.1
  constructor <;> intro child hchild halloc <;> by_cases hne : child = index
  · subst child
    intro hparent
    obtain ⟨c, hcurrent, heq⟩ := parentTid_created hparent
    rw [heq]
    exact (hcreator c hcurrent).2.2.1
  · rw [task_created_of_ne priority code hne]
    intro hparent
    exact h.parent_nonneg hchild (hold child hne hchild halloc hparent).1 hparent
  · subst child
    intro hparent
    obtain ⟨c, hcurrent, heq⟩ := parentTid_created hparent
    rw [heq, (hcreator c hcurrent).2.2.2, allocated_created_iff]
    exact .inr (hcreator c hcurrent).2.1
  · rw [task_created_of_ne priority code hne]
    intro hparent
    rw [allocated_created_iff]
    right
    exact h.parent_allocated hchild (hold child hne hchild halloc hparent).1 hparent
  · subst child
    intro hparent
    obtain ⟨c, hcurrent, heq⟩ := parentTid_created hparent
    rw [heq, (hcreator c hcurrent).2.2.2, task_created_of_ne priority code (hnew c hcurrent)]
  · rw [task_created_of_ne priority code hne]
    intro hparent
    obtain ⟨hlive, hother⟩ := hold child hne hchild halloc hparent
    rw [task_created_of_ne priority code hother]
    exact h.parent_tid hchild hlive hparent
  · subst child
    intro hparent
    obtain ⟨c, hcurrent, heq⟩ := parentTid_created hparent
    rw [heq, (hcreator c hcurrent).2.2.2, withDepth, update_self,
      update_of_ne (hnew c hcurrent), State.current, hcurrent, Option.getD_some]
    exact Nat.lt_succ_self _
  · rw [task_created_of_ne priority code hne]
    intro hparent
    obtain ⟨hlive, hother⟩ := hold child hne hchild halloc hparent
    rw [withDepth, update_of_ne hother, update_of_ne hne]
    exact h.depth_lt hchild hlive hparent

/-- The new task joins the family as a child of the running one. -/
theorem Family.created (hfamily : Family s Whole children depth)
    (hindex : InTable index) (hfree : (s.task index).state = .free)
    (hcreator : ∀ c, s.currentTask = some c → Creator s c)
    (priority : Priority) (code : Word) :
    Family (created s index priority code) Whole (withChild s children index)
      (withDepth s depth index) := by
  have hnot := not_allocated_of_free hfree
  have hfresh := hfamily.not_mem_of_not_allocated hnot
  have hsiblings : (Kernel.created s index priority code).siblings =
      adopted s index := rfl
  refine ⟨hfamily.toAncestry.created hfree hcreator priority code, ?_, ?_, ?_⟩
  · rw [hsiblings, adopted, withChild]
    cases s.currentTask with
    | none => exact hfamily.represents
    | some c => exact hfamily.represents.enqueueQueue hfresh
  · rw [hsiblings, adopted, withChild]
    cases s.currentTask with
    | none => exact hfamily.tidy
    | some c => exact hfamily.represents.tidy_enqueueQueue hfamily.tidy
  · intro parent child
    rw [allocated_created_iff, withChild]
    by_cases hne : child = index
    · subst child
      rw [task_created_self]
      cases hcurrent : s.currentTask with
      | none => simp [hfresh parent, parentTid_newTask_of_none hcurrent]
      | some c =>
          obtain ⟨_, _, htid, hslot⟩ := hcreator c hcurrent
          have hparent : (s.task c).tid ≠ -1 := by omega
          simp [hfresh parent, parentTid_newTask_of_some hcurrent, hslot, hindex,
            hparent, Whole]
    · rw [task_created_of_ne priority code hne]
      cases s.currentTask with
      | none => simp [hfamily.mem_iff, hne]
      | some c => simp [hfamily.mem_iff, hne]

/-- A handler of task `c` creates a task. -/
theorem InKernel.created {c : ℤ} (hkernel : InKernel s c lists)
    (hlive : Allocated s c) (hnumbered : Numbered s)
    (hqueue : lists .available = index :: rest) (priority : Priority)
    (code : Word) :
    InKernel (created s index priority code) c
      ((lists.erase index).append (.states .ready priority) index) := by
  obtain ⟨hindex, hfree⟩ :=
    hkernel.partition.state_free (hqueue ▸ List.mem_cons_self)
  have hrunning : ∀ other, some c = some other → Allocated s other := by
    rintro other ⟨⟩
    exact hlive
  have hne : c ≠ index := by
    rintro rfl
    exact not_allocated_of_free hfree hlive
  refine ⟨hkernel.partition.created hrunning hqueue priority code,
    hkernel.named.created hnumbered hindex hfree priority code, hkernel.current,
    hkernel.inTable, ?_⟩
  rw [task_created_of_ne priority code hne]
  exact hkernel.tid_emod

end Create

end Rtk.Kernel
