import Rtk.Invariant.Family
import Rtk.Invariant.Scheduling

/-!
# Destroying a subtree

`DestroyHandler` frees a task after all its children, so the tasks it frees come
in an order in which no task follows its parent.  `Reaped` states the effect of
freeing the tasks of such an order: they leave their queues and join
`available_descriptors`, and everything else keeps its place.
-/

namespace Rtk.Kernel

open Function
open Rtk.ByteMemory
open Rtk.Lib

/-- A descriptor may be used again while its next tid but one stays in range. -/
def Reusable (task : Task) : Prop := task.tid < longMax - maxTasks

instance (task : Task) : Decidable (Reusable task) :=
  inferInstanceAs (Decidable (_ < _))

/-- A destroyed task: `FREE`, or `DESTROYED` when its tids are used up. -/
def freed (task : Task) : Task :=
  { task with state := if Reusable task then .free else .destroyed }

def reapedTasks (s : State) (order : List ℤ) : ℤ → Task :=
  fun index => if index ∈ order then freed (s.task index) else s.task index

def reapedLists (s : State) (lists : Lists TaskQueue ℤ) (order : List ℤ) :
    Lists TaskQueue ℤ
  | .available =>
      lists .available ++ order.filter fun index => Reusable (s.task index)
  | .states state priority =>
      (lists (.states state priority)).filter fun index => index ∉ order

def reapedChildren (children : Lists ℤ ℤ) (order : List ℤ) : Lists ℤ ℤ :=
  fun parent => (children parent).filter fun index => index ∉ order

/-! ## The functions compose -/

theorem reapedTasks_of_mem {s : State} {order : List ℤ} {index : ℤ}
    (hindex : index ∈ order) :
    reapedTasks s order index = freed (s.task index) := by
  rw [reapedTasks, if_pos hindex]

theorem reapedTasks_of_not_mem {s : State} {order : List ℤ} {index : ℤ}
    (hindex : index ∉ order) : reapedTasks s order index = s.task index := by
  rw [reapedTasks, if_neg hindex]

@[simp]
theorem tid_reapedTasks (s : State) (order : List ℤ) (index : ℤ) :
    (reapedTasks s order index).tid = (s.task index).tid := by
  rw [reapedTasks]
  split_ifs <;> rfl

@[simp]
theorem parentTid_reapedTasks (s : State) (order : List ℤ) (index : ℤ) :
    (reapedTasks s order index).parentTid = (s.task index).parentTid := by
  rw [reapedTasks]
  split_ifs <;> rfl

theorem not_allocated_freed (task : Task) : ¬0 ≤ (freed task).state.value := by
  rw [freed]
  split_ifs <;> simp [TaskState.value]

theorem allocated_reaped_iff {s s' : State} {order : List ℤ}
    (htask : s'.task = reapedTasks s order) (index : ℤ) :
    Allocated s' index ↔ Allocated s index ∧ index ∉ order := by
  rw [Allocated, Allocated, htask]
  by_cases hindex : index ∈ order
  · rw [reapedTasks_of_mem hindex]
    simp [not_allocated_freed, hindex]
  · rw [reapedTasks_of_not_mem hindex]
    simp [hindex]

theorem reapedTasks_append {s s' : State} {front back : List ℤ}
    (htask : s'.task = reapedTasks s front)
    (hback : ∀ index ∈ back, index ∉ front) :
    reapedTasks s' back = reapedTasks s (front ++ back) := by
  funext index
  by_cases hlater : index ∈ back
  · have hnot := hback index hlater
    simp [reapedTasks, htask, hlater, hnot]
  · simp [reapedTasks, htask, hlater]

theorem reapedLists_append {s s' : State} {lists : Lists TaskQueue ℤ}
    {front back : List ℤ} (htask : s'.task = reapedTasks s front) :
    reapedLists s' (reapedLists s lists front) back =
      reapedLists s lists (front ++ back) := by
  have hreusable : ∀ index,
      Reusable (s'.task index) ↔ Reusable (s.task index) := by
    intro index
    rw [Reusable, Reusable, htask, tid_reapedTasks]
  funext queue
  cases queue with
  | available => simp [reapedLists, hreusable]
  | states state priority =>
      simp [reapedLists, List.filter_filter, Bool.and_comm]

theorem reapedChildren_append (children : Lists ℤ ℤ) (front back : List ℤ) :
    reapedChildren (reapedChildren children front) back =
      reapedChildren children (front ++ back) := by
  funext parent
  simp [reapedChildren, List.filter_filter, Bool.and_comm]

/-- A task that is freed anyway may have left its parent before. -/
theorem reapedChildren_erase {children : Lists ℤ ℤ} {order : List ℤ}
    {index : ℤ} (hnodup : ∀ parent, (children parent).Nodup)
    (hindex : index ∈ order) :
    reapedChildren (children.erase index) order =
      reapedChildren children order := by
  funext parent
  rw [reapedChildren, reapedChildren, Lists.erase,
    (hnodup parent).erase_eq_filter, List.filter_filter]
  apply List.filter_congr
  intro member _
  by_cases hmember : member = index
  · subst member
    simp [hindex]
  · simp [hmember]

/-! ## The task itself -/

/-- `SetTaskState` to a state outside the scheduler unlinks the task. -/
theorem setTaskState_unlink {s : State} {tid : ℤ} {state : TaskState}
    (hslot : InTable (slot tid)) (htid : (s.task (slot tid)).tid = tid)
    (halloc : Allocated s (slot tid)) (hstate : ¬0 ≤ state.value) :
    setTaskState s tid state =
      s.withTasks (update s.task (slot tid)
          { s.task (slot tid) with state := state })
        (s.taskQueues.removeQueueNode
          (.states (s.task (slot tid)).state (s.task (slot tid)).priority)
          (slot tid)) := by
  simp only [setTaskState, useDescriptor_of_inTable hslot,
    removeStatefulPriorityTaskQueueNode_eq halloc, htid, hstate, and_false,
    ne_eq, not_true_eq_false, if_false]
  rfl

/-- The links of the scheduler once a task has destroyed itself. -/
def selfLinks (s : State) (index : ℤ) : QueueHeap TaskQueue ℤ :=
  let removed := s.taskQueues.removeQueueNode
    (.states (s.task index).state (s.task index).priority) index
  if Reusable (s.task index) then removed.enqueueQueue .available index
  else removed

/-- The enabled interrupts once it has. -/
def disarmed (s : State) (index : ℤ) : Word :=
  if 0 ≤ (s.task index).awaitingEventId.toInt then
    s.enabled &&& ~~~(s.task index).awaitingEventId
  else s.enabled

theorem reapedTasks_singleton (s : State) (index : ℤ) :
    reapedTasks s [index] = update s.task index (freed (s.task index)) := by
  funext other
  by_cases hother : other = index
  · subst other
    simp [reapedTasks]
  · simp [reapedTasks, hother]

theorem destroySelf_eq {s : State} {index : ℤ} (hindex : InTable index)
    (hslot : slot (s.task index).tid = index) (halloc : Allocated s index) :
    destroySelf s (s.task index).tid =
      { s.withTasks (reapedTasks s [index]) (selfLinks s index) with
        enabled := disarmed s index
        numTasks := s.numTasks - 1 } := by
  have hunlink : ∀ state : TaskState, ¬0 ≤ state.value →
      setTaskState s (s.task index).tid state =
        s.withTasks (update s.task index { s.task index with state := state })
          (s.taskQueues.removeQueueNode
            (.states (s.task index).state (s.task index).priority) index) := by
    intro state hstate
    have heq := @setTaskState_unlink s (s.task index).tid state
      (by rw [hslot]; exact hindex) (by rw [hslot])
      (by rw [hslot]; exact halloc) hstate
    rwa [hslot] at heq
  rw [reapedTasks_singleton, freed, selfLinks, disarmed]
  by_cases hreusable : Reusable (s.task index)
  · have hlt : (s.task index).tid < longMax - maxTasks := hreusable
    simp only [destroySelf, hslot, if_pos hlt, if_pos hreusable,
      hunlink .free (by decide), State.withTasks_task, update_self]
    split_ifs <;> rfl
  · have hlt : ¬(s.task index).tid < longMax - maxTasks := hreusable
    simp only [destroySelf, hslot, if_neg hlt, if_neg hreusable,
      hunlink .destroyed (by decide), State.withTasks_task, update_self]
    split_ifs <;> rfl

theorem reapedLists_singleton {s : State} {running : Option ℤ}
    {lists : Lists TaskQueue ℤ} (hpart : Partition s running lists) {index : ℤ}
    (halloc : Allocated s index) :
    reapedLists s lists [index] =
      if Reusable (s.task index) then (lists.erase index).append .available index
      else lists.erase index := by
  have hfree : index ∉ lists .available := by
    rw [hpart.mem_iff, home_eq_available_iff]
    exact fun hmem => (allocated_iff.mp halloc).1 hmem.2
  funext queue
  cases queue with
  | available =>
      by_cases hreusable : Reusable (s.task index)
      · simp [reapedLists, hreusable, Lists.erase_of_not_mem hfree]
      · simp [reapedLists, hreusable, Lists.erase_of_not_mem hfree]
  | states state priority =>
      have herase : lists.erase index (.states state priority) =
          reapedLists s lists [index] (.states state priority) := by
        rw [Lists.erase, (hpart.represents.nodup _).erase_eq_filter, reapedLists]
        apply List.filter_congr
        intro member _
        simp [bne, beq_eq_decide]
      split_ifs
      · rw [Lists.append_of_ne _ _ (by simp), herase]
      · rw [herase]

theorem Partition.represents_selfLinks {s : State} {running : Option ℤ}
    {lists : Lists TaskQueue ℤ} (hpart : Partition s running lists) {index : ℤ}
    (halloc : Allocated s index) :
    Represents (selfLinks s index) (reapedLists s lists [index]) ∧
      Tidy (selfLinks s index) (reapedLists s lists [index]) := by
  have hremovable := hpart.removable halloc
  have hrep := hpart.represents.removeQueueNode hpart.tidy hremovable
  have htidy := hpart.represents.tidy_removeQueueNode hpart.tidy hremovable
  rw [reapedLists_singleton hpart halloc, selfLinks]
  split_ifs
  · have hfresh : ∀ queue, index ∉ lists.erase index queue := by
      intro queue hmem
      exact (hpart.represents.mem_erase_iff.mp hmem).2 rfl
    exact ⟨hrep.enqueueQueue hfresh, hrep.tidy_enqueueQueue htidy⟩
  · exact ⟨hrep, htidy⟩

/-- The partition once a task has destroyed itself. -/
theorem Partition.reaped {s s' : State} {running : Option ℤ}
    {lists : Lists TaskQueue ℤ} (hpart : Partition s running lists) {index : ℤ}
    (hindex : InTable index) (halloc : Allocated s index)
    (htask : s'.task = reapedTasks s [index])
    (hqueues : s'.taskQueues = selfLinks s index) :
    Partition s' running (reapedLists s lists [index]) where
  represents := by
    rw [hqueues]
    exact (hpart.represents_selfLinks halloc).1
  tidy := by
    rw [hqueues]
    exact (hpart.represents_selfLinks halloc).2
  mem_iff := by
    intro queue other
    have hmem : other ∈ reapedLists s lists [index] queue ↔
        other ∈ lists queue ∧ other ≠ index ∨
          queue = .available ∧ other = index ∧ Reusable (s.task index) := by
      rw [reapedLists_singleton hpart halloc]
      split_ifs with hreusable
      · simp [hpart.represents.mem_erase_iff, hreusable]
      · simp [hpart.represents.mem_erase_iff, hreusable]
    rw [hmem, hpart.mem_iff]
    by_cases hother : other = index
    · subst other
      have hself : s'.task index = freed (s.task index) := by
        rw [htask, reapedTasks_of_mem (by simp)]
      simp only [home, hself, freed]
      by_cases hreusable : Reusable (s.task index)
      · simp [hreusable, hindex, eq_comm]
      · simp [hreusable]
    · have hkept : s'.task other = s.task other := by
        rw [htask, reapedTasks_of_not_mem (by simpa using hother)]
      simp [home, hkept, hother]

theorem reapedChildren_of_not_mem {children : Lists ℤ ℤ} {order : List ℤ}
    (horder : ∀ index ∈ order, ∀ parent, index ∉ children parent) :
    reapedChildren children order = children := by
  funext parent
  rw [reapedChildren, List.filter_eq_self]
  intro member hmember
  rw [decide_eq_true_eq]
  exact fun hmem => horder member hmem parent hmember

/-- `s'` has the messages, the memory and the history of `s`. -/
structure Untouched (s s' : State) : Prop where
  image : s'.image = s.image
  node : s'.node = s.node
  msgQueues : s'.msgQueues = s.msgQueues
  memory : s'.memory = s.memory
  faults : s'.faults = s.faults
  log : s'.log = s.log

theorem Untouched.refl (s : State) : Untouched s s := ⟨rfl, rfl, rfl, rfl, rfl, rfl⟩

theorem Untouched.trans {s s' s'' : State} (hleft : Untouched s s')
    (hright : Untouched s' s'') : Untouched s s'' where
  image := hright.image.trans hleft.image
  node := hright.node.trans hleft.node
  msgQueues := hright.msgQueues.trans hleft.msgQueues
  memory := hright.memory.trans hleft.memory
  faults := hright.faults.trans hleft.faults
  log := hright.log.trans hleft.log

/-- From `s` to `s'` the tasks in `order`, and no others, have been destroyed. -/
structure Reaped (s : State) (c : ℤ) (lists : Lists TaskQueue ℤ)
    (detached : ℤ → Prop) (children : Lists ℤ ℤ) (depth : ℤ → ℕ)
    (order : List ℤ) (s' : State) : Prop where
  inKernel : InKernel s' c (reapedLists s lists order)
  family : Family s' detached (reapedChildren children order) depth
  task : s'.task = reapedTasks s order
  nodup : order.Nodup
  live : ∀ index ∈ order, InTable index ∧ Allocated s index
  untouched : Untouched s s'
  numTasks : s'.numTasks = s.numTasks - order.length

section Reaped

variable {s s' s'' : State} {c : ℤ} {lists : Lists TaskQueue ℤ}
  {detached : ℤ → Prop} {children : Lists ℤ ℤ} {depth : ℤ → ℕ}

theorem Reaped.refl (hkernel : InKernel s c lists)
    (hfamily : Family s detached children depth) :
    Reaped s c lists detached children depth [] s := by
  have htask : s.task = reapedTasks s [] := by
    funext index
    simp [reapedTasks]
  have hlists : reapedLists s lists [] = lists := by
    funext queue
    cases queue <;> simp [reapedLists]
  have hchildren : reapedChildren children [] = children := by
    funext parent
    simp [reapedChildren]
  exact
    { inKernel := by rwa [hlists]
      family := by rwa [hchildren]
      task := htask
      nodup := List.nodup_nil
      live := by simp
      untouched := .refl s
      numTasks := by simp }

theorem Reaped.trans {front back : List ℤ}
    (hfront : Reaped s c lists detached children depth front s')
    (hback : Reaped s' c (reapedLists s lists front) detached
      (reapedChildren children front) depth back s'') :
    Reaped s c lists detached children depth (front ++ back) s'' := by
  have hlive := allocated_reaped_iff hfront.task
  have hdisjoint : ∀ index ∈ back, index ∉ front := fun index hindex =>
    ((hlive index).mp (hback.live index hindex).2).2
  exact
    { inKernel := by
        rw [← reapedLists_append hfront.task]
        exact hback.inKernel
      family := by
        rw [← reapedChildren_append]
        exact hback.family
      task := by rw [hback.task, reapedTasks_append hfront.task hdisjoint]
      nodup := by
        rw [List.nodup_append]
        refine ⟨hfront.nodup, hback.nodup, ?_⟩
        rintro index hindex other hother rfl
        exact hdisjoint index hother hindex
      live := by
        intro index hindex
        rcases List.mem_append.mp hindex with hindex | hindex
        · exact hfront.live index hindex
        · obtain ⟨htable, halloc⟩ := hback.live index hindex
          exact ⟨htable, ((hlive index).mp halloc).1⟩
      untouched := hfront.untouched.trans hback.untouched
      numTasks := by
        rw [hback.numTasks, hfront.numTasks, List.length_append]
        omega }

/-- Parents stay in use when tasks are destroyed with all their children. -/
theorem Ancestry.reaped (h : Ancestry s depth) {order : List ℤ}
    (htask : s'.task = reapedTasks s order)
    (hclosed : ∀ parent ∈ order, ∀ child, IsChild s parent child → child ∈ order) :
    Ancestry s' depth where
  parent_nonneg := by
    intro child hchild halloc
    rw [htask, parentTid_reapedTasks]
    exact h.parent_nonneg hchild ((allocated_reaped_iff htask child).mp halloc).1
  parent_allocated := by
    intro child hchild halloc
    obtain ⟨hlive, hkept⟩ := (allocated_reaped_iff htask child).mp halloc
    rw [htask, parentTid_reapedTasks]
    intro hparent
    rw [allocated_reaped_iff htask]
    refine ⟨h.parent_allocated hchild hlive hparent, fun hmem => ?_⟩
    exact hkept (hclosed _ hmem child ⟨hchild, hlive, hparent, rfl⟩)
  parent_tid := by
    intro child hchild halloc
    rw [htask, parentTid_reapedTasks, tid_reapedTasks]
    exact h.parent_tid hchild ((allocated_reaped_iff htask child).mp halloc).1
  depth_lt := by
    intro child hchild halloc
    rw [htask, parentTid_reapedTasks]
    exact h.depth_lt hchild ((allocated_reaped_iff htask child).mp halloc).1

theorem InKernel.reaped_self (h : InKernel s c lists) {index : ℤ}
    (hindex : InTable index) (halloc : Allocated s index)
    (htask : s'.task = reapedTasks s [index])
    (hqueues : s'.taskQueues = selfLinks s index)
    (hcurrent : s'.currentTask = s.currentTask) :
    InKernel s' c (reapedLists s lists [index]) where
  partition := h.partition.reaped hindex halloc htask hqueues
  named :=
    { tid_emod := by
        intro other hother hlive
        rw [htask, tid_reapedTasks]
        exact h.named.tid_emod hother ((allocated_reaped_iff htask other).mp hlive).1
      tid_nonneg := by
        intro other hother hlive
        rw [htask, tid_reapedTasks]
        exact h.named.tid_nonneg hother
          ((allocated_reaped_iff htask other).mp hlive).1
      tid_le := by
        intro other hother hlive
        rw [htask, tid_reapedTasks]
        exact h.named.tid_le hother ((allocated_reaped_iff htask other).mp hlive).1 }
  current := hcurrent.trans h.current
  inTable := h.inTable
  tid_emod := by
    rw [htask, tid_reapedTasks]
    exact h.tid_emod

/-- A childless task that is in no queue of children leaves the family. -/
theorem Family.reaped_self (h : Family s detached children depth) {index : ℤ}
    (hself : detached index) (hchildless : children index = [])
    (hdepth : ∀ other, InTable other → Allocated s other → detached other →
      depth other ≤ depth index)
    (htask : s'.task = reapedTasks s [index])
    (hsiblings : s'.siblings = s.siblings) :
    Family s' detached (reapedChildren children [index]) depth := by
  have hunlinked : ∀ parent, index ∉ children parent := by
    intro parent hmem
    exact (h.mem_iff.mp hmem).2.2.1 hself
  have hchildren : reapedChildren children [index] = children := by
    apply reapedChildren_of_not_mem
    simpa using hunlinked
  have hclosed : ∀ parent ∈ [index], ∀ child,
      IsChild s parent child → child ∈ [index] := by
    rintro parent hparent child ⟨hchild, halloc, hne, hslot⟩
    rw [List.mem_singleton] at hparent
    subst parent
    -- a detached child would be deeper than `index`, a linked one in its queue
    by_cases hdetached : detached child
    · have hle := hdepth child hchild halloc hdetached
      have hlt := h.depth_lt hchild halloc hne
      rw [hslot] at hlt
      omega
    · have hmem : child ∈ children index :=
        h.mem_iff.mpr ⟨hchild, halloc, hdetached, hne, hslot.symm⟩
      simp [hchildless] at hmem
  rw [hchildren]
  refine ⟨h.toAncestry.reaped htask hclosed, ?_, ?_, ?_⟩
  · rw [hsiblings]
    exact h.represents
  · rw [hsiblings]
    exact h.tidy
  · intro parent child
    rw [h.mem_iff, allocated_reaped_iff htask, htask, parentTid_reapedTasks,
      List.mem_singleton]
    constructor
    · rintro ⟨hchild, halloc, hnot, hparent⟩
      refine ⟨hchild, ⟨halloc, ?_⟩, hnot, hparent⟩
      rintro rfl
      exact hnot hself
    · rintro ⟨hchild, ⟨halloc, _⟩, hnot, hparent⟩
      exact ⟨hchild, halloc, hnot, hparent⟩

/-- A task without children, taken out of its parent's queue, destroys itself.
A task that is detached elsewhere is no child of it, being no deeper. -/
theorem Family.reaped_destroySelf (hfamily : Family s detached children depth)
    (hkernel : InKernel s c lists) {index : ℤ} (hindex : InTable index)
    (halloc : Allocated s index) (hself : detached index)
    (hchildless : children index = [])
    (hdepth : ∀ other, InTable other → Allocated s other → detached other →
      depth other ≤ depth index) :
    Reaped s c lists detached children depth [index]
      (destroySelf s (s.task index).tid) := by
  rw [destroySelf_eq hindex (hkernel.named.slot_tid hindex halloc) halloc]
  exact
    { inKernel := hkernel.reaped_self hindex halloc rfl rfl rfl
      family := hfamily.reaped_self hself hchildless hdepth rfl rfl
      task := rfl
      nodup := by simp
      live := by
        intro other hother
        rw [List.mem_singleton] at hother
        subst other
        exact ⟨hindex, halloc⟩
      untouched := ⟨rfl, rfl, rfl, rfl, rfl, rfl⟩
      numTasks := by simp }

end Reaped

end Rtk.Kernel
