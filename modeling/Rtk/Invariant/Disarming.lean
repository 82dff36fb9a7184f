import Mathlib.Data.List.Perm.Subperm
import Rtk.Invariant.Accounts

/-!
# Disarming

A destroyed task disables the interrupts it last waited for.  Whatever state it starts in,
`DestroyHandler` does this for some tasks; from a coherent state they are the tasks that
are destroyed, each once.
-/

namespace Rtk.Kernel

open Function
open Rtk.ByteMemory
open Rtk.Lib

/-- The enabled interrupts once a task that last waited for `event` is destroyed. -/
def disarm (enabled event : Word) : Word :=
  if 0 ≤ event.toInt then enabled &&& ~~~event else enabled

/-- From `s` to `s'` the tasks of `order` destroy themselves. -/
structure Disarms (s : State) (order : List ℤ) (s' : State) : Prop where
  awaiting : ∀ index, (s'.task index).awaitingEventId = (s.task index).awaitingEventId
  state : ∀ index, index ∉ order → (s'.task index).state = (s.task index).state
  numTasks : s'.numTasks = s.numTasks - order.length
  enabled : s'.enabled =
    order.foldl (fun enabled index => disarm enabled (s.task index).awaitingEventId) s.enabled

section Disarms

variable {s s' s'' : State}

theorem Disarms.refl (s : State) : Disarms s [] s :=
  ⟨fun _ => rfl, fun _ _ => rfl, (Int.sub_zero _).symm, rfl⟩

theorem Disarms.trans {front back : List ℤ} (hfront : Disarms s front s')
    (hback : Disarms s' back s'') : Disarms s (front ++ back) s'' where
  awaiting index := (hback.awaiting index).trans (hfront.awaiting index)
  state := by
    intro index hindex
    rw [List.mem_append, not_or] at hindex
    rw [hback.state index hindex.2, hfront.state index hindex.1]
  numTasks := by
    rw [hback.numTasks, hfront.numTasks, List.length_append]
    omega
  enabled := by
    rw [hback.enabled, hfront.enabled, List.foldl_append]
    simp only [hfront.awaiting]

/-- Nothing that concerns events is touched. -/
theorem Disarms.of_task_eq (htask : s'.task = s.task) (hnum : s'.numTasks = s.numTasks)
    (henabled : s'.enabled = s.enabled) : Disarms s [] s' := by
  refine ⟨?_, ?_, hnum.trans (Int.sub_zero _).symm, henabled⟩
  · rw [htask]
    exact fun _ => rfl
  · rw [htask]
    exact fun _ _ => rfl

theorem task_setTaskState_of_ne (s : State) (tid : ℤ) (state : TaskState) {index : ℤ}
    (hindex : index ≠ slot tid) : (setTaskState s tid state).task index = s.task index := by
  have hused := (Silent.useDescriptor s (slot tid)).task
  simp only [setTaskState, removeStatefulPriorityTaskQueueNode,
    enqueueStatefulPriorityTaskQueue, State.useState]
  split_ifs <;> simp [State.setTask, hindex, hused]

theorem awaitingEventId_setTaskState (s : State) (tid : ℤ) (state : TaskState) (index : ℤ) :
    ((setTaskState s tid state).task index).awaitingEventId =
      (s.task index).awaitingEventId := by
  have hused := (Silent.useDescriptor s (slot tid)).task
  simp only [setTaskState, removeStatefulPriorityTaskQueueNode,
    enqueueStatefulPriorityTaskQueue, State.useState]
  by_cases hindex : index = slot tid
  · subst index
    split_ifs <;> simp [hused]
  · split_ifs <;> simp [State.setTask, hindex, hused]

theorem disarms_destroySelf (s : State) (tid : ℤ) :
    Disarms s [slot tid] (destroySelf s tid) := by
  have hself : ∀ (state : TaskState) (queues : QueueHeap TaskQueue ℤ),
      Disarms s [slot tid]
        { { setTaskState s tid state with taskQueues := queues } with
          enabled := disarm (setTaskState s tid state).enabled
            ((setTaskState s tid state).task (slot tid)).awaitingEventId
          numTasks := (setTaskState s tid state).numTasks - 1 } := by
    intro state queues
    have hroutine := routine_setTaskState s tid state
    refine ⟨awaitingEventId_setTaskState s tid state, ?_, ?_, ?_⟩
    · intro index hindex
      rw [List.mem_singleton] at hindex
      exact congrArg Task.state (task_setTaskState_of_ne s tid state hindex)
    · simp [hroutine.numTasks]
    · simp only [hroutine.enabled, awaitingEventId_setTaskState, List.foldl_cons,
        List.foldl_nil]
  simp only [destroySelf]
  split_ifs with hlt harmed harmed
  · have hfreed := hself .free
      ((setTaskState s tid .free).taskQueues.enqueueQueue .available (slot tid))
    rw [disarm, if_pos harmed] at hfreed
    exact hfreed
  · have hfreed := hself .free
      ((setTaskState s tid .free).taskQueues.enqueueQueue .available (slot tid))
    rw [disarm, if_neg harmed] at hfreed
    exact hfreed
  · have hretired := hself .destroyed (setTaskState s tid .destroyed).taskQueues
    rw [disarm, if_pos harmed] at hretired
    exact hretired
  · have hretired := hself .destroyed (setTaskState s tid .destroyed).taskQueues
    rw [disarm, if_neg harmed] at hretired
    exact hretired

/-- Whatever state it starts in, `DestroyHandler` lets some tasks destroy themselves. -/
theorem exists_disarms (fuel : ℕ) :
    (∀ {s s' : State} {tid result : ℤ}, destroyHandler s tid fuel = some (result, s') →
      ∃ order, Disarms s order s') ∧
    ∀ {s s' : State} {index : ℤ}, destroyChildren s index fuel = some s' →
      ∃ order, Disarms s order s' := by
  induction fuel with
  | zero =>
      constructor
      · intro s s' tid result hdestroy
        simp [destroyHandler] at hdestroy
      · intro s s' index hdestroy
        simp [destroyChildren] at hdestroy
  | succ fuel ih =>
      constructor
      · intro s s' tid result hdestroy
        have hused : Disarms s [] (s.useDescriptor (slot tid)) :=
          have hroutine := routine_useDescriptor s (slot tid)
          .of_task_eq (Silent.useDescriptor s _).task hroutine.numTasks hroutine.enabled
        have hleft : ∀ middle : State, Disarms middle [] (leaveParent middle (slot tid)) := by
          intro middle
          have hroutine := routine_useDescriptor middle
            (slot (middle.task (slot tid)).parentTid)
          exact .of_task_eq (Silent.useDescriptor _ _).task hroutine.numTasks hroutine.enabled
        simp only [destroyHandler] at hdestroy
        split_ifs at hdestroy
        · obtain ⟨_, rfl⟩ := Prod.mk.inj (Option.some.inj hdestroy)
          exact ⟨[], .refl s⟩
        · obtain ⟨_, rfl⟩ := Prod.mk.inj (Option.some.inj hdestroy)
          exact ⟨[], hused⟩
        · split at hdestroy
          · simp at hdestroy
          · rename_i destroyed hchildren
            obtain ⟨_, rfl⟩ := Prod.mk.inj (Option.some.inj hdestroy)
            obtain ⟨order, hbelow⟩ := ih.2 hchildren
            exact ⟨_, ((hused.trans (hleft _)).trans hbelow).trans (disarms_destroySelf _ _)⟩
      · intro s s' index hdestroy
        have hdequeued : ∀ queues : QueueHeap ℤ ℤ,
            Disarms s [] { s with siblings := queues } :=
          fun _ => .of_task_eq rfl rfl rfl
        rw [destroyChildren] at hdestroy
        split at hdestroy
        · rw [← Option.some.inj hdestroy]
          exact ⟨[], hdequeued _⟩
        · simp only at hdestroy
          split at hdestroy
          · simp at hdestroy
          · rename_i hchild
            obtain ⟨front, hfront⟩ := ih.1 hchild
            obtain ⟨back, hback⟩ := ih.2 hdestroy
            exact ⟨_, ((hdequeued _).trans hfront).trans hback⟩

/-- The tasks that destroy themselves are those that are reaped, each once. -/
theorem Disarms.perm {order self : List ℤ} (hdisarms : Disarms s self s')
    (hlive : ∀ index ∈ order, Allocated s index) (hnodup : order.Nodup)
    (htask : s'.task = reapedTasks s order)
    (hnum : s'.numTasks = s.numTasks - order.length) : order.Perm self := by
  have hsubset : order ⊆ self := by
    intro index hindex
    by_contra hnot
    have hgone : ¬Allocated s' index := fun halloc =>
      ((allocated_reaped_iff htask index).mp halloc).2 hindex
    apply hgone
    rw [Allocated, hdisarms.state index hnot]
    exact hlive index hindex
  apply (List.subperm_of_subset hnodup hsubset).perm_of_length_le
  have hsame := hdisarms.numTasks
  omega

/-- A mask stays enabled when no task that is destroyed waited for a part of it last. -/
theorem and_foldl_disarm_iff {tasks : ℤ → Task} {order : List ℤ} {mask : Word}
    (enabled : Word) :
    mask &&& order.foldl (fun enabled index => disarm enabled (tasks index).awaitingEventId)
        enabled = mask ↔
      mask &&& enabled = mask ∧ ∀ index ∈ order,
        0 ≤ (tasks index).awaitingEventId.toInt → mask &&& (tasks index).awaitingEventId = 0 := by
  induction order generalizing enabled with
  | nil => simp
  | cons index order ih =>
      rw [List.foldl_cons, ih, disarm, List.forall_mem_cons]
      split_ifs with harmed
      · rw [and_and_not_eq_iff, and_assoc, forall_prop_of_true harmed]
      · rw [forall_prop_of_false harmed, true_and]

end Disarms

end Rtk.Kernel
