import Rtk.Invariant.Run

/-!
# The scheduler queues and the free list

In runs without `Destroy` every descriptor is linked where its state says, and
the dispatcher always finds a task.
-/

namespace Rtk.Kernel

open Function
open Rtk.ByteMemory
open Rtk.Lib
open Rtk.Lib.QueueHeap
open Rtk.Transition

/-- The states of a task that waits in a scheduler queue. -/
def TaskState.Queued (state : TaskState) : Prop :=
  0 ≤ state.value ∧ state ≠ .active

instance (state : TaskState) : Decidable state.Queued :=
  inferInstanceAs (Decidable (_ ∧ _))

/-- The current task is `ACTIVE` and in no queue; every other descriptor is
linked, once, where its state and priority say. -/
structure WellScheduled (s : State) : Prop where
  current : ∃ c, s.currentTask = some c ∧ InTable c ∧ (s.task c).state = .active ∧
    ∀ queue nodes, Contents s.taskQueues queue nodes → c ∉ nodes
  scheduled : ∀ state priority, ∃ nodes,
    Contents s.taskQueues (.states state priority) nodes ∧ nodes.Nodup ∧
      ∀ index, index ∈ nodes ↔
        InTable index ∧ s.currentTask ≠ some index ∧
          (s.task index).state = state ∧ state.Queued ∧
          (s.task index).priority = priority
  available : ∃ nodes, Contents s.taskQueues .available nodes ∧ nodes.Nodup ∧
    ∀ index, index ∈ nodes ↔ InTable index ∧ (s.task index).state = .free

theorem Dispatched.wellScheduled {s : State} {c : ℤ} {lists : Lists TaskQueue ℤ}
    (h : Dispatched s c lists) : WellScheduled s where
  current := by
    refine ⟨c, h.current, h.inTable, h.running, ?_⟩
    intro queue nodes hcontents hmem
    have hqueue := hcontents.unique (h.partition.represents.contents queue)
    rw [hqueue, h.partition.mem_iff, home_of_running h.allocated] at hmem
    simp at hmem
  scheduled := by
    intro state priority
    refine ⟨lists (.states state priority), h.partition.represents.contents _,
      h.partition.represents.nodup _, ?_⟩
    intro index
    rw [h.partition.mem_iff, home_eq_states_iff, h.current]
    constructor
    · rintro ⟨hindex, halloc, hne, rfl, rfl⟩
      refine ⟨hindex, hne, rfl, ⟨halloc, ?_⟩, rfl⟩
      intro hactive
      exact hne (congrArg some (h.sole hindex hactive).symm)
    · rintro ⟨hindex, hne, rfl, hqueued, rfl⟩
      exact ⟨hindex, hqueued.1, hne, rfl, rfl⟩
  available := by
    refine ⟨lists .available, h.partition.represents.contents _,
      h.partition.represents.nodup _, ?_⟩
    intro index
    rw [h.partition.mem_iff, home_eq_available_iff]

/-- When `ScheduleAndActivate` starts a task, `GetNextScheduledTask` has found it. -/
theorem getNextScheduledTask_of_activate {s s' : State} {now : Word}
    (hactivate : scheduleAndActivate s now = some s') :
    (getNextScheduledTask (scheduleCurrent s)).1 ≠ none := by
  rw [scheduleAndActivate, activateNext] at hactivate
  intro hnone
  cases hnext : getNextScheduledTask (scheduleCurrent s) with
  | mk next dequeued =>
      rw [hnext] at hnone hactivate
      simp only at hnone
      subst hnone
      simp at hactivate

/-- Without `Destroy`, in every state between two rounds the scheduler queues and
the free list partition the descriptors by their states; every trap that can
happen is handled, and `GetNextScheduledTask` does not return `NULL` after it. -/
theorem wellScheduled_of_reachable {s : State}
    (hreachable : Reachable kernel NoDestroy s) :
    WellScheduled s ∧
      (∀ action, NoDestroy s action → Enabled s action → ∃ s', Step s action s') ∧
      (∀ fuel call trap saved, NoDestroy s (.call call trap) → getCurrentTid s ≠ 0 →
        svcEntry s fuel call trap = some saved →
        (getNextScheduledTask (scheduleCurrent saved)).1 ≠ none) ∧
      ∀ fuel intrCode trap saved, irqEntry s fuel intrCode trap = some saved →
        (getNextScheduledTask (scheduleCurrent saved)).1 ≠ none := by
  obtain ⟨l, h⟩ := undestroyed_of_reachable hreachable
  refine ⟨h.dispatched.wellScheduled, fun action => h.exists_step, ?_, ?_⟩
  · intro fuel call trap saved hno htid hsvc
    obtain ⟨s', hactivate⟩ := h.exists_activate_of_svcEntry hno htid hsvc 0
    exact getNextScheduledTask_of_activate hactivate
  · intro fuel intrCode trap saved hirq
    obtain ⟨s', hactivate⟩ := h.exists_activate_of_irqEntry hirq 0
    exact getNextScheduledTask_of_activate hactivate

/-- The theorem at a state after a rendezvous, an interrupt and a reply. -/
theorem wellScheduled_sample :
    ∃ s, sampleRun sampleActions = some s ∧ WellScheduled s ∧
      ∃ s', Step s (.interrupt 0 (sampleTrap 0x103f00)) s' := by
  have hsome : (sampleRun sampleActions).isSome := by decide +kernel
  obtain ⟨s, hrun⟩ := Option.isSome_iff_exists.mp hsome
  have hreachable : Reachable kernel NoDestroy s := by
    apply reachable_of_rounds hrun
    simp [sampleActions, NoDestroy]
  obtain ⟨hscheduled, hstep, _⟩ := wellScheduled_of_reachable hreachable
  exact ⟨s, hrun, hscheduled, hstep _ trivial (.inl rfl)⟩

end Rtk.Kernel
