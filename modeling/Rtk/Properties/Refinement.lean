import Rtk.Invariant.View

/-!
# Message passing

Without `Destroy` the kernel is a system of tasks that pass messages synchronously: its rounds
are the steps of that system.  Tasks that send to each other in a circle, or to a task that has
exited, therefore never run again.
-/

namespace Rtk.Kernel

open Function
open Rtk.ByteMemory
open Rtk.Lib
open Rtk.Messaging
open Rtk.Transition

/-! ## The refinement -/

section Refinement

variable {s s' : State} {l : Layout} {action : Action} {w : World ℤ Word}

/-- The links of the message queues determine what the kernel says. -/
theorem Undestroyed.view_eq (h : Undestroyed s l) (hviews : Views s w) : w = view s l.queues := by
  obtain ⟨queues, hrep, rfl⟩ := hviews
  rw [hrep.unique h.messages.represents]

theorem Undestroyed.views (h : Undestroyed s l) : Views s (view s l.queues) :=
  ⟨l.queues, h.messages.represents, rfl⟩

theorem Undestroyed.status_current (h : Undestroyed s l) :
    statusOf s (getCurrentTid s) = .ready := by
  have hnonneg := h.dispatched.named.tid_nonneg h.dispatched.inTable h.dispatched.allocated
  rw [h.dispatched.getCurrentTid_eq, statusOf, byTid_tid h.dispatched.slot_tid hnonneg, statusAt,
    Task.status, h.dispatched.running]

/-- At the first activation no task waits. -/
theorem Booted.exists_initial (hbooted : Booted s) : ∃ w, Messaging.Initial w ∧ Views s w := by
  obtain ⟨depth, hcoherent⟩ := hbooted.coherent
  refine ⟨view s fun _ => [], ⟨?_, ?_, ?_⟩, _, hcoherent.messages.represents, rfl⟩
  · intro tid
    rw [status_view, statusOf, byTid]
    split_ifs with hown
    · rw [statusAt, Task.status]
      rcases hbooted.state_cases (inTable_slot hown.1) with hstate | hstate | hstate <;>
        simp [hstate]
    · exact .inl rfl
  · intro tid
    exact ite_self _
  · obtain ⟨l, hundestroyed⟩ := hbooted.undestroyed
    exact hundestroyed.status_current

/-- Every round is a step. -/
theorem Undestroyed.exists_messaging (h : Undestroyed s l) (hviews : Views s w)
    (hno : NoDestroy s action) (hstep : Step s action s') :
    ∃ op w', Performs s action op ∧ Messaging.Step w op w' ∧ Views s' w' := by
  obtain rfl := h.view_eq hviews
  obtain ⟨middle, hhandles, hresumed⟩ := h.exists_resumed hno hstep
  obtain ⟨op, hperforms, henabled, hmiddle⟩ := h.views_of_handles hno hhandles
  have hafter := hresumed.views hmiddle
  obtain ⟨l', hnext⟩ := h.step hno hstep
  refine ⟨op, _, hperforms, ⟨henabled, getCurrentTid s', ?_, rfl⟩, hafter⟩
  have hstatus : (op.apply (view s l.queues)).status = statusOf s' :=
    congrArg World.status (hnext.view_eq hafter)
  rw [hstatus]
  exact hnext.status_current

end Refinement

/-- The kernel without `Destroy` refines synchronous message passing. -/
theorem simulation_kernel :
    Simulation kernel NoDestroy (Messaging.system ℤ Word)
      (fun s w => (∃ l, Undestroyed s l) ∧ Views s w) Performs where
  initial s hbooted := by
    obtain ⟨w, hinitial, hviews⟩ := Booted.exists_initial hbooted
    exact ⟨w, hinitial, Booted.undestroyed hbooted, hviews⟩
  step := by
    rintro s w action s' ⟨⟨l, hundestroyed⟩, hviews⟩ hno hstep
    obtain ⟨op, w', hperforms, hmessaging, hafter⟩ :=
      hundestroyed.exists_messaging hviews hno hstep
    exact ⟨op, w', hperforms, hmessaging, hundestroyed.step hno hstep, hafter⟩

/-- What a run without `Destroy` reaches is what the kernel says about a state that message
passing reaches, and so is every further round. -/
theorem refines_of_reachable {s : State} (hreachable : Reachable kernel NoDestroy s) :
    ∃ w, Reachable (Messaging.system ℤ Word) (fun _ _ => True) w ∧ Views s w ∧
      ∀ action s', NoDestroy s action → Step s action s' →
        ∃ op w', Performs s action op ∧ Messaging.Step w op w' ∧ Views s' w' := by
  obtain ⟨w, hmessaging, ⟨l, hundestroyed⟩, hviews⟩ := simulation_kernel.reachable hreachable
  exact ⟨w, hmessaging, hviews, fun _ _ => hundestroyed.exists_messaging hviews⟩

/-- After the exchange of two tasks. -/
theorem refines_sample :
    ∃ s w, sampleRun sampleActions = some s ∧
      Reachable (Messaging.system ℤ Word) (fun _ _ => True) w ∧ Views s w ∧
      w.status 1 = .ready ∧ w.status 2 = .ready ∧ w.status 3 = .unborn := by
  have hobserved : (sampleRun sampleActions).map
      (fun s => (statusOf s 1, statusOf s 2, statusOf s 3)) =
      some (.ready, .ready, .unborn) := by
    decide +kernel
  obtain ⟨s, hrun, hvalues⟩ := Option.map_eq_some_iff.mp hobserved
  simp only [Prod.mk.injEq] at hvalues
  have hreachable : Reachable kernel NoDestroy s := by
    apply reachable_of_rounds hrun
    simp [sampleActions, NoDestroy]
  obtain ⟨w, hmessaging, hviews, _⟩ := refines_of_reachable hreachable
  have hstatus : w.status = statusOf s := by
    obtain ⟨queues, _, rfl⟩ := hviews
    rfl
  rw [← hstatus] at hvalues
  exact ⟨s, w, hrun, hmessaging, hviews, hvalues⟩

/-! ## Tasks that never run again -/

/-- Every task of the set has exited, or waits in a `Send` to one of the set. -/
def Deadlocked (s : State) (tids : Set ℤ) : Prop :=
  ∀ tid ∈ tids, 0 ≤ tid ∧ (s.task (slot tid)).tid = tid ∧
    ((s.task (slot tid)).state = .zombie ∨
      (s.task (slot tid)).state = .receiveBlocked ∧ (s.node (slot tid)).toTid ∈ tids)

section Deadlock

variable {s : State} {tids : Set ℤ} {w : World ℤ Word}

theorem statusOf_eq_ended_iff {tid : ℤ} :
    statusOf s tid = .ended ↔
      0 ≤ tid ∧ (s.task (slot tid)).tid = tid ∧ (s.task (slot tid)).state = .zombie := by
  rw [statusOf, byTid]
  split_ifs with hown
  · rw [statusAt, Task.status]
    cases hstate : (s.task (slot tid)).state <;> simp [hown]
  · exact iff_of_false (by simp) fun h => hown ⟨h.1, h.2.1⟩

theorem statusOf_eq_sending_iff {tid receiver : ℤ} :
    statusOf s tid = .sending receiver ↔
      0 ≤ tid ∧ (s.task (slot tid)).tid = tid ∧
        (s.task (slot tid)).state = .receiveBlocked ∧ (s.node (slot tid)).toTid = receiver := by
  rw [statusOf, byTid]
  split_ifs with hown
  · rw [statusAt, Task.status]
    cases hstate : (s.task (slot tid)).state <;> simp [hown]
  · exact iff_of_false (by simp) fun h => hown ⟨h.1, h.2.1⟩

/-- Such a set is one of tasks that wait for each other. -/
theorem deadlocked_iff_stuck (hviews : Views s w) : Deadlocked s tids ↔ Stuck w tids := by
  obtain ⟨queues, _, rfl⟩ := hviews
  refine forall₂_congr fun tid _ => ?_
  rw [status_view, statusOf_eq_ended_iff]
  simp only [statusOf_eq_sending_iff]
  grind

end Deadlock

/-- In runs without `Destroy` such a set stays as it is, and none of its tasks runs again. -/
theorem deadlocked_of_reachable {s s' : State} {tids : Set ℤ}
    (hreachable : Reachable kernel NoDestroy s) (hdeadlocked : Deadlocked s tids)
    (hpath : Path kernel NoDestroy s s') :
    Deadlocked s' tids ∧ getCurrentTid s' ∉ tids := by
  obtain ⟨w, hmessaging, hrelation⟩ := simulation_kernel.reachable hreachable
  obtain ⟨w', hpath', _, hviews'⟩ := simulation_kernel.path hrelation hpath
  have hstuck : Stuck w tids := (deadlocked_iff_stuck hrelation.2).mp hdeadlocked
  obtain ⟨hsound, hstuck', _⟩ := hstuck.path (sound_of_reachable hmessaging) hpath'
  refine ⟨(deadlocked_iff_stuck hviews').mpr hstuck', ?_⟩
  obtain ⟨queues, _, rfl⟩ := hviews'
  exact hstuck'.not_running hsound

def sampleCircle : List Action :=
  [.call (.create 3 0x9000) (sampleTrap 0x103f00),
    .call (.send 1 0x200 5 0x300 6) (sampleTrap 0x105f00),
    .call (.send 2 0x400 5 0x500 6) (sampleTrap 0x103f00)]

/-- After an interrupt of the null task they still wait. -/
theorem deadlocked_sample :
    ∃ s s', sampleRun sampleCircle = some s ∧
      step s 8 (.interrupt 0 (sampleTrap 0x101f00)) = some s' ∧
      Deadlocked s {1, 2} ∧ Deadlocked s' {1, 2} ∧ getCurrentTid s' ∉ ({1, 2} : Set ℤ) := by
  have hobserved : ((sampleRun sampleCircle).bind fun s =>
      (step s 8 (.interrupt 0 (sampleTrap 0x101f00))).map fun _ =>
        (statusOf s 1, statusOf s 2)) = some (.sending 2, .sending 1) := by
    decide +kernel
  obtain ⟨s, s', hrun, hstep, hvalues⟩ := exists_observed hobserved
  simp only [Prod.mk.injEq, statusOf_eq_sending_iff] at hvalues
  obtain ⟨⟨hfirst, hfirstTid, hfirstState, hfirstTo⟩,
    hsecond, hsecondTid, hsecondState, hsecondTo⟩ := hvalues
  have hreachable : Reachable kernel NoDestroy s := by
    apply reachable_of_rounds hrun
    simp [sampleCircle, NoDestroy]
  have hdeadlocked : Deadlocked s {1, 2} := by
    rintro tid (rfl | rfl)
    · exact ⟨hfirst, hfirstTid, .inr ⟨hfirstState, .inr hfirstTo⟩⟩
    · exact ⟨hsecond, hsecondTid, .inr ⟨hsecondState, .inl hsecondTo⟩⟩
  have hallowed : NoDestroy s (.interrupt 0 (sampleTrap 0x101f00)) := trivial
  have hpath : Path kernel NoDestroy s s' := .tail (.refl s) hallowed ⟨8, hstep⟩
  exact ⟨s, s', hrun, hstep, hdeadlocked, deadlocked_of_reachable hreachable hdeadlocked hpath⟩

end Rtk.Kernel
