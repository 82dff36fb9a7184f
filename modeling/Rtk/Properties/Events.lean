import Mathlib.Order.Interval.Finset.Basic
import Mathlib.Data.Int.Interval
import Rtk.Invariant.Fates

/-!
# Wake-ups

A task that waits for an event can be woken as long as its interrupts are enabled.
`HandleIrq` disables an interrupt when it wakes one task, and `DestroyHandler` disables
whatever a destroyed task last waited for, without a look at the other tasks that wait.
-/

namespace Rtk.Kernel

open Function
open Rtk.ByteMemory
open Rtk.Lib
open Rtk.Transition

/-- Every task that is blocked until an event awaits enabled interrupts. -/
def ArmedAt (task : ℤ → Task) (enabled : Word) : Prop :=
  ∀ index, InTable index → (task index).state = .eventBlocked →
    (task index).awaitingEventId &&& enabled = (task index).awaitingEventId

/-- No wake-up is lost. -/
def Armed (s : State) : Prop := ArmedAt s.task s.enabled

/-- The task is blocked until an event and awaits an interrupt of the mask. -/
structure Listens (s : State) (mask : Word) (index : ℤ) : Prop where
  inTable : InTable index
  state : (s.task index).state = .eventBlocked
  meets : (s.task index).awaitingEventId &&& mask ≠ 0

/-- What is disabled concerns no other task that is blocked: an interrupt other than the
timer's is awaited by one task at most, which awaits nothing else; and what a destroyed task
last waited for is awaited only by tasks that are destroyed with it. -/
def SparesListeners (s : State) : Action → Prop
  | .interrupt intrCode _ =>
      intrCode < 0 → (1 : Word) <<< (-intrCode).toNat ≠ picTimer01 →
        ∀ index, Listens s ((1 : Word) <<< (-intrCode).toNat) index →
          (s.task index).awaitingEventId = (1 : Word) <<< (-intrCode).toNat ∧
            ∀ other, Listens s ((1 : Word) <<< (-intrCode).toNat) other → other = index
  | .call (.destroy tid) _ =>
      IsNamed s tid → ∀ index, Descends s (slot tid) index →
        0 ≤ (s.task index).awaitingEventId.toInt →
          ∀ other, Listens s (s.task index).awaitingEventId other → Descends s (slot tid) other
  | _ => True

section Armed

variable {s s' : State} {l : Layout} {action : Action}

theorem armedAt_congr {task task' : ℤ → Task} (hstirs : ∀ index, Stirs (task index) (task' index))
    (enabled : Word) : ArmedAt task' enabled ↔ ArmedAt task enabled := by
  simp only [ArmedAt, (hstirs _).waits_iff, (hstirs _).awaiting]

/-- A task that is woken waits no longer. -/
theorem waits_awakened_iff {task : ℤ → Task} {woken : Option ℤ} {index : ℤ} :
    (awakened task woken index).state = .eventBlocked ↔
      (task index).state = .eventBlocked ∧ woken ≠ some index := by
  cases woken with
  | none => simp [awakened]
  | some head =>
      by_cases hindex : index = head
      · simp [awakened, hindex]
      · simp [awakened, update_of_ne hindex, Ne.symm hindex]

theorem awaiting_awakened (task : ℤ → Task) (woken : Option ℤ) (index : ℤ) :
    (awakened task woken index).awaitingEventId = (task index).awaitingEventId := by
  cases woken with
  | none => rfl
  | some head =>
      by_cases hindex : index = head
      · rw [awakened, hindex, update_self]
      · rw [awakened, update_of_ne hindex]

/-- Waking the task that is found and disabling the interrupt leaves nobody behind exactly
when nobody else awaits it. -/
theorem Coherent.armedAt_interrupt_iff (h : Coherent s l) (harmed : Armed s) {intrCode : ℤ}
    {trap : Trap} :
    ArmedAt (awakened s.task (wokenBy s l.lists intrCode)) (maskedBy s.enabled intrCode) ↔
      SparesListeners s (.interrupt intrCode trap) := by
  rw [maskedBy]
  split_ifs with hmasks
  · obtain ⟨hneg, hother⟩ := hmasks
    constructor
    · intro hafter _ _
      have hwoken : ∀ index, Listens s ((1 : Word) <<< (-intrCode).toNat) index →
          wokenBy s l.lists intrCode = some index := by
        intro index hlistens
        by_contra hnot
        have hkept := hafter index hlistens.inTable (waits_awakened_iff.mpr ⟨hlistens.state, hnot⟩)
        rw [awaiting_awakened, and_and_not_eq_iff] at hkept
        exact hlistens.meets hkept.2
      intro index hlistens
      refine ⟨(h.of_wokenBy (hwoken index hlistens)).2.2, ?_⟩
      intro other hlistens'
      have hsame := (hwoken other hlistens').symm.trans (hwoken index hlistens)
      exact Option.some.inj hsame
    · intro hspares index hindex hwaits
      obtain ⟨hblocked, hnot⟩ := waits_awakened_iff.mp hwaits
      rw [awaiting_awakened, and_and_not_eq_iff]
      refine ⟨harmed index hindex hblocked, ?_⟩
      by_contra hmeets
      obtain ⟨hexact, honly⟩ := hspares hneg hother index ⟨hindex, hblocked, hmeets⟩
      -- so somebody is woken, and there is nobody else to wake
      obtain ⟨head, hhead⟩ := h.exists_wokenBy hneg hindex hblocked hexact
      obtain ⟨hheadTable, hheadBlocked, hheadExact⟩ := h.of_wokenBy hhead
      have hlistens : Listens s ((1 : Word) <<< (-intrCode).toNat) head := by
        refine ⟨hheadTable, hheadBlocked, ?_⟩
        rw [hexact] at hmeets
        rwa [hheadExact]
      rw [honly head hlistens] at hhead
      exact hnot hhead
  · constructor
    · intro _ hneg hother
      exact absurd ⟨hneg, hother⟩ hmasks
    · intro _ index hindex hwaits
      rw [awaiting_awakened]
      exact harmed index hindex (waits_awakened_iff.mp hwaits).1

/-- The tasks decide what is spared. -/
theorem sparesListeners_congr (htask : s'.task = s.task) :
    SparesListeners s' action ↔ SparesListeners s action := by
  have hlistens : ∀ mask index, Listens s' mask index ↔ Listens s mask index := by
    intro mask index
    constructor <;> rintro ⟨hindex, hblocked, hmeets⟩
    · exact ⟨hindex, htask ▸ hblocked, htask ▸ hmeets⟩
    · exact ⟨hindex, htask ▸ hblocked, htask ▸ hmeets⟩
  cases action with
  | interrupt intrCode trap => simp only [SparesListeners, hlistens, htask]
  | call call trap =>
      cases call with
      | destroy tid =>
          simp only [SparesListeners, IsNamed, hlistens, descends_congr htask, htask]
      | _ => exact Iff.rfl

/-- Of the others nothing changes. -/
theorem armed_of_others {index : ℤ} (harmed : Armed s)
    (hself : (s'.task index).state = .eventBlocked →
      (s'.task index).awaitingEventId &&& s'.enabled = (s'.task index).awaitingEventId)
    (hothers : ∀ other, other ≠ index → s'.task other = s.task other)
    (henabled : ∀ mask, mask &&& s.enabled = mask → mask &&& s'.enabled = mask) : Armed s' := by
  intro other hother hblocked
  by_cases hindex : other = index
  · subst other
    exact hself hblocked
  · rw [hothers other hindex] at hblocked ⊢
    exact henabled _ (harmed other hother hblocked)

/-- The tasks that are destroyed wait no longer; the others still find their interrupts
enabled exactly when no destroyed task last waited for one of them. -/
theorem armed_of_reaped {order : List ℤ} (harmed : Armed s)
    (htask : s'.task = reapedTasks s order)
    (henabled : ∀ mask, mask &&& s'.enabled = mask ↔
      mask &&& s.enabled = mask ∧ ∀ index ∈ order,
        0 ≤ (s.task index).awaitingEventId.toInt →
          mask &&& (s.task index).awaitingEventId = 0) :
    Armed s' ↔ ∀ index ∈ order, 0 ≤ (s.task index).awaitingEventId.toInt →
      ∀ other, Listens s (s.task index).awaitingEventId other → other ∈ order := by
  constructor
  · intro hafter index hindex hlast other hlistens
    by_contra hnot
    have hkept := hafter other hlistens.inTable
    rw [htask, reapedTasks_of_not_mem hnot] at hkept
    exact hlistens.meets (((henabled _).mp (hkept hlistens.state)).2 index hindex hlast)
  · intro hspares other hother hblocked
    have hnot : other ∉ order := by
      intro hmem
      rw [htask, reapedTasks_of_mem hmem, freed] at hblocked
      split_ifs at hblocked
    rw [htask, reapedTasks_of_not_mem hnot] at hblocked ⊢
    refine (henabled _).mpr ⟨harmed other hother hblocked, ?_⟩
    intro index hindex hlast
    by_contra hmeets
    exact hnot (hspares index hindex hlast other ⟨hother, hblocked, hmeets⟩)

/-- What a system call does keeps all interrupts that are awaited enabled exactly when it
spares those who await them. -/
theorem armed_of_fate {c : ℤ} (harmed : Armed s) {call : Call} {trap : Trap}
    (hfate : Fate s c call s') : Armed s' ↔ SparesListeners s (.call call trap) := by
  cases hfate with
  | stirs hroutine hstirs hrefused =>
      have hafter : Armed s' := by
        rw [Armed, hroutine.enabled, armedAt_congr hstirs]
        exact harmed
      apply iff_of_true hafter
      cases call with
      | destroy tid => exact fun hnamed => absurd hnamed (hrefused tid rfl)
      | _ => trivial
  | exits hself hothers _ henabled =>
      refine iff_of_true (armed_of_others harmed ?_ hothers ?_) trivial
      · rw [hself]
        nofun
      · rw [henabled]
        exact fun _ => id
  | awaits hself hothers _ henabled =>
      refine iff_of_true (armed_of_others harmed ?_ hothers ?_) trivial
      · rw [hself, henabled, BitVec.or_comm]
        exact fun _ => and_or_eq_of_and_eq BitVec.and_self _
      · rw [henabled]
        exact fun _ hmask => and_or_eq_of_and_eq hmask _
  | creates _ _ hself hothers _ henabled =>
      refine iff_of_true (armed_of_others harmed ?_ hothers ?_) trivial
      · rw [hself]
        nofun
      · rw [henabled]
        exact fun _ => id
  | destroys hnamed hmem _ _ htask _ henabled =>
      rw [armed_of_reaped harmed htask henabled]
      simp only [SparesListeners, hmem, hnamed, forall_true_left]

/-- A step keeps all interrupts that are awaited enabled exactly when it spares those who
await them. -/
theorem Coherent.armed_step (h : Coherent s l) (harmed : Armed s) (hsafe : Safe s action)
    (hstep : Step s action s') : Armed s' ↔ SparesListeners s action := by
  cases action with
  | interrupt intrCode trap =>
      obtain ⟨hstirs, _, henabled⟩ := h.stirs_interrupt hstep
      rw [Armed, henabled, armedAt_congr hstirs]
      exact h.armedAt_interrupt_iff harmed
  | call call trap =>
      obtain ⟨middle, hfate, hstirs, _, henabled⟩ := h.exists_fate hsafe hstep
      have hentered : Armed (entered s trap) := harmed
      rw [Armed, henabled, armedAt_congr hstirs]
      exact (armed_of_fate hentered hfate).trans (sparesListeners_congr rfl)

end Armed

/-- No task waits at the first activation. -/
theorem Booted.armed {s : State} (hbooted : Booted s) : Armed s := by
  intro index hindex hblocked
  rcases hbooted.state_cases hindex with hactive | hready | hfree
  · simp [hactive] at hblocked
  · simp [hready] at hblocked
  · simp [hfree] at hblocked

/-- No wake-up is lost in runs in which every step spares the tasks that wait, and one is
once a step does not. -/
theorem armed_of_reachable {s : State} (hreachable :
    Reachable kernel (fun s action => Safe s action ∧ SparesListeners s action) s) :
    Armed s ∧ ∀ {action s'}, Safe s action → Step s action s' →
      (Armed s' ↔ SparesListeners s action) :=
  kept_iff_of_reachable hreachable (fun _ hbooted => hbooted.armed) Coherent.armed_step

/-- The second task waits for an interrupt, and is woken by it. -/
theorem armed_sample :
    ∃ s s', sampleRun [.call (.create 3 0x9000) (sampleTrap 0x103f00),
        .call (.awaitEvent 0x1000) (sampleTrap 0x105f00)] = some s ∧
      Step s (.interrupt (-12) (sampleTrap 0x103f00)) s' ∧
      (s.task 2).state = .eventBlocked ∧ s'.enabled = 0x10 ∧ Armed s ∧ Armed s' := by
  have hobserved : ((sampleRun [.call (.create 3 0x9000) (sampleTrap 0x103f00),
      .call (.awaitEvent 0x1000) (sampleTrap 0x105f00)]).bind fun s =>
        (step s 8 (.interrupt (-12) (sampleTrap 0x103f00))).map fun s' =>
          (decide (∀ index ∈ Finset.Ico (0 : ℤ) maxTasks,
              (s.task index).state = .eventBlocked → index = 2),
            decide ((s.task 2).state = .eventBlocked ∧ (s.task 2).awaitingEventId = 0x1000),
            s'.enabled)) = some (true, true, 0x10) := by
    decide +kernel
  obtain ⟨s, s', hrun, hstep, hvalues⟩ := exists_observed hobserved
  simp only [Prod.mk.injEq, decide_eq_true_eq] at hvalues
  obtain ⟨honly, ⟨hblocked, hawaits⟩, henabled⟩ := hvalues
  have hreachable : Reachable kernel
      (fun s action => Safe s action ∧ SparesListeners s action) s := by
    apply reachable_of_rounds hrun
    simp [Safe, SparesListeners]
  have hspares : SparesListeners s (.interrupt (-12) (sampleTrap 0x103f00)) := by
    have htwo : ∀ index, Listens s 0x1000 index → index = 2 :=
      fun index hlistens => honly index (Finset.mem_Ico.mpr hlistens.inTable) hlistens.state
    intro _ _ index hlistens
    obtain rfl := htwo index hlistens
    exact ⟨hawaits, htwo⟩
  have hsafe : Safe s (.interrupt (-12) (sampleTrap 0x103f00)) := trivial
  obtain ⟨harmed, hlater⟩ := armed_of_reachable hreachable
  exact ⟨s, s', hrun, ⟨8, hstep⟩, hblocked, henabled, harmed,
    (hlater hsafe ⟨8, hstep⟩).mpr hspares⟩

/-- Two tasks wait for an interrupt, which wakes one of them and is disabled then. -/
theorem not_armed : ¬∀ s, Reachable kernel Safe s → Armed s := by
  intro hclaim
  have hobserved : (sampleRun [.call (.create 3 0x9000) (sampleTrap 0x103f00),
      .call (.awaitEvent 0x1000) (sampleTrap 0x105f00),
      .call (.create 3 0x9000) (sampleTrap 0x103f00),
      .call (.awaitEvent 0x1000) (sampleTrap 0x107f00),
      .interrupt (-12) (sampleTrap 0x103f00)]).map (fun s =>
        ((s.task 2).state, (s.task 3).state, (s.task 3).awaitingEventId, s.enabled)) =
      some (.active, .eventBlocked, 0x1000, 0x10) := by
    decide +kernel
  obtain ⟨s, hrun, hvalues⟩ := Option.map_eq_some_iff.mp hobserved
  simp only [Prod.mk.injEq] at hvalues
  obtain ⟨_, hblocked, hawaits, henabled⟩ := hvalues
  have hreachable : Reachable kernel Safe s := by
    apply reachable_of_rounds hrun
    simp [Safe]
  have hlost := hclaim s hreachable 3 (by decide) hblocked
  rw [hawaits, henabled] at hlost
  exact absurd hlost (by decide)

end Rtk.Kernel
