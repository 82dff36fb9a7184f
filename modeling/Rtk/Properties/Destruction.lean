import Rtk.Invariant.Run

/-!
# `Destroy`

In safe runs a destroyed tid stays dead, and `DestroyHandler` refuses a tid that
names no task.
-/

namespace Rtk.Kernel

open Function
open Rtk.ByteMemory
open Rtk.Lib
open Rtk.Lib.QueueHeap
open Rtk.Transition

/-! ## A destroyed tid stays dead -/

/-- No task has the tid, and none will: its slot is not in use, or has been used
again. -/
def Gone (s : State) (tid : ℤ) : Prop :=
  (s.task (slot tid)).tid = tid ∧ ¬Allocated s (slot tid) ∨
    tid < (s.task (slot tid)).tid

theorem Gone.evolves {s s' : State} {tid : ℤ} (h : Gone s tid)
    (hevolves : Evolves s s') : Gone s' tid := by
  rcases hevolves (slot tid) with ⟨htid, halloc⟩ | hlt
  · rcases h with ⟨hown, hnot⟩ | hlater
    · exact .inl ⟨htid.trans hown, fun hlive => hnot (halloc hlive)⟩
    · exact .inr (htid ▸ hlater)
  · rcases h with ⟨hown, _⟩ | hlater
    · exact .inr (by omega)
    · exact .inr (by omega)

theorem Gone.not_alive {s : State} {tid : ℤ} (h : Gone s tid) :
    isTaskAlive s tid = false := by
  rw [← Bool.not_eq_true]
  intro halive
  have htid := tid_of_alive halive
  rcases h with ⟨_, hnot⟩ | hlater
  · exact hnot (allocated_of_alive halive)
  · omega

theorem Gone.not_current {s : State} {l : Layout} {tid : ℤ} (h : Gone s tid)
    (hcoherent : Coherent s l) : getCurrentTid s ≠ tid := by
  rw [hcoherent.dispatched.getCurrentTid_eq]
  intro heq
  have hslot : slot tid = l.current := by rw [← heq, hcoherent.dispatched.slot_tid]
  rcases h with ⟨_, hnot⟩ | hlater
  · rw [hslot] at hnot
    exact hnot hcoherent.dispatched.allocated
  · rw [hslot, heq] at hlater
    exact absurd hlater (Int.lt_irrefl tid)

/-- A task that `DestroyHandler` has destroyed is gone. -/
theorem Coherent.gone_of_destroyHandler {s s' : State} {l : Layout}
    (h : Coherent s l) {tid : ℤ} (hlive : isValidTid tid → NotDestroyed s tid)
    {fuel : ℕ}
    (hdestroy : destroyHandler s tid fuel = some (returnStatusOk, s')) :
    Gone s' tid := by
  by_cases hnamed : isValidTid tid ∧ (s.task (slot tid)).tid = tid
  · obtain ⟨hvalid, htid⟩ := hnamed
    have hslot := inTable_slot (isValidTid_iff.mp hvalid).1
    obtain ⟨enough, s'', order, hsome, hreaped, _⟩ :=
      exists_destroyHandler h.dispatched.toInKernel h.family hslot (hlive hvalid htid)
    rw [htid] at hsome
    obtain ⟨_, rfl⟩ := Prod.mk.inj (destroyHandler_unique hdestroy hsome)
    left
    rw [allocated_reaped_iff hreaped.task, hreaped.task, tid_reapedTasks,
      (Silent.useDescriptor s _).task]
    exact ⟨htid, fun halloc => halloc.2 (by simp)⟩
  · have hrefused : isValidTid tid → (s.task (slot tid)).tid ≠ tid :=
      fun hvalid htid => hnamed ⟨hvalid, htid⟩
    obtain ⟨error, herror, hsame⟩ := @destroyHandler_refused s tid 0 hrefused
    have hstatus := (Prod.mk.inj (destroyHandler_unique hdestroy hsame)).1
    exact absurd hstatus (Int.ne_of_gt herror)

/-- The round of a `Destroy` that succeeds. -/
theorem Coherent.gone_of_step {s s' : State} {l : Layout} (h : Coherent s l)
    {tid : ℤ} {trap : Trap} (hsafe : Safe s (.call (.destroy tid) trap)) {fuel : ℕ}
    {destroyed : State} (hdestroy : destroyHandler (entered s trap) tid fuel =
      some (returnStatusOk, destroyed))
    (hstep : Step s (.call (.destroy tid) trap) s') : Gone s' tid := by
  obtain ⟨fuel', result, middle, queues, hhandle, heffect, hsaved, hactivate⟩ :=
    h.round_call hsafe hstep
  have hentered := h.enter trap
  have hgone := hentered.gone_of_destroyHandler hsafe hdestroy
  obtain ⟨_, rfl⟩ := Prod.mk.inj (destroyHandler_unique hdestroy hhandle)
  obtain ⟨hquiet, _⟩ := heffect.finish hentered hsaved hactivate
  exact hgone.evolves hquiet.keeps.evolves

/-- In a safe run, once `Destroy( tid )` has returned `RETURN_STATUS_OK` the task
is never alive again and never runs. -/
theorem dead_of_destroyed {s s' s'' : State} {tid : ℤ} {trap : Trap}
    (hreachable : Reachable kernel Safe s)
    (hsafe : Safe s (.call (.destroy tid) trap)) {fuel : ℕ} {destroyed : State}
    (hdestroy : destroyHandler (entered s trap) tid fuel =
      some (returnStatusOk, destroyed))
    (hstep : Step s (.call (.destroy tid) trap) s')
    (hpath : Path kernel Safe s' s'') :
    isTaskAlive s'' tid = false ∧ getCurrentTid s'' ≠ tid := by
  have hlater : (∃ l, Coherent s'' l) ∧ Gone s'' tid := by
    apply hpath.preserves
    · rintro s action s' ⟨⟨l, h⟩, hgone⟩ hallowed hround
      obtain ⟨hcoherent, hevolves⟩ := h.step hallowed hround
      exact ⟨hcoherent, hgone.evolves hevolves⟩
    · obtain ⟨l, h⟩ := coherent_of_reachable hreachable
      exact ⟨(h.step hsafe hstep).1, h.gone_of_step hsafe hdestroy hstep⟩
  obtain ⟨⟨l, h⟩, hgone⟩ := hlater
  exact ⟨hgone.not_alive, hgone.not_current h⟩

/-- A task that has yielded is destroyed by its parent, which runs on. -/
theorem dead_of_destroyed_sample :
    ∃ s s' s'', sampleRun [.call (.create 3 0x9000) (sampleTrap 0x103f00),
        .call .pass (sampleTrap 0x105f00)] = some s ∧
      Step s (.call (.destroy 2) (sampleTrap 0x103f00)) s' ∧
      Step s' (.call .pass (sampleTrap 0x103f00)) s'' ∧
      isTaskAlive s'' 2 = false ∧ getCurrentTid s'' ≠ 2 := by
  have hobserved : ((sampleRun [.call (.create 3 0x9000) (sampleTrap 0x103f00),
      .call .pass (sampleTrap 0x105f00)]).bind fun s =>
        (destroyHandler (entered s (sampleTrap 0x103f00)) 2 2).bind fun outcome =>
          (step s 2 (.call (.destroy 2) (sampleTrap 0x103f00))).bind fun s' =>
            (step s' 8 (.call .pass (sampleTrap 0x103f00))).map fun _ =>
              (outcome.1, decide (Allocated s (slot 2)))) = some (0, true) := by
    decide +kernel
  obtain ⟨s, hrun, hobserved⟩ := Option.bind_eq_some_iff.mp hobserved
  obtain ⟨⟨result, destroyed⟩, hdestroy, hobserved⟩ :=
    Option.bind_eq_some_iff.mp hobserved
  obtain ⟨s', s'', hstep, hlast, hvalues⟩ := exists_observed hobserved
  simp only [Prod.mk.injEq, decide_eq_true_eq] at hvalues
  obtain ⟨rfl, halloc⟩ := hvalues
  have hreachable : Reachable kernel Safe s := by
    apply reachable_of_rounds hrun
    simp [Safe]
  have hpath : Path kernel Safe s' s'' :=
    .tail (.refl s') (by simp [Safe]) ⟨8, hlast⟩
  exact ⟨s, s', s'', hrun, ⟨2, hstep⟩, ⟨8, hlast⟩,
    dead_of_destroyed hreachable (fun _ _ => halloc) hdestroy ⟨2, hstep⟩ hpath⟩

/-- The second task sends a message and is destroyed; the receiver then takes the
message and answers it. -/
def sampleRevival : List Action :=
  [.call (.receive 0x400 0x500 9) (sampleTrap 0x103f00),
    .call (.reply 2 0x600 4) (sampleTrap 0x103f00)]

/-- `CompleteReceive` revives a destroyed sender, which then runs again. -/
theorem not_dead_of_destroyed :
    ¬∀ (s s' s'' : State) (tid : ℤ) (trap : Trap) (fuel : ℕ) (destroyed : State),
      Reachable kernel (fun _ _ => True) s →
      destroyHandler (entered s trap) tid fuel = some (returnStatusOk, destroyed) →
      Step s (.call (.destroy tid) trap) s' →
      Path kernel (fun _ _ => True) s' s'' →
      isTaskAlive s'' tid = false ∧ getCurrentTid s'' ≠ tid := by
  intro hclaim
  have hobserved : ((sampleRun [.call (.create 3 0x9000) (sampleTrap 0x103f00),
      .call (.send 1 0x200 5 0x300 6) (sampleTrap 0x105f00)]).bind fun s =>
        (destroyHandler (entered s (sampleTrap 0x103f00)) 2 2).bind fun outcome =>
          (step s 2 (.call (.destroy 2) (sampleTrap 0x103f00))).bind fun s' =>
            (rounds 8 s' sampleRevival).map fun s'' =>
              (outcome.1, isTaskAlive s'' 2, getCurrentTid s'')) =
      some (0, true, 2) := by
    decide +kernel
  obtain ⟨s, hrun, hobserved⟩ := Option.bind_eq_some_iff.mp hobserved
  obtain ⟨⟨result, destroyed⟩, hdestroy, hobserved⟩ :=
    Option.bind_eq_some_iff.mp hobserved
  obtain ⟨s', s'', hstep, hlast, hvalues⟩ := exists_observed hobserved
  simp only [Prod.mk.injEq] at hvalues
  obtain ⟨rfl, halive, hcurrent⟩ := hvalues
  have hreachable : Reachable kernel (fun _ _ => True) s :=
    reachable_of_rounds hrun (fun _ _ _ => trivial)
  have hpath : Path kernel (fun _ _ => True) s' s'' :=
    path_of_rounds hlast (fun _ _ _ => trivial)
  obtain ⟨_, hnot⟩ := hclaim s s' s'' 2 _ 2 destroyed hreachable hdestroy ⟨2, hstep⟩ hpath
  exact hnot hcurrent

/-! ## What `DestroyHandler` refuses -/

/-- `tid` names a task that was created and not yet destroyed. -/
def Names (s : State) (tid : ℤ) : Prop :=
  ∃ index, InTable index ∧ Allocated s index ∧ (s.task index).tid = tid

/-- `DestroyHandler` ends, uses no index outside its arrays, and refuses a tid that
names no task without changing anything. -/
def Refuses (s : State) (tid : ℤ) : Prop :=
  ∃ fuel result s', destroyHandler s tid fuel = some (result, s') ∧
    s'.faults = s.faults ∧ (¬Names s tid → result < 0 ∧ s' = s)

/-- `tid` is in no descriptor, or in that of a task in use that has a parent. -/
def HasParent (s : State) (tid : ℤ) : Prop :=
  isValidTid tid → (s.task (slot tid)).tid = tid →
    Allocated s (slot tid) ∧ (s.task (slot tid)).parentTid ≠ -1

section Refuses

variable {s : State} {l : Layout} {tid : ℤ}

theorem Coherent.allocated_of_names (h : Coherent s l) (hnames : Names s tid) :
    Allocated s (slot tid) := by
  obtain ⟨index, hindex, halloc, rfl⟩ := hnames
  rwa [h.dispatched.named.slot_tid hindex halloc]

/-- The parent of the first two tasks is looked up at index -1. -/
theorem Coherent.faults_of_parentless (h : Coherent s l) (hvalid : isValidTid tid)
    (htid : (s.task (slot tid)).tid = tid) (halloc : Allocated s (slot tid))
    (hparent : (s.task (slot tid)).parentTid = -1) {fuel : ℕ} {result : ℤ} {s' : State}
    (hdestroy : destroyHandler s tid fuel = some (result, s')) :
    s'.faults = s.faults ++ [.descriptorIndex (-1)] := by
  have hslot := inTable_slot (isValidTid_iff.mp hvalid).1
  obtain ⟨enough, s'', order, hsome, hreaped, _⟩ :=
    exists_destroyHandler h.dispatched.toInKernel h.family hslot halloc
  rw [htid] at hsome
  obtain ⟨_, rfl⟩ := Prod.mk.inj (destroyHandler_unique hdestroy hsome)
  have hindex : slot (-1) = -1 := by decide
  rw [hreaped.untouched.faults, hparent, hindex, State.useDescriptor, if_neg (by decide)]

theorem Coherent.hasParent_of_refuses (h : Coherent s l) (hrefuses : Refuses s tid) :
    HasParent s tid := by
  intro hvalid htid
  obtain ⟨fuel, result, s', hdestroy, hfaults, herror⟩ := hrefuses
  have hstatus := destroyHandler_accepted hvalid htid hdestroy
  have halloc : Allocated s (slot tid) := by
    by_contra hnot
    have hnegative := (herror fun hnames => hnot (h.allocated_of_names hnames)).1
    rw [hstatus] at hnegative
    exact absurd hnegative (by decide)
  refine ⟨halloc, ?_⟩
  intro hparent
  rw [h.faults_of_parentless hvalid htid halloc hparent hdestroy] at hfaults
  simp at hfaults

theorem Coherent.refuses_of_hasParent (h : Coherent s l) (hhas : HasParent s tid) :
    Refuses s tid := by
  by_cases hnamed : isValidTid tid ∧ (s.task (slot tid)).tid = tid
  · obtain ⟨hvalid, htid⟩ := hnamed
    obtain ⟨halloc, hparent⟩ := hhas hvalid htid
    have hslot := inTable_slot (isValidTid_iff.mp hvalid).1
    have hup := inTable_slot (h.family.parent_nonneg hslot halloc hparent)
    obtain ⟨fuel, s', order, hdestroy, hreaped, _⟩ :=
      exists_destroyHandler h.dispatched.toInKernel h.family hslot halloc
    rw [htid] at hdestroy
    refine ⟨fuel, _, s', hdestroy, ?_, ?_⟩
    · rw [hreaped.untouched.faults, useDescriptor_of_inTable hup]
    · exact fun hnot => absurd ⟨slot tid, hslot, halloc, htid⟩ hnot
  · have hrefused : isValidTid tid → (s.task (slot tid)).tid ≠ tid :=
      fun hvalid htid => hnamed ⟨hvalid, htid⟩
    obtain ⟨error, herror, hdestroy⟩ := @destroyHandler_refused s tid 0 hrefused
    exact ⟨1, error, s, hdestroy, rfl, fun _ => ⟨herror, rfl⟩⟩

end Refuses

/-- In the states of safe runs, `DestroyHandler` behaves as documented exactly for the
tids that are in no descriptor or name a task with a parent. -/
theorem refuses_iff_of_reachable {s : State} (hreachable : Reachable kernel Safe s)
    (tid : ℤ) : Refuses s tid ↔ HasParent s tid := by
  obtain ⟨l, h⟩ := coherent_of_reachable hreachable
  exact ⟨h.hasParent_of_refuses, h.refuses_of_hasParent⟩

/-- The second task has a parent.  The next task of its slot has not been created yet, so
that its tid is refused. -/
theorem refuses_sample :
    ∃ s, sampleRun [.call (.create 3 0x9000) (sampleTrap 0x103f00)] = some s ∧
      Refuses s 2 ∧ Refuses s (2 + maxTasks) ∧
      ∃ fuel result, destroyHandler s (2 + maxTasks) fuel = some (result, s) ∧ result < 0 := by
  have hobserved :
      ((sampleRun [.call (.create 3 0x9000) (sampleTrap 0x103f00)]).map fun s =>
        decide (Allocated s (slot 2) ∧ (s.task (slot 2)).parentTid ≠ -1 ∧
          (s.task 2).tid = 2)) = some true := by
    decide +kernel
  obtain ⟨s, hrun, hvalues⟩ := Option.map_eq_some_iff.mp hobserved
  rw [decide_eq_true_eq] at hvalues
  obtain ⟨halloc, hparent, htid⟩ := hvalues
  have hreachable : Reachable kernel Safe s := by
    apply reachable_of_rounds hrun
    simp [Safe]
  have hslot : slot (2 + maxTasks) = 2 := by decide
  have hother : (s.task (slot (2 + maxTasks))).tid ≠ 2 + maxTasks := by
    rw [hslot, htid]
    decide
  have hrefuses : Refuses s (2 + maxTasks) :=
    (refuses_iff_of_reachable hreachable _).mpr fun _ hsame => absurd hsame hother
  have hnames : ¬Names s (2 + maxTasks) := by
    rintro ⟨index, hindex, hlive, hsame⟩
    obtain ⟨l, h⟩ := coherent_of_reachable hreachable
    have hnamed := h.dispatched.named.slot_tid hindex hlive
    rw [hsame] at hnamed
    rw [hnamed, hsame] at hother
    exact hother rfl
  obtain ⟨fuel, result, s', hdestroy, _, herror⟩ := id hrefuses
  obtain ⟨hnegative, rfl⟩ := herror hnames
  exact ⟨s', hrun, (refuses_iff_of_reachable hreachable 2).mpr fun _ _ => ⟨halloc, hparent⟩,
    hrefuses, fuel, result, hdestroy, hnegative⟩

/-- A second `Destroy` of the same task is not refused. -/
theorem not_refuses_of_reachable :
    ¬∀ (s : State) (tid : ℤ), Reachable kernel (fun _ _ => True) s → Refuses s tid := by
  intro hclaim
  have hobserved : ((sampleRun [.call (.create 3 0x9000) (sampleTrap 0x103f00),
      .call .pass (sampleTrap 0x105f00)]).bind fun s =>
        (step s 2 (.call (.destroy 2) (sampleTrap 0x103f00))).map fun s' =>
          (decide (Allocated s (slot 2)), (s'.task (slot 2)).tid,
            decide (Allocated s' (slot 2)))) = some (true, 2, false) := by
    decide +kernel
  obtain ⟨s, s', hrun, hstep, hvalues⟩ := exists_observed hobserved
  simp only [Prod.mk.injEq, decide_eq_true_eq, decide_eq_false_iff_not] at hvalues
  obtain ⟨halloc, htid, hnot⟩ := hvalues
  have hbefore : Reachable kernel Safe s := by
    apply reachable_of_rounds hrun
    simp [Safe]
  have hallowed : Safe s (.call (.destroy 2) (sampleTrap 0x103f00)) := fun _ _ => halloc
  have hsafe : Reachable kernel Safe s' := hbefore.step hallowed ⟨2, hstep⟩
  have hreachable : Reachable kernel (fun _ _ => True) s' :=
    hsafe.mono (fun _ _ => trivial) (fun _ _ _ => trivial) (fun _ _ => trivial)
  obtain ⟨l, h⟩ := coherent_of_reachable hsafe
  exact hnot (h.hasParent_of_refuses (hclaim s' 2 hreachable) (by decide) htid).1

end Rtk.Kernel
