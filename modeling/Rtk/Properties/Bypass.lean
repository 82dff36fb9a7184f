import Rtk.Properties.Order

/-!
# No bypass

A task that is `READY` is dispatched before another one of its priority that becomes
`READY` later.
-/

namespace Rtk.Kernel

open Rtk.Transition

/-- Rounds without `Destroy` from `s` to `s'`, which dispatch the tasks `order`. -/
inductive Dispatches : State → List ℤ → State → Prop
  | refl (s : State) : Dispatches s [] s
  | tail {s s' s'' : State} {order : List ℤ} {action : Action} {next : ℤ}
      (hbefore : Dispatches s order s') (hno : NoDestroy s' action)
      (hstep : Step s' action s'') (hnext : s''.currentTask = some next) :
      Dispatches s (order ++ [next]) s''

/-- The task `waiter` has been ready since before `bound`, and `other` has not. -/
structure Precedes (bound : ℕ) (waiter other : ℤ) (t : Timed) : Prop where
  ready : (t.state.task waiter).state = .ready
  earlier : t.since waiter < bound
  bound_le : bound ≤ 2 * t.round
  later : t.state.currentTask ≠ some other → (t.state.task other).state = .ready →
    bound ≤ t.since other

section Bypass

variable {t t' : Timed} {l : Layout} {action : Action} {bound : ℕ} {waiter other next : ℤ}

/-- A timed round, up to the order of the queues. -/
theorem Undestroyed.exists_timed_round (h : Undestroyed t.state l)
    (hno : TimedNoDestroy t action) (hstep : timedKernel.step t action t') :
    ∃ next, t'.state.currentTask = some next ∧
      t'.scheduled.currentTask = some l.current ∧
      Spares l.current t.state t'.scheduled ∧
      (∀ index, (t'.state.task index).priority = (t'.scheduled.task index).priority) ∧
      ∀ index, index ≠ next →
        t'.state.task index = preempted t'.scheduled l.current index := by
  obtain ⟨fuel, hentry, hactivate, _⟩ := hstep
  obtain ⟨⟨lists, hkernel⟩, _, hspares⟩ := h.exists_entry hno hentry
  obtain ⟨next, links, _, hstate, hnext, _⟩ := hkernel.dispatch hactivate
  refine ⟨next, hnext.current, hkernel.current, hspares, ?_, ?_⟩
  · intro index
    rw [hstate, priority_activatedState]
  · intro index hne
    rw [hstate, activatedState_of_ne _ _ hne]
    rfl

/-- In the queues from which `ScheduleAndActivate` chooses, `other` is behind. -/
theorem Precedes.later_scheduled (h : Precedes bound waiter other t)
    (hundestroyed : Undestroyed t.state l) (hno : TimedNoDestroy t action)
    (hstep : timedKernel.step t action t') (hother : Candidate t'.scheduled other) :
    bound ≤ t'.since other := by
  obtain ⟨next, _, hcurrent, _⟩ := hundestroyed.exists_timed_round hno hstep
  obtain ⟨_, _, _, _, hsince⟩ := hstep
  rw [hsince, restamp]
  have hbound := h.bound_le
  split_ifs with hrunning hwoken
  · omega
  · exact hbound
  · have hne : t'.scheduled.currentTask ≠ some other := fun heq => hrunning ⟨heq, hother⟩
    have hready : (t'.scheduled.task other).state = .ready :=
      hother.2.resolve_right fun hcase => hne hcase.1
    have hwas : (t.state.task other).state = .ready := by
      by_contra hnot
      exact hwoken ⟨hnot, hready⟩
    apply h.later _ hwas
    rw [hundestroyed.dispatched.current, ← hcurrent]
    exact hne

/-- A ready task that is not running keeps its descriptor and its moment. -/
theorem Undestroyed.waits_round (h : Undestroyed t.state l)
    (hready : (t.state.task waiter).state = .ready) (hwaiter : waiter ≠ l.current)
    (hno : TimedNoDestroy t action) (hstep : timedKernel.step t action t') :
    t'.scheduled.task waiter = t.state.task waiter ∧ t'.since waiter = t.since waiter := by
  obtain ⟨next, _, hcurrent, hspares, _⟩ := h.exists_timed_round hno hstep
  obtain ⟨_, _, _, _, hsince⟩ := hstep
  refine ⟨hspares waiter hwaiter hready, ?_⟩
  rw [hsince, restamp, if_neg, if_neg fun hwoken => hwoken.1 hready]
  rintro ⟨hrunning, _⟩
  rw [hcurrent, Option.some.injEq] at hrunning
  exact hwaiter hrunning.symm

/-- A round that does not dispatch the waiting task. -/
theorem Precedes.step (h : Precedes bound waiter other t)
    (hundestroyed : Undestroyed t.state l) (hwaiter : waiter ≠ l.current)
    (htable : InTable other) (hno : TimedNoDestroy t action)
    (hstep : timedKernel.step t action t') (hnext : t'.state.currentTask = some next)
    (hne : waiter ≠ next) :
    Precedes bound waiter other t' ∧
      t'.state.task waiter = t.state.task waiter := by
  have hlater := h.later_scheduled hundestroyed hno hstep
  obtain ⟨hkept, hsince⟩ := hundestroyed.waits_round h.ready hwaiter hno hstep
  obtain ⟨found, hfound, hcurrent, _, _, htask⟩ :=
    hundestroyed.exists_timed_round hno hstep
  rw [hnext, Option.some.injEq] at hfound
  subst found
  have hsame : t'.state.task waiter = t.state.task waiter := by
    rw [htask waiter hne, preempted_of_ne hwaiter, hkept]
  obtain ⟨_, _, _, hround, _⟩ := hstep
  have hbound := h.bound_le
  refine ⟨⟨hsame ▸ h.ready, hsince ▸ h.earlier, by omega, ?_⟩, hsame⟩
  intro hrunning hready
  apply hlater
  refine ⟨htable, ?_⟩
  have hnot : other ≠ next := by
    rintro rfl
    exact hrunning hnext
  rw [htask other hnot] at hready
  rw [hcurrent, Option.some.injEq]
  by_cases hother : other = l.current
  · subst other
    rw [preempted_self] at hready
    by_cases hactive : (t'.scheduled.task l.current).state = .active
    · exact .inr ⟨rfl, hactive⟩
    · simp only [hactive, if_false] at hready
      exact .inl hready
  · rw [preempted_of_ne hother] at hready
    exact .inl hready

/-- When `other` is dispatched while `waiter` still waits, it is more urgent. -/
theorem Precedes.more_urgent (h : Precedes bound waiter other t)
    (hundestroyed : Undestroyed t.state l) (hwaiter : waiter ≠ l.current)
    (hindex : InTable waiter) (hne : waiter ≠ other) (hno : TimedNoDestroy t action)
    (hstep : timedKernel.step t action t') (hnext : t'.state.currentTask = some other)
    (hfirst : DispatchesFirst t') :
    (t'.state.task other).priority.value < (t'.state.task waiter).priority.value ∧
      (t'.state.task waiter).priority = (t.state.task waiter).priority := by
  obtain ⟨hkept, hsince⟩ := hundestroyed.waits_round h.ready hwaiter hno hstep
  obtain ⟨_, _, _, _, hpriority, _⟩ := hundestroyed.exists_timed_round hno hstep
  obtain ⟨next, hcurrent, hcomes⟩ := hfirst
  rw [hnext, Option.some.injEq] at hcurrent
  subst next
  have hcandidate : Candidate t'.scheduled waiter := by
    refine ⟨hindex, .inl ?_⟩
    rw [hkept]
    exact h.ready
  rw [hpriority, hpriority, hkept]
  refine ⟨?_, rfl⟩
  rcases hcomes.before hcandidate hne with hlt | ⟨_, hlt⟩
  · rwa [hkept] at hlt
  · have hlater := h.later_scheduled hundestroyed hno hstep hcomes.candidate
    have hearlier := h.earlier
    omega

/-- Rounds that do not dispatch the waiting task keep it in front. -/
theorem exists_precedes {s s' : State} {order : List ℤ} (hother : InTable other)
    (hdispatches : Dispatches s order s') (hwaiter : waiter ∉ order)
    (hstart : ∃ t, Reachable timedKernel TimedNoDestroy t ∧ t.state = s ∧
      t.state.currentTask ≠ some waiter ∧ Precedes bound waiter other t) :
    ∃ t, Reachable timedKernel TimedNoDestroy t ∧ t.state = s' ∧
      t.state.currentTask ≠ some waiter ∧ Precedes bound waiter other t ∧
      s'.task waiter = s.task waiter := by
  induction hdispatches with
  | refl =>
      obtain ⟨t, hreachable, hstate, hrunning, hprecedes⟩ := hstart
      exact ⟨t, hreachable, hstate, hrunning, hprecedes, rfl⟩
  | @tail _ _ _ action next hbefore hno hstep hnext ih =>
      rw [List.mem_append, List.mem_singleton, not_or] at hwaiter
      obtain ⟨hbeforeOrder, hne⟩ := hwaiter
      obtain ⟨t, hreachable, rfl, hrunning, hprecedes, htask⟩ := ih hbeforeOrder
      obtain ⟨t', htimed, rfl⟩ := exists_timed_step hstep rfl
      obtain ⟨l, hundestroyed, _⟩ := stamped_of_reachable hreachable
      have hwaiterCurrent : waiter ≠ l.current := by
        rintro rfl
        exact hrunning hundestroyed.dispatched.current
      obtain ⟨hprecedes', hsame⟩ :=
        hprecedes.step hundestroyed hwaiterCurrent hother hno htimed hnext hne
      refine ⟨t', hreachable.step hno htimed, rfl, ?_, hprecedes', hsame.trans htask⟩
      rw [hnext, ne_eq, Option.some.injEq]
      exact Ne.symm hne

/-- Without `Destroy`, a task that waits `READY` when another one is dispatched is
dispatched itself before the other one is dispatched again, unless the other one is then
more urgent. -/
theorem mem_of_dispatches {s s' : State} {order : List ℤ} {first waiter : ℤ}
    (hreachable : Reachable kernel NoDestroy s) (hfirst : s.currentTask = some first)
    (hindex : InTable waiter) (hwaits : (s.task waiter).state = .ready)
    (hdispatches : Dispatches s (order ++ [first]) s')
    (hurgent : (s.task waiter).priority.value ≤ (s'.task first).priority.value ∨
      (s'.task waiter).priority.value ≤ (s'.task first).priority.value) :
    waiter ∈ order := by
  by_contra hnot
  obtain ⟨t, htimed, rfl⟩ := exists_timed hreachable
  obtain ⟨l, hundestroyed, hordered, _⟩ := stamped_of_reachable htimed
  obtain rfl : l.current = first := by
    rw [hundestroyed.dispatched.current, Option.some.injEq] at hfirst
    exact hfirst
  have hne : waiter ≠ l.current := by
    rintro rfl
    rw [hundestroyed.dispatched.running] at hwaits
    simp at hwaits
  have hqueued := hundestroyed.dispatched.toInKernel.mem_ready_iff.mpr
    ⟨hindex, hne, hwaits, rfl⟩
  have hprecedes : Precedes (2 * t.round) waiter l.current t :=
    ⟨hwaits, hordered.past hqueued, Nat.le_refl _, fun hcurrent => absurd hfirst hcurrent⟩
  have hrunning : t.state.currentTask ≠ some waiter := by
    rw [hfirst, ne_eq, Option.some.injEq]
    exact Ne.symm hne
  generalize hall : order ++ [l.current] = all at hdispatches
  cases hdispatches with
  | refl => simp at hall
  | @tail middle _ order' action next hbefore hno hstep hnext =>
      obtain ⟨rfl, hlast⟩ := List.append_inj' hall rfl
      obtain rfl : l.current = next := List.head_eq_of_cons_eq hlast
      obtain ⟨t', htimed', rfl, hrunning', hprecedes', htask⟩ :=
        exists_precedes hundestroyed.dispatched.inTable hbefore hnot
          ⟨t, htimed, rfl, hrunning, hprecedes⟩
      obtain ⟨t'', hround, rfl⟩ := exists_timed_step hstep rfl
      obtain ⟨l', hundestroyed', _⟩ := stamped_of_reachable htimed'
      have hwaiterCurrent : waiter ≠ l'.current := by
        rintro rfl
        exact hrunning' hundestroyed'.dispatched.current
      obtain ⟨hlt, hpriority⟩ := hprecedes'.more_urgent hundestroyed' hwaiterCurrent hindex hne
        hno hround hnext (dispatchesFirst_of_reachable (htimed'.step hno hround))
      rw [htask] at hpriority
      rw [← hpriority] at hurgent
      omega

/-- The theorem at two tasks of one priority, preempted in turn. -/
theorem mem_of_dispatches_sample :
    ∃ s s', sampleRun [.call (.create 3 0x9000) (sampleTrap 0x103f00),
        .interrupt 0 (sampleTrap 0x105f00)] = some s ∧
      Dispatches s ([2] ++ [1]) s' ∧ (2 : ℤ) ∈ [(2 : ℤ)] := by
  have hruns : (sampleRun [.call (.create 3 0x9000) (sampleTrap 0x103f00),
        .interrupt 0 (sampleTrap 0x105f00)]).bind (fun s =>
      (step s 8 (.interrupt 0 (sampleTrap 0x103f00))).bind fun middle =>
        (step middle 8 (.interrupt 0 (sampleTrap 0x105f00))).map fun s' =>
          ([s.currentTask, middle.currentTask, s'.currentTask], (s.task 2).state,
            (s.task 2).priority, (s'.task 1).priority)) =
      some ([some 1, some 2, some 1], .ready, .low, .low) := by decide +kernel
  simp only [Option.bind_eq_some_iff, Option.map_eq_some_iff, Prod.mk.injEq,
    List.cons.injEq] at hruns
  obtain ⟨s, hrun, middle, hfirst, s', hsecond, ⟨hone, htwo, hlast, _⟩, hready, hpriority,
    hlow⟩ := hruns
  have hreachable : Reachable kernel NoDestroy s := by
    apply reachable_of_rounds hrun
    simp [NoDestroy]
  have hinterrupt : ∀ s trap, NoDestroy s (.interrupt 0 trap) := fun _ _ => trivial
  have hdispatches : Dispatches s ([2] ++ [1]) s' :=
    .tail (.tail (.refl s) (hinterrupt _ _) ⟨8, hfirst⟩ htwo) (hinterrupt _ _) ⟨8, hsecond⟩
      hlast
  refine ⟨s, s', hrun, hdispatches, ?_⟩
  apply mem_of_dispatches hreachable hone (by decide) hready hdispatches
  rw [hpriority, hlow]
  exact .inl (Int.le_refl _)

end Bypass

end Rtk.Kernel
