import Rtk.Invariant.Waking
import Rtk.Properties.Bypass

/-!
# Who runs first after a reply

`ReplyProxy` links the sender into its ready queue, and `ScheduleAndActivate` the replier
behind it.  Of two tasks that wait in the ready queues, the more urgent one is dispatched
first, and among equals the one that was linked first, whatever happens in between.
-/

namespace Rtk.Kernel

open Function
open Rtk.ByteMemory
open Rtk.Transition

/-- No dispatch of `other` comes before the first one of `first`. -/
def DispatchedFirst (first other : ℤ) (order : List ℤ) : Prop :=
  ∀ before after, order = before ++ other :: after → first ∈ before

/-- The task `first` is more urgent than `other`, or as urgent and ready since earlier. -/
def Outranks (task : ℤ → Task) (since : ℤ → ℕ) (first other : ℤ) : Prop :=
  (task first).priority.value < (task other).priority.value ∨
    (task first).priority = (task other).priority ∧ since first < since other

/-- Two tasks wait in the ready queues, `first` before `other`. -/
structure WaitsAhead (t : Timed) (first other : ℤ) : Prop where
  ready : (t.state.task first).state = .ready
  readyOther : (t.state.task other).state = .ready
  outranks : Outranks t.state.task t.since first other

section Rounds

variable {t t' : Timed} {l : Layout} {action : Action} {first other next : ℤ}

/-- The task that comes first outranks every other one that can run. -/
theorem ComesFirst.ne {s : State} {since : ℤ → ℕ} (h : ComesFirst s since next)
    (hcandidate : Candidate s first) (hne : next ≠ first)
    (houtranks : Outranks s.task since first other) : next ≠ other := by
  rintro rfl
  rcases h.before hcandidate (Ne.symm hne) with hlt | ⟨heq, hlt⟩ <;>
    rcases houtranks with hfirst | ⟨hsame, hfirst⟩
  · exact absurd (Int.lt_trans hlt hfirst) (Int.lt_irrefl _)
  · rw [hsame] at hlt
    exact absurd hlt (Int.lt_irrefl _)
  · rw [heq] at hfirst
    exact absurd hfirst (Int.lt_irrefl _)
  · exact absurd (Nat.lt_trans hlt hfirst) (Nat.lt_irrefl _)

/-- A round that dispatches neither task leaves them waiting; it does not dispatch the
second one. -/
theorem WaitsAhead.step (h : WaitsAhead t first other) (hundestroyed : Undestroyed t.state l)
    (hfirst : InTable first) (hno : TimedNoDestroy t action)
    (hstep : timedKernel.step t action t') (hdispatches : DispatchesFirst t')
    (hnext : t'.state.currentTask = some next) (hne : next ≠ first) :
    next ≠ other ∧ WaitsAhead t' first other := by
  have hwaiting : ∀ {index}, (t.state.task index).state = .ready → index ≠ l.current := by
    rintro index hready rfl
    rw [hundestroyed.dispatched.running] at hready
    exact absurd hready (by decide)
  obtain ⟨hkept, hsince⟩ :=
    hundestroyed.waits_round h.ready (hwaiting h.ready) hno hstep
  obtain ⟨hkept', hsince'⟩ :=
    hundestroyed.waits_round h.readyOther (hwaiting h.readyOther) hno hstep
  have houtranks : Outranks t'.scheduled.task t'.since first other := by
    rw [Outranks, hkept, hkept', hsince, hsince']
    exact h.outranks
  obtain ⟨same, hsame, hcomes⟩ := hdispatches
  obtain rfl := Option.some.inj (hnext.symm.trans hsame)
  have hother : next ≠ other := by
    apply hcomes.ne _ hne houtranks
    exact ⟨hfirst, .inl (by rw [hkept]; exact h.ready)⟩
  obtain ⟨found, hfound, _, _, _, htask⟩ := hundestroyed.exists_timed_round hno hstep
  obtain rfl := Option.some.inj (hnext.symm.trans hfound)
  have hstays : ∀ {index}, (t.state.task index).state = .ready → index ≠ next →
      t'.scheduled.task index = t.state.task index →
        t'.state.task index = t.state.task index := by
    intro index hready hindex hscheduled
    rw [htask index hindex, preempted_of_ne (hwaiting hready), hscheduled]
  have hleft := hstays h.ready (Ne.symm hne) hkept
  have hright := hstays h.readyOther (Ne.symm hother) hkept'
  refine ⟨hother, hleft ▸ h.ready, hright ▸ h.readyOther, ?_⟩
  rw [Outranks, hleft, hright, hsince, hsince']
  exact h.outranks

/-- The rounds up to the dispatch of the first task do not dispatch the second one. -/
theorem WaitsAhead.notMem {s s' : State} {order : List ℤ} (hindex : InTable first)
    (hdispatches : Dispatches s order s') (hnot : first ∉ order)
    (hstart : ∃ t, Reachable timedKernel TimedNoDestroy t ∧ t.state = s ∧
      WaitsAhead t first other) :
    other ∉ order ∧ ∃ t, Reachable timedKernel TimedNoDestroy t ∧ t.state = s' ∧
      WaitsAhead t first other := by
  induction hdispatches with
  | refl => exact ⟨List.not_mem_nil, hstart⟩
  | @tail _ _ _ action next hbefore hno hstep hnext ih =>
      rw [List.mem_append, List.mem_singleton, not_or] at hnot
      obtain ⟨hothers, t, hreachable, rfl, hwaits⟩ := ih hnot.1
      obtain ⟨t', htimed, rfl⟩ := exists_timed_step hstep rfl
      have hreachable' := hreachable.step hno htimed
      obtain ⟨l, hundestroyed, _⟩ := stamped_of_reachable hreachable
      obtain ⟨_, _, _, hfirst⟩ := stamped_of_reachable hreachable'
      obtain ⟨hother, hwaits'⟩ := hwaits.step hundestroyed hindex hno htimed hfirst hnext
        (Ne.symm hnot.2)
      refine ⟨?_, t', hreachable', rfl, hwaits'⟩
      rw [List.mem_append, List.mem_singleton, not_or]
      exact ⟨hothers, Ne.symm hother⟩

/-- The first rounds of a run. -/
theorem Dispatches.exists_first {s s' : State} {order : List ℤ} (h : Dispatches s order s') :
    ∀ {before after : List ℤ}, order = before ++ after → ∃ middle, Dispatches s before middle := by
  induction h with
  | refl =>
      intro before after heq
      rw [(List.append_eq_nil_iff.mp heq.symm).1]
      exact ⟨_, .refl _⟩
  | @tail _ _ order _ next hbefore hno hstep hnext ih =>
      intro before after heq
      obtain rfl | ⟨front, last, rfl⟩ := List.eq_nil_or_concat after
      · rw [List.append_nil] at heq
        rw [← heq]
        exact ⟨_, .tail hbefore hno hstep hnext⟩
      · rw [List.concat_eq_append, ← List.append_assoc] at heq
        exact ih (List.append_inj' heq rfl).1

theorem WaitsAhead.dispatchedFirst {s : State} {order : List ℤ}
    (h : WaitsAhead t first other) (hreachable : Reachable timedKernel TimedNoDestroy t)
    (hindex : InTable first) (hne : first ≠ other) (hdispatches : Dispatches t.state order s) :
    DispatchedFirst first other order := by
  intro before after heq
  by_contra hnot
  rw [List.append_cons] at heq
  obtain ⟨middle, hprefix⟩ := hdispatches.exists_first heq
  have hwhole : first ∉ before ++ [other] := by
    rw [List.mem_append, List.mem_singleton, not_or]
    exact ⟨hnot, hne⟩
  exact (WaitsAhead.notMem hindex hprefix hwhole ⟨t, hreachable, rfl, h⟩).1
    (List.mem_append_right _ List.mem_cons_self)

/-- Of two tasks among which `ScheduleAndActivate` chose, the one that outranks the other is
dispatched first. -/
theorem dispatchedFirst_of_outranks {s : State} {order : List ℤ}
    (hreachable : Reachable timedKernel TimedNoDestroy t) (hno : TimedNoDestroy t action)
    (hstep : timedKernel.step t action t') (hfirst : Candidate t'.scheduled first)
    (hother : Candidate t'.scheduled other) (hne : first ≠ other)
    (houtranks : Outranks t'.scheduled.task t'.since first other)
    (hnext : t'.state.currentTask = some next) (hdispatches : Dispatches t'.state order s) :
    DispatchedFirst first other (next :: order) := by
  have hreachable' := hreachable.step hno hstep
  obtain ⟨l, hundestroyed, _⟩ := stamped_of_reachable hreachable
  obtain ⟨_, _, _, same, hsame, hcomes⟩ := stamped_of_reachable hreachable'
  obtain rfl := Option.some.inj (hnext.symm.trans hsame)
  obtain ⟨found, hfound, hcurrent, _, hpriority, htask⟩ :=
    hundestroyed.exists_timed_round hno hstep
  obtain rfl := Option.some.inj (hnext.symm.trans hfound)
  have hready : ∀ {index}, Candidate t'.scheduled index → index ≠ next →
      (t'.state.task index).state = .ready := by
    intro index hcandidate hindex
    rw [htask index hindex]
    apply Runnable.preempted
    rcases hcandidate.2 with hready | ⟨hrunning, hactive⟩
    · exact .inl hready
    · rw [hcurrent, Option.some.injEq] at hrunning
      exact .inr ⟨hrunning.symm, hactive⟩
  by_cases hdispatched : next = first
  · intro before after heq
    cases before with
    | nil => exact absurd (hdispatched.symm.trans (List.cons.inj heq).1) hne
    | cons head rest =>
        rw [← (List.cons.inj heq).1, hdispatched]
        exact List.mem_cons_self
  · have hlater := hcomes.ne hfirst hdispatched houtranks
    have hwaits : WaitsAhead t' first other := by
      refine ⟨hready hfirst (Ne.symm hdispatched), hready hother (Ne.symm hlater), ?_⟩
      simp only [Outranks, hpriority]
      exact houtranks
    intro before after heq
    cases before with
    | nil => exact absurd (List.cons.inj heq).1 hlater
    | cons head rest =>
        exact List.mem_cons_of_mem _ (hwaits.dispatchedFirst hreachable' hfirst.1 hne
          hdispatches rest after (List.cons.inj heq).2)

end Rounds

/-! ## Replies -/

section Reply

variable {s s' : State} {t t' : Timed} {l : Layout} {tid : ℤ} {reply : ℕ} {replylen : Word}
  {trap : Trap} {next : ℤ}

/-- When `ScheduleAndActivate` is called the sender is ready and the replier still runs. -/
theorem Undestroyed.replied_scheduled (h : Undestroyed t.state l)
    (hawaits : Awaiting t.state tid)
    (hstep : timedKernel.step t (.call (.reply tid reply replylen) trap) t') :
    t'.scheduled.task (slot tid) = { t.state.task (slot tid) with state := .ready } ∧
      (t'.scheduled.task l.current).state = .active ∧
      (t'.scheduled.task l.current).priority = (t.state.task l.current).priority := by
  obtain ⟨_, _, hblocked⟩ := awaiting_iff.mp hawaits
  have hne : slot tid ≠ l.current := by
    intro heq
    rw [heq, h.dispatched.running] at hblocked
    exact absurd hblocked (by decide)
  obtain ⟨fuel, hentry, _⟩ := hstep
  rw [entry] at hentry
  split_ifs at hentry
  obtain ⟨result, middle, hhandle, hsaved⟩ := svcEntry_eq_some hentry
  have hentered := h.toCoherent.enter trap
  have hawaits' : Awaiting (entered t.state trap) tid := hawaits
  obtain ⟨queues, heq⟩ := hentered.exists_replyProxy hawaits' reply replylen
  rw [handle, heq, Option.some.injEq, Prod.mk.injEq] at hhandle
  have htask : middle.task = update t.state.task (slot tid)
      { t.state.task (slot tid) with state := .ready } := by
    rw [← hhandle.2]
    rfl
  have hcurrent : middle.current = l.current := by
    have hreplied := Silent.replied (entered t.state trap)
      ((entered t.state trap).node (slot tid)) reply replylen
    have hsame : middle.currentTask = t.state.currentTask := by
      rw [← hhandle.2]
      exact hreplied.currentTask
    rw [State.current, hsame, h.dispatched.current, Option.getD_some]
  have hsavedTask : t'.scheduled.task = (saveTaskState middle trap.spsr trap.sp trap.pc
      trap.timer.entry trap.timer.wentOffAtSave).task := by
    rw [hsaved]
    rfl
  rw [hsavedTask, saveTaskState, hcurrent, State.setTask_of_ne _ _ hne, State.setTask_self,
    htask, update_self, update_of_ne (Ne.symm hne)]
  exact ⟨rfl, h.dispatched.running, rfl⟩

/-- The sender is linked into its ready queue before the replier is. -/
theorem Undestroyed.replied_since (h : Undestroyed t.state l) (hawaits : Awaiting t.state tid)
    (hstep : timedKernel.step t (.call (.reply tid reply replylen) trap) t') :
    Candidate t'.scheduled (slot tid) ∧ Candidate t'.scheduled l.current ∧
      t'.since (slot tid) < t'.since l.current := by
  obtain ⟨hvalid, _, hblocked⟩ := awaiting_iff.mp hawaits
  obtain ⟨hsender, hactive, _⟩ := h.replied_scheduled hawaits hstep
  have hno : TimedNoDestroy t (.call (.reply tid reply replylen) trap) := trivial
  obtain ⟨next, _, hcurrent, _⟩ := h.exists_timed_round hno hstep
  obtain ⟨_, _, _, _, hsince⟩ := hstep
  have hready : (t'.scheduled.task (slot tid)).state = .ready := by rw [hsender]
  have hreplier : Candidate t'.scheduled l.current :=
    ⟨h.dispatched.inTable, .inr ⟨hcurrent, hactive⟩⟩
  have hnot : ¬(t'.scheduled.currentTask = some (slot tid) ∧
      Candidate t'.scheduled (slot tid)) := by
    rintro ⟨hrunning, _⟩
    rw [hcurrent, Option.some.injEq] at hrunning
    rw [hrunning, hready] at hactive
    exact absurd hactive (by decide)
  have hwoken : (t.state.task (slot tid)).state ≠ .ready := hblocked.trans_ne (by decide)
  refine ⟨⟨inTable_slot (isValidTid_iff.mp hvalid).1, .inl hready⟩, hreplier, ?_⟩
  rw [hsince, restamp, restamp, if_neg hnot, if_pos ⟨hwoken, hready⟩,
    if_pos ⟨hcurrent, hreplier⟩]
  exact Nat.lt_succ_self _

/-- Without `Destroy`, after a `Reply` that wakes a sender, the sender is dispatched before
the replier is dispatched again if it is at least as urgent, and the replier before the
sender if it is more urgent. -/
theorem dispatchedFirst_of_reply {s s' s'' : State} {replier next : ℤ} {order : List ℤ}
    (hreachable : Reachable kernel NoDestroy s) (hrunning : s.currentTask = some replier)
    (hawaits : Awaiting s tid) (hstep : Step s (.call (.reply tid reply replylen) trap) s')
    (hnext : s'.currentTask = some next) (hdispatches : Dispatches s' order s'') :
    ((s.task (slot tid)).priority.value ≤ (s.task replier).priority.value →
        DispatchedFirst (slot tid) replier (next :: order)) ∧
      ((s.task replier).priority.value < (s.task (slot tid)).priority.value →
        DispatchedFirst replier (slot tid) (next :: order)) := by
  obtain ⟨t, htimed, rfl⟩ := exists_timed hreachable
  obtain ⟨t', hround, rfl⟩ := exists_timed_step hstep rfl
  obtain ⟨l, hundestroyed, _⟩ := stamped_of_reachable htimed
  obtain rfl := Option.some.inj (hundestroyed.dispatched.current.symm.trans hrunning)
  obtain ⟨hsender, _, hpriority⟩ := hundestroyed.replied_scheduled hawaits hround
  obtain ⟨hfirst, hother, hlt⟩ := hundestroyed.replied_since hawaits hround
  have hne : slot tid ≠ l.current := by
    intro heq
    rw [heq] at hlt
    exact absurd hlt (Nat.lt_irrefl _)
  have hno : TimedNoDestroy t (.call (.reply tid reply replylen) trap) := trivial
  constructor
  · intro hurgent
    refine dispatchedFirst_of_outranks htimed hno hround hfirst hother hne ?_ hnext
      hdispatches
    rw [Outranks, hsender, hpriority]
    rcases Int.lt_or_eq_of_le hurgent with hless | heq
    · exact .inl hless
    · exact .inr ⟨Priority.eq_of_value heq, hlt⟩
  · intro hurgent
    refine dispatchedFirst_of_outranks htimed hno hround hother hfirst (Ne.symm hne) ?_
      hnext hdispatches
    rw [Outranks, hsender, hpriority]
    exact .inl hurgent

/-- The theorem at a reply between two tasks of one priority. -/
theorem dispatchedFirst_of_reply_sample :
    ∃ s s' s'', sampleRun (sampleActions.take 4) = some s ∧ s.currentTask = some 1 ∧
      Step s (.call (.reply 2 0x600 4) (sampleTrap 0x103f00)) s' ∧ Dispatches s' [1] s'' ∧
      DispatchedFirst 2 1 [2, 1] := by
  have hruns : (sampleRun (sampleActions.take 4)).bind (fun s =>
      (step s 8 (.call (.reply 2 0x600 4) (sampleTrap 0x103f00))).bind fun s' =>
        (step s' 8 (.interrupt 0 (sampleTrap 0x105f00))).map fun s'' =>
          ([s.currentTask, s'.currentTask, s''.currentTask], decide (Awaiting s 2),
            (s.task 1).priority, (s.task 2).priority)) =
      some ([some 1, some 2, some 1], true, .low, .low) := by decide +kernel
  simp only [Option.bind_eq_some_iff, Option.map_eq_some_iff, Prod.mk.injEq,
    List.cons.injEq, decide_eq_true_eq] at hruns
  obtain ⟨s, hrun, s', hfirst, s'', hsecond, ⟨hone, htwo, hlast, _⟩, hawaits, hlow, hlow'⟩ :=
    hruns
  have hreachable : Reachable kernel NoDestroy s := by
    apply reachable_of_rounds hrun
    simp [sampleActions, NoDestroy]
  have hinterrupt : NoDestroy s' (.interrupt 0 (sampleTrap 0x105f00)) := trivial
  have hdispatches : Dispatches s' [1] s'' :=
    .tail (.refl s') hinterrupt ⟨8, hsecond⟩ hlast
  refine ⟨s, s', s'', hrun, hone, ⟨8, hfirst⟩, hdispatches, ?_⟩
  apply (dispatchedFirst_of_reply hreachable hone hawaits ⟨8, hfirst⟩ htwo hdispatches).1
  rw [hlow]
  exact Int.le_of_eq (congrArg Priority.value hlow')

end Reply

end Rtk.Kernel
