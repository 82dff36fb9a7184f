import Rtk.Invariant.Readiness

/-!
# The order of dispatches

A run of the kernel is observed together with the moments at which tasks became
`READY`.  Each `ScheduleAndActivate` dispatches the most urgent task that can run, and
among those of its priority the one that has been `READY` for longest.
-/

namespace Rtk.Kernel

open Rtk.Lib
open Rtk.Transition

/-! ## Timed runs -/

/-- What a trap does before `ScheduleAndActivate`. -/
def entry (s : State) (fuel : ℕ) : Action → Option State
  | .call call trap =>
      if getCurrentTid s = 0 then none else svcEntry s fuel call trap
  | .interrupt intrCode trap => irqEntry s fuel intrCode trap

theorem step_eq (s : State) (fuel : ℕ) (action : Action) :
    step s fuel action =
      (entry s fuel action).bind fun s =>
        scheduleAndActivate s action.trap.timer.activation := by
  cases action with
  | call call trap =>
      rw [step, entry, Action.trap]
      split_ifs <;> rfl
  | interrupt intrCode trap => rfl

/-- A task among which `ScheduleAndActivate` chooses: it is `READY`, or it is the
current task and still `ACTIVE`. -/
def Candidate (s : State) (index : ℤ) : Prop :=
  InTable index ∧ ((s.task index).state = .ready ∨
    s.currentTask = some index ∧ (s.task index).state = .active)

instance (s : State) (index : ℤ) : Decidable (Candidate s index) :=
  inferInstanceAs (Decidable (_ ∧ _))

/-- The kernel with the moments at which its tasks last became `READY`.  Round `n` runs
the handler of a trap at moment `2 * n`, and `ScheduleAndActivate` at the moment after
it. -/
structure Timed where
  state : State
  /-- The state in which `ScheduleAndActivate` chose the current task. -/
  scheduled : State
  round : ℕ
  since : ℤ → ℕ

/-- The moments once a trap has led to `saved`, where `ScheduleAndActivate` is called.
A current task that can go on running becomes `READY` there. -/
def restamp (t : Timed) (saved : State) (index : ℤ) : ℕ :=
  if saved.currentTask = some index ∧ Candidate saved index then 2 * t.round + 1
  else if (t.state.task index).state ≠ .ready ∧ (saved.task index).state = .ready then
    2 * t.round
  else t.since index

/-- The kernel from the first activation on.  `RtkLaunch` creates the null task before
the first task. -/
def timedKernel : System Timed Action where
  initial t :=
    ∃ image memory now, t.scheduled = rtkLaunch image memory ∧
      scheduleAndActivate t.scheduled now = some t.state ∧
      t.round = 1 ∧ t.since = fun index => if index = 0 then 0 else 1
  step t action t' :=
    ∃ fuel, entry t.state fuel action = some t'.scheduled ∧
      scheduleAndActivate t'.scheduled action.trap.timer.activation = some t'.state ∧
      t'.round = t.round + 1 ∧ t'.since = restamp t t'.scheduled

def TimedNoDestroy (t : Timed) (action : Action) : Prop := NoDestroy t.state action

/-- `next` is the most urgent of the tasks that can run in `s`, and of those with its
priority it is the one that became `READY` first. -/
structure ComesFirst (s : State) (since : ℤ → ℕ) (next : ℤ) : Prop where
  candidate : Candidate s next
  before : ∀ {other}, Candidate s other → other ≠ next →
    (s.task next).priority.value < (s.task other).priority.value ∨
      (s.task next).priority = (s.task other).priority ∧ since next < since other

/-- The last `ScheduleAndActivate` of a timed run dispatched the task that comes first. -/
def DispatchesFirst (t : Timed) : Prop :=
  ∃ next, t.state.currentTask = some next ∧ ComesFirst t.scheduled t.since next

section Lift

variable {s s' : State} {t : Timed} {action : Action}

/-- A round is a timed round. -/
theorem exists_timed_step (hstep : Step s action s') (hstate : t.state = s) :
    ∃ t', timedKernel.step t action t' ∧ t'.state = s' := by
  obtain ⟨fuel, hround⟩ := hstep
  rw [step_eq, Option.bind_eq_some_iff] at hround
  obtain ⟨saved, hentry, hactivate⟩ := hround
  subst hstate
  exact ⟨⟨s', saved, t.round + 1, restamp t saved⟩, ⟨fuel, hentry, hactivate, rfl, rfl⟩, rfl⟩

/-- Every run of the kernel is the run of a timed one. -/
theorem exists_timed (hreachable : Reachable kernel NoDestroy s) :
    ∃ t, Reachable timedKernel TimedNoDestroy t ∧ t.state = s := by
  apply hreachable.invariant
  · rintro s ⟨image, memory, now, hactivate⟩
    generalize hlaunch : rtkLaunch image memory = launched at hactivate
    exact ⟨⟨s, launched, 1, fun index => if index = 0 then 0 else 1⟩,
      .initial ⟨image, memory, now, hlaunch.symm, hactivate, rfl, rfl⟩, rfl⟩
  · rintro s action s' ⟨t, htimed, rfl⟩ hno hstep
    obtain ⟨t', hround, hstate⟩ := exists_timed_step hstep rfl
    exact ⟨t', htimed.step hno hround, hstate⟩

end Lift

/-! ## Ordered queues -/

/-- Every ready queue has its tasks in the order in which they became `READY`, all of
them before `bound`. -/
structure Ordered (lists : Lists TaskQueue ℤ) (since : ℤ → ℕ) (bound : ℕ) : Prop where
  pairwise : ∀ priority, (lists (.states .ready priority)).Pairwise
    fun first second => since first < since second
  past : ∀ {priority index}, index ∈ lists (.states .ready priority) → since index < bound

section Ordered

variable {lists lists' : Lists TaskQueue ℤ} {since since' : ℤ → ℕ} {bound bound' : ℕ}

theorem Ordered.erase (h : Ordered lists since bound) (index : ℤ) :
    Ordered (lists.erase index) since bound where
  pairwise priority := (h.pairwise priority).sublist List.erase_sublist
  past hmem := h.past (List.mem_of_mem_erase hmem)

/-- A task that joins a queue at a later moment keeps the queues ordered. -/
theorem Ordered.extend (h : Ordered lists since bound) {stamp : ℕ}
    (hlists : ∀ priority, ∃ joined, lists' (.states .ready priority) =
      lists (.states .ready priority) ++ joined ∧ joined.length ≤ 1 ∧
        ∀ index ∈ joined, since' index = stamp)
    (hsince : ∀ priority, ∀ index ∈ lists (.states .ready priority),
      since' index = since index)
    (hstamp : bound ≤ stamp) (hbound : stamp < bound') :
    Ordered lists' since' bound' where
  pairwise := by
    intro priority
    obtain ⟨joined, heq, hlength, hjoined⟩ := hlists priority
    rw [heq, List.pairwise_append]
    refine ⟨?_, ?_, ?_⟩
    · apply (h.pairwise priority).imp_of_mem
      intro first second hfirst hsecond hlt
      rw [hsince priority first hfirst, hsince priority second hsecond]
      exact hlt
    · match joined, hlength with
      | [], _ => exact .nil
      | [index], _ => exact List.pairwise_singleton _ _
    · intro first hfirst second hsecond
      calc
        since' first = since first := hsince priority first hfirst
        _ < bound := h.past hfirst
        _ ≤ stamp := hstamp
        _ = since' second := (hjoined second hsecond).symm
  past := by
    intro priority index hmem
    obtain ⟨joined, heq, _, hjoined⟩ := hlists priority
    rw [heq, List.mem_append] at hmem
    rcases hmem with hold | hnew
    · calc
        since' index = since index := hsince priority index hold
        _ < bound := h.past hold
        _ ≤ stamp := hstamp
        _ < bound' := hbound
    · rw [hjoined index hnew]
      exact hbound

/-- What `firstOf` finds is the head of its queue, and the queues of more urgent
priorities are empty. -/
theorem exists_head_of_firstOf {state : TaskState} {priorities : List Priority} {next : ℤ}
    (hurgent : priorities.Pairwise fun left right => left.value < right.value)
    (hfirst : firstOf lists state priorities = some next) :
    ∃ priority rest, lists (.states state priority) = next :: rest ∧
      ∀ other ∈ priorities, other.value < priority.value →
        lists (.states state other) = [] := by
  induction priorities with
  | nil => simp [firstOf] at hfirst
  | cons priority priorities ih =>
      obtain ⟨hbefore, hlater⟩ := List.pairwise_cons.mp hurgent
      rw [firstOf] at hfirst
      cases hqueue : lists (.states state priority) with
      | nil =>
          rw [hqueue, List.head?_nil, Option.none_or] at hfirst
          obtain ⟨found, rest, heq, hempty⟩ := ih hlater hfirst
          refine ⟨found, rest, heq, ?_⟩
          intro other hother hlt
          rcases List.mem_cons.mp hother with rfl | hother
          · exact hqueue
          · exact hempty other hother hlt
      | cons head rest =>
          rw [hqueue, List.head?_cons, Option.some_or, Option.some.injEq] at hfirst
          subst next
          refine ⟨priority, rest, hqueue, ?_⟩
          intro other hother hlt
          rcases List.mem_cons.mp hother with rfl | hother
          · exact absurd hlt (Int.lt_irrefl _)
          · exact absurd (Int.lt_trans hlt (hbefore other hother)) (Int.lt_irrefl _)

theorem Priority.mem_all (priority : Priority) : priority ∈ Priority.all := by
  cases priority <;> decide

theorem Priority.eq_of_value {left right : Priority} (hvalue : left.value = right.value) :
    left = right := by
  cases left <;> cases right <;> first | rfl | simp [value] at hvalue

/-- Of ordered queues that hold the candidates, the first head comes first. -/
theorem Ordered.comesFirst {s : State} {next : ℤ} (h : Ordered lists since bound)
    (hmem : ∀ {priority index}, index ∈ lists (.states .ready priority) ↔
      Candidate s index ∧ (s.task index).priority = priority)
    (hfirst : firstOf lists .ready Priority.all = some next) : ComesFirst s since next := by
  obtain ⟨priority, rest, hqueue, hempty⟩ := exists_head_of_firstOf (by decide) hfirst
  have hnext : next ∈ lists (.states .ready priority) := by simp [hqueue]
  obtain ⟨hcandidate, hpriority⟩ := hmem.mp hnext
  refine ⟨hcandidate, ?_⟩
  intro other hother hne
  have hlisted : other ∈ lists (.states .ready (s.task other).priority) :=
    hmem.mpr ⟨hother, rfl⟩
  have hle : priority.value ≤ (s.task other).priority.value := by
    by_contra hlt
    rw [hempty _ (Priority.mem_all _) (Int.not_le.mp hlt)] at hlisted
    simp at hlisted
  rw [hpriority]
  rcases Int.lt_or_eq_of_le hle with hlt | heq
  · exact .inl hlt
  · have hsame := Priority.eq_of_value heq
    have hpairwise := h.pairwise priority
    rw [← hsame, hqueue] at hlisted
    rw [hqueue, List.pairwise_cons] at hpairwise
    right
    refine ⟨hsame, hpairwise.1 other ?_⟩
    exact (List.mem_cons.mp hlisted).resolve_left hne

end Ordered

/-! ## A timed round -/

section Round

variable {s saved : State} {l : Layout} {c : ℤ} {lists : Lists TaskQueue ℤ}
  {action : Action} {fuel : ℕ}

/-- What a trap does to the queues of tasks before `ScheduleAndActivate`; the ready tasks
stay as they are. -/
theorem Undestroyed.exists_entry (h : Undestroyed s l) (hno : NoDestroy s action)
    (hentry : entry s fuel action = some saved) :
    (∃ lists, InKernel saved l.current lists) ∧ Relinks s saved ∧
      Spares l.current s saved := by
  have hentered := h.toCoherent.enter action.trap
  cases action with
  | call call trap =>
      have hsafe := (h.safe hno).enter
      rw [entry] at hentry
      split_ifs at hentry
      obtain ⟨result, middle, hhandle, rfl⟩ := svcEntry_eq_some hentry
      obtain ⟨queues, heffect⟩ := hentered.effect_handle hsafe hhandle
      obtain ⟨lists, hkernel⟩ := heffect.inKernel hentered
      have hsaved := (hkernel.saves_saveTaskState trap.spsr trap.sp trap.pc
        trap.timer.entry trap.timer.wentOffAtSave).setCurrentTaskReturnValue result
      have hcall : ∀ tid, call ≠ .destroy tid := fun tid heq =>
        hno.call tid (congrArg some heq)
      have hrelinks := hentered.relinks_handle hsafe hcall hhandle
      refine ⟨hsaved.quietly.inKernel,
        (hrelinks.of_left (fun _ hready => hready) rfl).of_right rfl, ?_⟩
      exact (heffect.spares hentered hno.call).trans hsaved.quietly.spares
  | interrupt intrCode trap =>
      obtain ⟨time, middle, hhandle, rfl⟩ := irqEntry_eq_some hentry
      have heffect := hentered.effect_handleIrq hhandle
      obtain ⟨lists, hkernel⟩ := heffect.inKernel hentered
      have hsaved := hkernel.saves_saveTaskState trap.spsr trap.sp trap.pc time
        trap.timer.wentOffAtSave
      have hrelinks := hentered.dispatched.toInKernel.relinks_handleIrq hhandle
      refine ⟨hsaved.quietly.inKernel,
        (hrelinks.of_left (fun _ hready => hready) rfl).of_right rfl, ?_⟩
      exact (heffect.spares hentered hno.call).trans hsaved.quietly.spares

/-- The ready queues hold the ready tasks but for the running one. -/
theorem InKernel.mem_ready_iff (h : InKernel s c lists) {priority : Priority} {index : ℤ} :
    index ∈ lists (.states .ready priority) ↔
      InTable index ∧ index ≠ c ∧ (s.task index).state = .ready ∧
        (s.task index).priority = priority := by
  rw [h.partition.mem_iff, home_eq_states_iff]
  constructor
  · rintro ⟨hindex, _, hne, hstate, hpriority⟩
    exact ⟨hindex, fun heq => hne (congrArg some heq.symm), hstate, hpriority⟩
  · rintro ⟨hindex, hne, hstate, hpriority⟩
    refine ⟨hindex, ?_, fun heq => hne (Option.some.inj heq).symm, hstate, hpriority⟩
    exact allocated_of_state hstate (by decide)

/-- Once the current task is requeued, the ready queues hold the candidates. -/
theorem InKernel.mem_requeued_iff (h : InKernel s c lists) {priority : Priority}
    {index : ℤ} :
    index ∈ requeued s c lists (.states .ready priority) ↔
      Candidate s index ∧ (s.task index).priority = priority := by
  have hstate : (preempted s c index).state = .ready ↔
      (s.task index).state = .ready ∨
        s.currentTask = some index ∧ (s.task index).state = .active := by
    rw [h.current, Option.some.injEq]
    by_cases hindex : index = c
    · subst index
      rw [preempted_self]
      split_ifs with hactive <;> simp [hactive]
    · rw [preempted_of_ne hindex]
      simp [Ne.symm hindex]
  rw [h.partition_requeued.mem_iff, home_eq_states_iff, Allocated, State.withTasks_task,
    priority_preempted, hstate, Candidate, and_assoc]
  constructor
  · rintro ⟨hindex, _, _, hcandidate, hqueue⟩
    exact ⟨hindex, hcandidate, hqueue⟩
  · rintro ⟨hindex, hcandidate, hqueue⟩
    refine ⟨hindex, ?_, by simp, hcandidate, hqueue⟩
    rw [hstate.mpr hcandidate]
    decide

/-- In each queue the requeued task is behind the others. -/
theorem exists_requeued (s : State) (c : ℤ) (lists : Lists TaskQueue ℤ)
    (queue : TaskQueue) :
    ∃ joined, requeued s c lists queue = lists queue ++ joined ∧
      (joined = [] ∨ joined = [c]) := by
  rw [requeued]
  split_ifs with halloc
  · by_cases hqueue : queue = .states (preempted s c c).state (s.task c).priority
    · rw [← hqueue, Lists.append_self]
      exact ⟨[c], rfl, .inr rfl⟩
    · rw [Lists.append_of_ne _ _ hqueue]
      exact ⟨[], (List.append_nil _).symm, .inl rfl⟩
  · exact ⟨[], (List.append_nil _).symm, .inl rfl⟩

theorem length_joiners_le (joining : List (Priority × ℤ)) (priority : Priority) :
    (joiners joining priority).length ≤ joining.length := by
  rw [joiners, List.length_map]
  exact List.length_filter_le _ _

/-- The ready tasks keep their moments, and those that join get the moment of the
handler. -/
theorem restamp_of_joined {t : Timed} {joining : List (Priority × ℤ)}
    (h : InKernel t.state c l.lists) (hkernel : InKernel saved c lists)
    (hlists : ∀ priority, lists (.states .ready priority) =
      l.lists (.states .ready priority) ++ joiners joining priority)
    (priority : Priority) :
    (∀ index ∈ l.lists (.states .ready priority), restamp t saved index = t.since index) ∧
      ∀ index ∈ joiners joining priority, restamp t saved index = 2 * t.round := by
  have hnotCurrent : ∀ {index}, index ≠ c → saved.currentTask ≠ some index := by
    intro index hne heq
    rw [hkernel.current, Option.some.injEq] at heq
    exact hne heq.symm
  constructor
  · intro index hmem
    obtain ⟨_, hne, hready, _⟩ := h.mem_ready_iff.mp hmem
    rw [restamp, if_neg fun hrunning => hnotCurrent hne hrunning.1,
      if_neg fun hwoken => hwoken.1 hready]
  · intro index hmem
    have hlater : index ∈ lists (.states .ready priority) := by
      rw [hlists]
      exact List.mem_append_right _ hmem
    obtain ⟨hindex, hne, hready, hpriority⟩ := hkernel.mem_ready_iff.mp hlater
    have hwas : (t.state.task index).state ≠ .ready := by
      -- a task that was ready is in the queue already, and queues have no duplicates
      intro hwas
      have hold := h.mem_ready_iff.mpr ⟨hindex, hne, hwas, rfl⟩
      have hkept : index ∈ lists (.states .ready (t.state.task index).priority) := by
        rw [hlists]
        exact List.mem_append_left _ hold
      rw [← (hkernel.mem_ready_iff.mp hkept).2.2.2, hpriority] at hold
      have hnodup := hkernel.partition.represents.nodup (.states .ready priority)
      rw [hlists] at hnodup
      exact (List.nodup_append.mp hnodup).2.2 index hold index hmem rfl
    rw [restamp, if_neg fun hrunning => hnotCurrent hne hrunning.1, if_pos ⟨hwas, hready⟩]

/-- The queues from which `ScheduleAndActivate` chooses are ordered again. -/
theorem Undestroyed.ordered_requeued {t : Timed} (h : Undestroyed t.state l)
    (hordered : Ordered l.lists t.since (2 * t.round)) (hno : NoDestroy t.state action)
    (hentry : entry t.state fuel action = some saved)
    (hkernel : InKernel saved l.current lists) :
    Ordered (requeued saved l.current lists) (restamp t saved) (2 * (t.round + 1)) := by
  obtain ⟨_, hrelinks, _⟩ := h.exists_entry hno hentry
  obtain ⟨joining, hlength, hjoins⟩ := hrelinks.joinsOne h.dispatched.toInKernel
  have hlists : ∀ priority, lists (.states .ready priority) =
      l.lists (.states .ready priority) ++ joiners joining priority := by
    intro priority
    apply (hkernel.partition.represents.contents _).unique
    exact hjoins priority _ (h.dispatched.partition.represents.contents _)
  have hstamps := restamp_of_joined h.dispatched.toInKernel hkernel hlists
  have hjoined : Ordered lists (restamp t saved) (2 * t.round + 1) := by
    apply hordered.extend _ _ (Nat.le_refl _) (Nat.lt_succ_self _)
    · intro priority
      exact ⟨_, hlists priority, Nat.le_trans (length_joiners_le joining priority) hlength,
        (hstamps priority).2⟩
    · exact fun priority => (hstamps priority).1
  apply hjoined.extend _ (fun _ _ _ => rfl) (Nat.le_refl _) (by omega)
  intro priority
  obtain ⟨joined, heq, hcases⟩ :=
    exists_requeued saved l.current lists (.states .ready priority)
  refine ⟨joined, heq, by rcases hcases with rfl | rfl <;> simp, ?_⟩
  intro index hmem
  have hcandidate : Candidate saved index := by
    apply (hkernel.mem_requeued_iff.mp _).1
    · exact priority
    · rw [heq]
      exact List.mem_append_right _ hmem
  have hindex : index = l.current := by
    rcases hcases with rfl | rfl
    · simp at hmem
    · exact List.mem_singleton.mp hmem
  rw [restamp, if_pos ⟨by rw [hkernel.current, hindex], hcandidate⟩]

end Round

/-! ## Timed runs without `Destroy` -/

/-- The state of a timed run between two rounds. -/
def Stamped (t : Timed) : Prop :=
  ∃ l, Undestroyed t.state l ∧ Ordered l.lists t.since (2 * t.round) ∧ DispatchesFirst t

section Stamped

variable {t t' : Timed} {action : Action}

theorem stamped_of_initial (hinitial : timedKernel.initial t) : Stamped t := by
  obtain ⟨image, memory, now, hscheduled, hactivate, hround, hsince⟩ := hinitial
  obtain ⟨l, hundestroyed⟩ : ∃ l, Undestroyed t.state l := by
    apply Booted.undestroyed
    exact ⟨image, memory, now, hscheduled ▸ hactivate⟩
  obtain ⟨s', heq, hcoherent, _⟩ := exists_activated image memory now
  rw [hscheduled, heq, Option.some.injEq] at hactivate
  subst hactivate
  have hprepared := prepared_launchedState image memory
  have hlists : l.lists = launchedLists.erase 1 :=
    hundestroyed.dispatched.partition.represents.unique
      hcoherent.dispatched.partition.represents
  have hordered : Ordered launchedLists t.since (2 * t.round) := by
    rw [hround, hsince]
    constructor
    · intro priority
      cases priority <;> decide
    · intro priority index hmem
      show (if index = 0 then 0 else 1) < 2
      split_ifs <;> decide
  refine ⟨l, hundestroyed, hlists ▸ hordered.erase 1, 1, hcoherent.dispatched.current, ?_⟩
  rw [hscheduled, rtkLaunch_eq]
  apply hordered.comesFirst _ firstOf_launchedLists
  intro priority index
  rw [hprepared.partition.mem_iff, home_eq_states_iff, Candidate, hprepared.currentTask]
  constructor
  · rintro ⟨hindex, _, _, hready, hpriority⟩
    exact ⟨⟨hindex, .inl hready⟩, hpriority⟩
  · rintro ⟨⟨hindex, hready | ⟨hnone, _⟩⟩, hpriority⟩
    · refine ⟨hindex, ?_, by simp, hready, hpriority⟩
      exact allocated_of_state hready (by decide)
    · simp at hnone

theorem Stamped.step (h : Stamped t) (hno : TimedNoDestroy t action)
    (hstep : timedKernel.step t action t') : Stamped t' := by
  obtain ⟨l, hundestroyed, hordered, _⟩ := h
  obtain ⟨fuel, hentry, hactivate, hround, hsince⟩ := hstep
  have hrounds : Step t.state action t'.state := by
    refine ⟨fuel, ?_⟩
    rw [step_eq, hentry, Option.bind_some]
    exact hactivate
  obtain ⟨l', hundestroyed'⟩ := hundestroyed.step hno hrounds
  obtain ⟨⟨lists, hkernel⟩, _⟩ := hundestroyed.exists_entry hno hentry
  obtain ⟨next, _, hfirst, _, hnext, _⟩ := hkernel.dispatch hactivate
  have hlists : l'.lists = (requeued t'.scheduled l.current lists).erase next :=
    hundestroyed'.dispatched.partition.represents.unique hnext.partition.represents
  have hordered' := hundestroyed.ordered_requeued hordered hno hentry hkernel
  rw [← hsince, ← hround] at hordered'
  refine ⟨l', hundestroyed', hlists ▸ hordered'.erase next, next, hnext.current, ?_⟩
  exact hordered'.comesFirst hkernel.mem_requeued_iff hfirst

theorem stamped_of_reachable (hreachable : Reachable timedKernel TimedNoDestroy t) :
    Stamped t :=
  hreachable.invariant (fun _ => stamped_of_initial) Stamped.step

/-- Without `Destroy`, each `ScheduleAndActivate` dispatches the task that comes first:
the most urgent one, and among those of its priority the one that became `READY` first. -/
theorem dispatchesFirst_of_reachable (hreachable : Reachable timedKernel TimedNoDestroy t) :
    DispatchesFirst t := by
  obtain ⟨l, _, _, hfirst⟩ := stamped_of_reachable hreachable
  exact hfirst

/-- The theorem at a run with a rendezvous, an interrupt and a reply. -/
theorem dispatchesFirst_sample :
    ∃ t, (∃ s, sampleRun sampleActions = some s ∧ t.state = s) ∧
      Reachable timedKernel TimedNoDestroy t ∧ DispatchesFirst t := by
  have hsome : (sampleRun sampleActions).isSome := by decide +kernel
  obtain ⟨s, hrun⟩ := Option.isSome_iff_exists.mp hsome
  have hreachable : Reachable kernel NoDestroy s := by
    apply reachable_of_rounds hrun
    simp [sampleActions, NoDestroy]
  obtain ⟨t, htimed, hstate⟩ := exists_timed hreachable
  exact ⟨t, ⟨s, hrun, hstate⟩, htimed, dispatchesFirst_of_reachable htimed⟩

end Stamped

end Rtk.Kernel
