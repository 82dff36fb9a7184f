import Rtk.Invariant.Bookings
import Rtk.Properties.Reuse

/-!
# Task statistics

`CreateTask` resets the used time of the descriptor it takes, but not the number of
activations and the allowed time.  So the statistics of a task count what earlier tasks of
its descriptor were given, in whatever run.
-/

namespace Rtk.Kernel

open Function
open Rtk.ByteMemory
open Rtk.Lib
open Rtk.Lib.QueueHeap
open Rtk.Transition

/-! ## What a descriptor was given -/

/-- The timer values at the activations of the earlier tasks of a descriptor and of its
present one, and what the present one was charged. -/
structure History where
  earlier : List Word
  activations : List Word
  charges : List Word

def History.empty : History := ⟨[], [], []⟩

/-- The next task of a descriptor has been given nothing yet. -/
def History.opened (history : History) : History :=
  ⟨history.earlier ++ history.activations, [], []⟩

def History.charged (history : History) (charge : Word) : History :=
  { history with charges := history.charges ++ [charge] }

def History.activated (history : History) (now : Word) : History :=
  { history with activations := history.activations ++ [now] }

/-- How the histories are kept. -/
def chronicles : Bookkeeping History := ⟨.opened, .charged, .activated⟩

def beginHistories (s : State) : ℤ → History :=
  update (fun _ => .empty) s.current (History.empty.activated (s.task s.current).lastActivateAt)

/-- The kernel with the histories of its descriptors. -/
def chronicled : System (State × (ℤ → History)) Action :=
  kernel.recording beginHistories chronicles.record

def totalTime (times : List Word) : Word := times.foldl (· + ·) 0

/-- The user time that activations at these timer values allow. -/
def allowance (activations : List Word) : Word := totalTime (activations.map (· / 100))

/-! ## What is reported -/

/-- The statistics count what the present task was given, and nothing else.  Like every
`long`, the number of activations is kept in a word. -/
structure TaskStats.CountsOwn (stats : TaskStats) (history : History) : Prop where
  numActivates : stats.numActivates = BitVec.ofNat 32 history.activations.length
  allowedUserTime : stats.allowedUserTime = allowance history.activations
  usedUserTime : stats.usedUserTime = totalTime history.charges

structure TaskStats.Agrees (stats stats' : TaskStats) : Prop where
  numActivates : stats.numActivates = stats'.numActivates
  allowedUserTime : stats.allowedUserTime = stats'.allowedUserTime
  usedUserTime : stats.usedUserTime = stats'.usedUserTime

/-- `GetTaskStats( tid )` or `GetTasksStats` reports this for the tid. -/
inductive Reports (s : State) (tid : ℤ) (stats : TaskStats) : Prop
  | taskStats {fuel container : ℕ} {trap : Trap} {result : ℤ} {s' : State}
      (hhandle : handle (entered s trap) fuel trap (.getTaskStats tid container) =
        some (result, s'))
      (hlog : s'.log = s.log ++ [.taskStats container stats])
  | tasksStats {fuel container : ℕ} {trap : Trap} {result : ℤ} {s' : State}
      {all : TasksStats}
      (hhandle : handle (entered s trap) fuel trap (.getTasksStats container) =
        some (result, s'))
      (hlog : s'.log = s.log ++ [.tasksStats container all])
      (hmem : stats ∈ all.tasks) (htid : stats.tid = tid)

/-- What is reported for the tid counts its own activations only. -/
def OwnStats (s : State) (tid : ℤ) (history : History) : Prop :=
  ∀ stats, Reports s tid stats → stats.CountsOwn history

/-- In words, the activations of the earlier tasks of the descriptor count for nothing,
and neither does the user time they were allowed. -/
structure History.Unspent (history : History) : Prop where
  activations : BitVec.ofNat 32 history.earlier.length = 0
  allowance : allowance history.earlier = 0

/-- What an account must say of a descriptor with this history. -/
structure Booked (account : Account) (history : History) : Prop where
  numActivates : account.numActivates =
    BitVec.ofNat 32 (history.earlier.length + history.activations.length)
  allowedUserTime :
    account.allowedUserTime = allowance (history.earlier ++ history.activations)
  usedUserTime : account.usedUserTime = totalTime history.charges

section Booked

variable {account : Account} {history : History}

theorem totalTime_append (times times' : List Word) :
    totalTime (times ++ times') = totalTime times + totalTime times' := by
  rw [totalTime, List.foldl_append]
  conv_lhs => rw [← BitVec.add_zero (times.foldl (· + ·) 0)]
  exact List.foldl_assoc

@[simp]
theorem totalTime_singleton (time : Word) : totalTime [time] = time :=
  BitVec.zero_add time

theorem allowance_append (earlier activations : List Word) :
    allowance (earlier ++ activations) = allowance earlier + allowance activations := by
  rw [allowance, List.map_append, totalTime_append]
  rfl

theorem Booked.opened (h : Booked account history) : Booked account.opened history.opened where
  numActivates := by
    rw [Account.opened, h.numActivates, History.opened, List.length_append]
    rfl
  allowedUserTime := by
    simp only [Account.opened, History.opened, List.append_nil]
    exact h.allowedUserTime
  usedUserTime := rfl

theorem Booked.charged (h : Booked account history) (timer : Word) :
    Booked (account.charged timer)
      (history.charged ((account.lastActivateAt - timer) / 100)) where
  numActivates := h.numActivates
  allowedUserTime := h.allowedUserTime
  usedUserTime := by
    rw [Account.charged, History.charged, totalTime_append, totalTime_singleton,
      ← h.usedUserTime]

theorem Booked.activated (h : Booked account history) (now : Word) :
    Booked (account.activated now) (history.activated now) where
  numActivates := by
    rw [Account.activated, h.numActivates, History.activated, List.length_append,
      ← Nat.add_assoc, BitVec.ofNat_add _ [now].length]
    rfl
  allowedUserTime := by
    rw [Account.activated, History.activated, ← List.append_assoc, allowance_append,
      ← h.allowedUserTime, allowance, List.map_singleton, totalTime_singleton]
  usedUserTime := h.usedUserTime

end Booked

/-! ## Every run keeps the books -/

/-- The state of the kernel and the histories, in every run. -/
structure Chronicle (s : State) (histories : ℤ → History) : Prop where
  running : s.currentTask = some s.current
  tabled : Tabled s
  tid_emod : ∀ {index}, InTable index → (s.task index).tid % maxTasks = index
  booked : ∀ index, Booked (s.accounts index) (histories index)

section Chronicle

variable {s s' : State} {histories : ℤ → History} {action : Action}

theorem Booted.chronicle (hbooted : Booted s) : Chronicle s (beginHistories s) := by
  obtain ⟨image, memory, now, hactivate⟩ := hbooted
  obtain ⟨haccounts, hrunning, htabled⟩ := accounts_of_launch hactivate
  have hblank : ∀ index, Booked ((launchedState image memory).accounts index) .empty := by
    intro index
    obtain ⟨tid, hblank, _⟩ := accounts_launchedState image memory index
    rw [hblank]
    exact ⟨rfl, rfl, rfl⟩
  refine ⟨hrunning, htabled, ?_, ?_⟩
  · intro index hindex
    rw [tid_of_launch hactivate hindex]
    rw [InTable, maxTasks] at hindex
    rw [maxTasks]
    split_ifs <;> omega
  · have hlast : (s.task s.current).lastActivateAt = now := by
      have hself := congrArg Account.lastActivateAt (congrFun haccounts s.current)
      rwa [update_self] at hself
    rw [haccounts, beginHistories, hlast]
    exact @related_update _ _ (fun _ => Booked) _ hblank _ _ _
      ((hblank s.current).activated now)

theorem Chronicle.step (h : Chronicle s histories) (hstep : Step s action s') :
    Chronicle s' (chronicles.record s action s' histories) := by
  obtain ⟨haccounts, hrunning, htabled⟩ := h.tabled.accounts_step h.running hstep
  refine ⟨hrunning, htabled, ?_, ?_⟩
  · intro index hindex
    have htid := congrArg Account.tid (congrFun haccounts index)
    rw [tid_bookedAccounts] at htid
    have hold := h.tid_emod hindex
    rw [maxTasks] at hold ⊢
    rcases tid_openedAccounts_cases s action index with hsame | hmore
    · have hkept : (s'.task index).tid = (s.task index).tid := htid.trans hsame
      rw [hkept, hold]
    · have hraised : (s'.task index).tid = (s.task index).tid + maxTasks := htid.trans hmore
      rw [hraised, maxTasks]
      omega
  · have hopened := @related_openedBooks _ chronicles _ action _ (fun _ => Booked) h.booked
      Booked.opened
    have hcharged := @related_update _ _ (fun _ => Booked) _ hopened s.current _ _
      ((hopened s.current).charged action.savedTime)
    rw [lastActivateAt_openedAccounts] at hcharged
    rw [haccounts]
    exact @related_update _ _ (fun _ => Booked) _ hcharged _ _ _
      ((hcharged s'.current).activated action.trap.timer.activation)

end Chronicle

/-! ## What is reported, in every state -/

section Reports

variable {s s' : State} {histories : ℤ → History} {tid : ℤ} {trap : Trap}

/-- A descriptor counts the present task only exactly when what the earlier ones were given
counts for nothing. -/
theorem Booked.countsOwn_iff {task : Task} {history : History}
    (h : Booked task.account history) : (statsOf task).CountsOwn history ↔ history.Unspent := by
  have hnum : task.numActivates =
      BitVec.ofNat 32 history.earlier.length + BitVec.ofNat 32 history.activations.length := by
    rw [← BitVec.ofNat_add]
    exact h.numActivates
  have hallowed : task.allowedUserTime =
      allowance history.earlier + allowance history.activations := by
    rw [← allowance_append]
    exact h.allowedUserTime
  constructor
  · intro hcounts
    have hown : task.numActivates = BitVec.ofNat 32 history.activations.length :=
      hcounts.numActivates
    have hallowedOwn : task.allowedUserTime = allowance history.activations :=
      hcounts.allowedUserTime
    exact ⟨BitVec.add_left_eq_self.mp (hnum.symm.trans hown),
      BitVec.add_left_eq_self.mp (hallowed.symm.trans hallowedOwn)⟩
  · intro hunspent
    rw [BitVec.add_left_eq_self.mpr hunspent.activations] at hnum
    rw [BitVec.add_left_eq_self.mpr hunspent.allowance] at hallowed
    exact ⟨hnum, hallowed, h.usedUserTime⟩

/-- An entry is that of a descriptor of the table. -/
theorem Tabled.mem_statsFrom (h : Tabled s) {fuel : ℕ} {head : Option ℤ}
    {entries : List TaskStats} (hhead : ∀ index, head = some index → InTable index)
    (hstats : statsFrom s fuel head = some entries) :
    ∀ entry ∈ entries, ∃ index, InTable index ∧ entry = statsOf (s.task index) := by
  induction fuel generalizing head entries with
  | zero =>
      cases head with
      | none =>
          obtain rfl := Option.some.inj hstats
          simp
      | some index => simp [statsFrom] at hstats
  | succ fuel ih =>
      cases head with
      | none =>
          obtain rfl := Option.some.inj hstats
          simp
      | some index =>
          rw [statsFrom, Option.map_eq_some_iff] at hstats
          obtain ⟨rest, hrest, rfl⟩ := hstats
          intro entry hentry
          rcases List.mem_cons.mp hentry with rfl | hentry
          · exact ⟨index, hhead index rfl, rfl⟩
          · exact ih (fun _ => h.within.next) hrest entry hentry

theorem Tabled.mem_statsOfQueues (h : Tabled s) {fuel : ℕ} {queues : List TaskQueue}
    {entries : List TaskStats} (hstats : statsOfQueues s fuel queues = some entries) :
    ∀ entry ∈ entries, ∃ index, InTable index ∧ entry = statsOf (s.task index) := by
  induction queues generalizing entries with
  | nil =>
      obtain rfl := Option.some.inj hstats
      simp
  | cons queue queues ih =>
      simp only [statsOfQueues, Option.bind_eq_bind, Option.bind_eq_some_iff] at hstats
      obtain ⟨first, hfirst, rest, hrest, happend⟩ := hstats
      obtain rfl := Option.some.inj happend
      intro entry hentry
      rcases List.mem_append.mp hentry with hentry | hentry
      · exact h.mem_statsFrom (fun _ => h.within.first) hfirst entry hentry
      · exact ih hrest entry hentry

/-- The entries of `GetTasksStats`. -/
theorem Chronicle.exists_tasksStats (h : Chronicle s histories) {fuel container : ℕ}
    {result : ℤ}
    (hhandle : handle (entered s trap) fuel trap (.getTasksStats container) =
      some (result, s')) :
    ∃ stats, s'.log = s.log ++ [.tasksStats container stats] ∧
      ∀ entry ∈ stats.tasks, ∃ index, InTable index ∧ entry = statsOf (s.task index) := by
  obtain ⟨tasks, htasks, hlog, _⟩ := Kernel.exists_tasksStats (tasksStats_of_handle hhandle)
  have hentered : Tabled (entered s trap) := ⟨h.tabled.within, h.tabled.current, h.tabled.outside⟩
  have hroutine := routine_enqueueStatefulPriorityTaskQueue (entered s trap)
    fun _ => hentered.current h.running
  have htask : (enqueueStatefulPriorityTaskQueue (entered s trap)
      (entered s trap).current).task = s.task := by
    rw [enqueueStatefulPriorityTaskQueue, State.useState]
    split_ifs <;> rfl
  refine ⟨_, hlog, ?_⟩
  rw [← htask]
  exact (hroutine.tabled hentered).mem_statsOfQueues htasks

/-- A tid belongs to one descriptor only. -/
theorem Chronicle.index_eq_slot (h : Chronicle s histories) {index : ℤ}
    (hindex : InTable index) (htid : (s.task index).tid = tid) (hnonneg : 0 ≤ tid) :
    index = slot tid := by
  have hemod := h.tid_emod hindex
  rw [htid] at hemod
  rw [slot, Int.tmod_eq_emod_of_nonneg hnonneg, hemod]

/-- What is reported for a task is what its descriptor says. -/
theorem Chronicle.reports_iff (h : Chronicle s histories) (halive : isTaskAlive s tid)
    {stats : TaskStats} : Reports s tid stats ↔ stats = statsOf (s.task (slot tid)) := by
  have hreports : ∀ trap container, (taskStatsHandler (entered s trap) tid container).log =
      s.log ++ [.taskStats container (statsOf (s.task (slot tid)))] :=
    fun trap container => (records_taskStatsHandler (entered s trap) tid container).log
  constructor
  · rintro (⟨hhandle, hlog⟩ | ⟨hhandle, hlog, hmem, htid⟩)
    · rw [← eq_of_handle hhandle, hreports, List.append_cancel_left_eq, List.singleton_inj,
        Event.taskStats.injEq] at hlog
      exact hlog.2.symm
    · obtain ⟨all, hall, hentries⟩ := h.exists_tasksStats hhandle
      rw [hall, List.append_cancel_left_eq, List.singleton_inj, Event.tasksStats.injEq] at hlog
      rw [← hlog.2] at hmem
      obtain ⟨index, hindex, rfl⟩ := hentries stats hmem
      rw [h.index_eq_slot hindex htid (nonneg_of_alive halive)]
  · rintro rfl
    exact .taskStats (rfl : handle (entered s (sampleTrap 0)) 0 (sampleTrap 0) _ = some (_, _))
      (hreports (sampleTrap 0) 0)

/-- The statistics of a task that is alive count its own activations only exactly when
those of the earlier tasks of its descriptor count for nothing. -/
theorem Chronicle.ownStats_iff (h : Chronicle s histories) (halive : isTaskAlive s tid) :
    OwnStats s tid (histories (slot tid)) ↔ (histories (slot tid)).Unspent := by
  rw [← (h.booked (slot tid)).countsOwn_iff]
  constructor
  · exact fun howns => howns _ ((h.reports_iff halive).mpr rfl)
  · intro howned stats hreports
    rw [(h.reports_iff halive).mp hreports]
    exact howned

end Reports

theorem TaskStats.CountsOwn.agrees {stats stats' : TaskStats} {history history' : History}
    (h : stats.CountsOwn history) (h' : stats'.CountsOwn history')
    (hactivations : history'.activations = history.activations)
    (hcharges : history'.charges = history.charges) : stats.Agrees stats' where
  numActivates := by rw [h.numActivates, h'.numActivates, hactivations]
  allowedUserTime := by rw [h.allowedUserTime, h'.allowedUserTime, hactivations]
  usedUserTime := by rw [h.usedUserTime, h'.usedUserTime, hcharges]

theorem chronicle_of_reachable {s : State} {histories : ℤ → History}
    (hreachable : Reachable chronicled (fun _ _ => True) (s, histories)) :
    Chronicle s histories := by
  apply @Reachable.recorded_invariant _ _ kernel (fun _ _ => True) _ _ _ Chronicle _ _ hreachable
  · exact fun s hbooted => hbooted.chronicle
  · exact fun h _ hstep => h.step hstep

/-- In every run the statistics reported for a task that is alive count its own
activations only exactly when those of the earlier tasks of its descriptor count for nothing;
then every other such run that agrees since the task was created reports the same. -/
theorem ownStats_iff_of_reachable {s : State} {histories : ℤ → History} {tid : ℤ}
    (hreachable : Reachable chronicled (fun _ _ => True) (s, histories))
    (halive : isTaskAlive s tid) :
    (OwnStats s tid (histories (slot tid)) ↔ (histories (slot tid)).Unspent) ∧
      ∀ s' histories', Reachable chronicled (fun _ _ => True) (s', histories') →
        isTaskAlive s' tid →
        (histories' (slot tid)).activations = (histories (slot tid)).activations →
        (histories' (slot tid)).charges = (histories (slot tid)).charges →
        (histories (slot tid)).Unspent → (histories' (slot tid)).Unspent →
        ∀ stats stats', Reports s tid stats → Reports s' tid stats' → stats.Agrees stats' := by
  have hiff := (chronicle_of_reachable hreachable).ownStats_iff halive
  refine ⟨hiff, ?_⟩
  intro s' histories' hreachable' halive' hactivations hcharges hearlier hearlier'
    stats stats' hreports hreports'
  have hiff' := (chronicle_of_reachable hreachable').ownStats_iff halive'
  exact (hiff.mpr hearlier stats hreports).agrees (hiff'.mpr hearlier' stats' hreports')
    hactivations hcharges

/-- The second task has run twice. -/
theorem ownStats_sample :
    ∃ (s : State) (histories : ℤ → History), sampleRun sampleOrphan = some s ∧
      (s.task 2).numActivates = 2 ∧
      (OwnStats s 2 (histories (slot 2)) ↔ (histories (slot 2)).Unspent) := by
  have hobserved : (sampleRun sampleOrphan).map (fun s =>
      ((s.task 2).numActivates, isTaskAlive s 2)) = some (2, true) := by decide +kernel
  obtain ⟨s, hrun, hvalues⟩ := Option.map_eq_some_iff.mp hobserved
  obtain ⟨hactivated, halive⟩ := Prod.mk.inj hvalues
  have hbefore : Reachable kernel (fun _ _ => True) s :=
    reachable_of_rounds hrun (fun _ _ _ => trivial)
  obtain ⟨histories, hreachable⟩ := hbefore.recording beginHistories chronicles.record
  exact ⟨s, histories, hrun, hactivated, (ownStats_iff_of_reachable hreachable halive).1⟩

/-! ## A descriptor that is used again -/

section Reuse

variable {s s' : State} {histories : ℤ → History} {action : Action}

/-- Beyond that, histories only grow, and only that of the next task. -/
theorem exists_record (s : State) (action : Action) (s' : State)
    (histories : ℤ → History) (index : ℤ) :
    ∃ more, (index ≠ s'.current → more = []) ∧
      (chronicles.record s action s' histories index).earlier =
        (chronicles.openedBooks s action histories index).earlier ∧
      (chronicles.record s action s' histories index).activations =
        (chronicles.openedBooks s action histories index).activations ++ more := by
  generalize hopened : chronicles.openedBooks s action histories = opened
  have hcharged : ∀ charge : Word,
      (update opened s.current ((opened s.current).charged charge) index).earlier =
          (opened index).earlier ∧
        (update opened s.current ((opened s.current).charged charge) index).activations =
          (opened index).activations := by
    intro charge
    by_cases hindex : index = s.current
    · subst hindex
      rw [update_self]
      exact ⟨rfl, rfl⟩
    · rw [update_of_ne hindex]
      exact ⟨rfl, rfl⟩
  obtain ⟨hearlier, hactivations⟩ := hcharged (chargeOf s action)
  rw [Bookkeeping.record, hopened, ← hearlier, ← hactivations]
  by_cases hindex : index = s'.current
  · subst hindex
    rw [update_self]
    exact ⟨[_], fun hne => absurd rfl hne, rfl, rfl⟩
  · rw [update_of_ne hindex]
    exact ⟨[], fun _ => rfl, rfl, (List.append_nil _).symm⟩

/-- The task `tid` of the descriptor has ended after `count` activations in all, or is about
to run again; the next one has `count` earlier activations; or that one has ended as well. -/
def Inherits (index tid : ℤ) (count : Word) (s : State) (histories : ℤ → History) : Prop :=
  (s.task index).tid = tid ∧
      (BitVec.ofNat 32
        ((histories index).earlier.length + (histories index).activations.length) = count ∨
          s.currentTask = some index) ∨
    (s.task index).tid = tid + maxTasks ∧
      BitVec.ofNat 32 (histories index).earlier.length = count ∨
    tid + maxTasks < (s.task index).tid

/-- A round in which another task runs. -/
theorem Inherits.step {index tid : ℤ} {count : Word} (h : Inherits index tid count s histories)
    (hchronicle : Chronicle s histories) (hother : s.currentTask ≠ some index)
    (hstep : Step s action s') :
    Inherits index tid count s' (chronicles.record s action s' histories) := by
  obtain ⟨haccounts, hrunning, _⟩ := hchronicle.tabled.accounts_step hchronicle.running hstep
  obtain ⟨more, hmore, hearlier, hactivations⟩ := exists_record s action s' histories index
  have htid := congrArg Account.tid (congrFun haccounts index)
  rw [tid_bookedAccounts] at htid
  have hmax : 0 < maxTasks := by decide
  rw [Inherits, hearlier, hactivations]
  rcases openedBooks_cases chronicles s action histories index with
    ⟨hsame, hkept⟩ | ⟨hraised, hopened⟩
  · have htid' : (s'.task index).tid = (s.task index).tid := htid.trans hsame
    rw [hkept, htid']
    rcases h with ⟨hold, hcount⟩ | hnext | hlater
    · refine .inl ⟨hold, ?_⟩
      by_cases hindex : index = s'.current
      · exact .inr (hrunning.trans (congrArg some hindex.symm))
      · rw [hmore hindex, List.append_nil]
        exact .inl (hcount.resolve_right hother)
    · exact .inr (.inl hnext)
    · exact .inr (.inr hlater)
  · have htid' : (s'.task index).tid = (s.task index).tid + maxTasks := htid.trans hraised
    have hmoved : (chronicles.opened (histories index)).earlier =
        (histories index).earlier ++ (histories index).activations := rfl
    rw [hopened, htid', hmoved, List.length_append]
    rcases h with ⟨hold, hcount⟩ | ⟨hnext, _⟩ | hlater
    · exact .inr (.inl ⟨by rw [hold], hcount.resolve_right hother⟩)
    · exact .inr (.inr (by omega))
    · exact .inr (.inr (by omega))

end Reuse

/-- The descriptor of the second task is used again; the statistics of the next task count
the activations of the second one. -/
theorem not_ownStats_of_reachable :
    ¬∀ (s : State) (histories : ℤ → History) (tid : ℤ),
      Reachable chronicled (fun _ _ => True) (s, histories) → isTaskAlive s tid →
        OwnStats s tid (histories (slot tid)) := by
  intro hclaim
  obtain ⟨s, l, front, hreachable, hreigns, havailable, htwo, hactivated, _⟩ :=
    exists_sampleOrphan
  obtain ⟨t, lt, hpath, ht, hslot, _, _, hnew, _⟩ := hreigns.exists_reuse havailable
  rw [htwo] at hnew
  obtain ⟨histories, hbefore⟩ := hreachable.weaken.recording beginHistories chronicles.record
  obtain ⟨histories', hrest⟩ := @Path.recording _ _ _ _ _ beginHistories chronicles.record _ _
    hpath histories
  have hstart : Chronicle s histories := chronicle_of_reachable hbefore
  have hend : Chronicle t histories' ∧ Inherits 2 2 2 t histories' := by
    apply @Path.preserves _ _ _ _ _ _
      (fun p => Chronicle p.1 p.2 ∧ Inherits 2 2 2 p.1 p.2) hrest
    · rintro p action p' ⟨hchronicle, hinherits⟩ hrefills ⟨hstep, heq⟩
      rw [heq]
      exact ⟨hchronicle.step hstep, hinherits.step hchronicle hrefills.other hstep⟩
    · exact ⟨hstart, .inl ⟨htwo, .inl ((hstart.booked 2).numActivates.symm.trans hactivated)⟩⟩
  have halive : isTaskAlive t (2 + maxTasks) := by
    have hrunning := ht.dispatched.running
    rw [hslot] at hrunning
    have hstate : (t.task (slot (2 + maxTasks))).state = .active := hrunning
    exact isTaskAlive_iff.mpr ⟨by decide, by decide, hnew, by rw [hstate]; decide⟩
  have howns := (hend.1.ownStats_iff halive).mp
    (hclaim t histories' _ (hbefore.path (hrest.mono fun _ => trivial)) halive)
  rcases hend.2 with ⟨hold, _⟩ | ⟨_, hearlier⟩ | hlater
  · rw [hnew] at hold
    exact absurd hold (by decide)
  · exact absurd (hearlier.symm.trans howns.activations) (by decide)
  · rw [hnew] at hlater
    exact absurd hlater (by decide)

end Rtk.Kernel
