import Rtk.Invariant.Accounts

/-!
# Bookings

What a round books in the accounts: a successful `Create` opens one, `SaveTaskState` charges
the task that ran for the time since its activation, and `ScheduleAndActivate` allows the
next task the time that is left.  No state is excluded.
-/

namespace Rtk.Kernel

open Function
open Rtk.ByteMemory
open Rtk.Lib
open Rtk.Lib.QueueHeap

def State.accounts (s : State) : ℤ → Account := fun index => (s.task index).account

/-- The account of the next task of a descriptor: `CreateTask` resets one field. -/
def Account.opened (account : Account) : Account :=
  { account with tid := account.tid + maxTasks, usedUserTime := 0 }

/-- The account once `SaveTaskState` has booked the time until `timer`. -/
def Account.charged (account : Account) (timer : Word) : Account :=
  { account with
    usedUserTime := account.usedUserTime + (account.lastActivateAt - timer) / 100 }

/-- The account once `ScheduleAndActivate` has booked an activation. -/
def Account.activated (account : Account) (now : Word) : Account :=
  { account with
    numActivates := account.numActivates + 1
    lastActivateAt := now
    allowedUserTime := account.allowedUserTime + now / 100 }

/-- The descriptor that a `Create` takes and the tid that it returns, if it is
successful. -/
def createdBy (s : State) : Action → Option (ℤ × ℤ)
  | .call (.create priority code) trap =>
      if priority < Priority.highest.value ∨ Priority.low.value < priority then none
      else (s.taskQueues.queue .available).first.map fun index =>
        (index, (createTaskSafe (entered s trap) priority code).1)
  | _ => none

def openedAccounts (s : State) (action : Action) : ℤ → Account :=
  match createdBy s action with
  | some (index, _) => update s.accounts index (s.accounts index).opened
  | none => s.accounts

/-- The timer value up to which `SaveTaskState` charges the task that ran. -/
def Action.savedTime : Action → Word
  | .call _ trap => if trap.timer.wentOffAtSave then 0 else trap.timer.entry
  | .interrupt _ trap =>
      if trap.timer.wentOffAtSave then 0
      else if trap.timer.wentOffAtIrq then 0 else trap.timer.entry

/-- The accounts after the round, in which task `next` is activated. -/
def bookedAccounts (s : State) (action : Action) (next : ℤ) : ℤ → Account :=
  let opened := openedAccounts s action
  let charged := update opened s.current ((opened s.current).charged action.savedTime)
  update charged next ((charged next).activated action.trap.timer.activation)

section Bookings

variable {s s' : State} {trap : Trap}

theorem KeepsAccounts.accounts (h : KeepsAccounts s s') : s'.accounts = s.accounts :=
  funext h.account

theorem accounts_setTask (s : State) (index : ℤ) (task : Task) :
    (s.setTask index task).accounts = update s.accounts index task.account := by
  funext other
  by_cases hother : other = index
  · rw [hother, State.accounts, State.setTask_self, update_self]
  · rw [State.accounts, State.setTask_of_ne _ _ hother, update_of_ne hother]
    rfl

/-- Rewriting one descriptor of the table. -/
theorem Tabled.setTask (h : Tabled s) {index : ℤ} (hindex : InTable index) (task : Task) :
    Tabled (s.setTask index task) where
  within := h.within
  current := h.current
  outside := by
    intro other hother
    have hne : other ≠ index := by
      rintro rfl
      exact hother hindex
    rw [State.setTask_of_ne _ _ hne]
    exact h.outside hother

/-- From `s` to `s'` the accounts become `accounts`, and the same task is running. -/
structure Books (s : State) (accounts : ℤ → Account) (s' : State) : Prop where
  accounts : s'.accounts = accounts
  currentTask : s'.currentTask = s.currentTask
  tabled : Tabled s'

theorem KeepsAccounts.books (h : KeepsAccounts s s') (htabled : Tabled s) :
    Books s s.accounts s' :=
  ⟨h.accounts, h.currentTask, h.tabled htabled⟩

theorem Books.keeps {accounts : ℤ → Account} {s'' : State} (h : Books s accounts s')
    (hkeeps : KeepsAccounts s' s'') : Books s accounts s'' :=
  ⟨hkeeps.accounts.trans h.accounts, hkeeps.currentTask.trans h.currentTask,
    hkeeps.tabled h.tabled⟩

/-- `CreateTask` opens the account of the descriptor it has taken. -/
theorem Tabled.books_startTask (h : Tabled s) {index : ℤ} (hindex : InTable index)
    (priority : Priority) (code : Word) :
    Books s (update s.accounts index (s.accounts index).opened)
      (startTask s index priority code).2 := by
  have hcleared : KeepsAccounts s
      { s with taskQueues := s.taskQueues.setNode index QueueNode.null } :=
    .of_task_eq rfl rfl fun h => h.within.setNode_null index
  have hset : Books s (update s.accounts index (s.accounts index).opened)
      ({ s with taskQueues := s.taskQueues.setNode index QueueNode.null }.setTask index
        (newTask s (s.task index) priority code)) :=
    ⟨accounts_setTask _ _ _, rfl, (hcleared.tabled h).setTask hindex _⟩
  have hstored := hset.keeps (routine_storeWord _ ((s.task index).stack + (stackSizeBytes - 4))
    s.image.exit).toKeepsAccounts
  have hadopted : ∀ (middle : State) (siblings : QueueHeap ℤ ℤ),
      KeepsAccounts middle { middle with siblings := siblings } :=
    fun _ _ => .of_task_eq rfl rfl Tabled.within
  have hscheduled : ∀ middle : State, KeepsAccounts middle (scheduleTask middle index) :=
    fun _ => (routine_enqueueStatefulPriorityTaskQueue _ fun _ => hindex).toKeepsAccounts
  have hcounted : ∀ middle : State,
      KeepsAccounts middle { middle with numTasks := middle.numTasks + 1 } :=
    fun middle => keepsAccounts_numTasks middle _
  rw [startTask]
  dsimp only
  split
  · exact (((hstored.keeps (hadopted _ _)).keeps (hadopted _ _)).keeps (hscheduled _)).keeps
      (hcounted _)
  · exact ((hstored.keeps (hadopted _ _)).keeps (hscheduled _)).keeps (hcounted _)

/-- The handler of a system call opens at most one account. -/
theorem Tabled.books_handle (h : Tabled s) (hrunning : s.currentTask = some s.current)
    {call : Call} {fuel : ℕ} {result : ℤ}
    (hhandle : handle (entered s trap) fuel trap call = some (result, s')) :
    Books s (openedAccounts s (.call call trap)) s' := by
  have hentered : KeepsAccounts s (entered s trap) := .of_task_eq rfl rfl Tabled.within
  by_cases hcreate : ∃ priority code, call = .create priority code
  · obtain ⟨priority, code, rfl⟩ := hcreate
    obtain rfl := eq_of_handle hhandle
    rw [openedAccounts, createdBy, createTaskSafe]
    split_ifs with hpriority
    · exact hentered.books h
    · cases hfirst : (s.taskQueues.queue .available).first with
      | none =>
          rw [createTask, (entered s trap).taskQueues.dequeueQueue_of_first_none _ hfirst]
          exact hentered.books h
      | some index =>
          have hindex : InTable index := h.within.first hfirst
          have hdequeued : KeepsAccounts s
              { entered s trap with taskQueues := (s.taskQueues.dequeueQueue .available).2 } :=
            .of_task_eq rfl rfl fun h => h.within.dequeueQueue _
          have hstarted := (hdequeued.tabled h).books_startTask hindex
            (Priority.ofInt priority) code
          have htaken : (entered s trap).taskQueues.dequeueQueue .available =
              (some index, (s.taskQueues.dequeueQueue .available).2) :=
            Prod.ext (hfirst ▸ s.taskQueues.fst_dequeueQueue .available) rfl
          rw [createTask, htaken]
          exact ⟨hstarted.accounts, hstarted.currentTask, hstarted.tabled⟩
  · have hother : ∀ priority code, call ≠ .create priority code :=
      fun priority code heq => hcreate ⟨priority, code, heq⟩
    have hopened : openedAccounts s (.call call trap) = s.accounts := by
      rw [openedAccounts]
      cases call with
      | create priority code => exact absurd rfl (hother priority code)
      | _ => rfl
    rw [hopened]
    exact (hentered.trans (keepsAccounts_handle hother hrunning hhandle)).books h

/-- The handler of an interrupt books nothing. -/
theorem Tabled.books_handleIrq (h : Tabled s) {fuel : ℕ} {intrCode : ℤ}
    {timer : TimerReadings} {time : Word}
    (hirq : handleIrq (entered s trap) fuel intrCode timer = some (time, s')) :
    Books s s.accounts s' ∧ time = if timer.wentOffAtIrq then 0 else timer.entry := by
  have hentered : KeepsAccounts s (entered s trap) := .of_task_eq rfl rfl Tabled.within
  obtain ⟨⟨middle, hroutine, hkeeps, _⟩, htime⟩ := exists_handleIrq hirq
  exact ⟨((hentered.trans hkeeps).trans hroutine.toKeepsAccounts).books h, htime⟩

/-- `SaveTaskState` charges the running task. -/
theorem Books.saveTaskState {accounts : ℤ → Account} (h : Books s accounts s')
    (hrunning : s.currentTask = some s.current) (spsr : Word) (sp : ℕ) (pc timer : Word)
    (wentOff : Bool) :
    Books s (update accounts s.current
        ((accounts s.current).charged (if wentOff then 0 else timer)))
      (Kernel.saveTaskState s' spsr sp pc timer wentOff) := by
  have hcurrent : s'.current = s.current := by rw [State.current, State.current, h.currentTask]
  have hindex : InTable s.current := h.tabled.current (h.currentTask.trans hrunning)
  rw [Kernel.saveTaskState, hcurrent]
  refine ⟨?_, h.currentTask, h.tabled.setTask hindex _⟩
  rw [accounts_setTask, ← h.accounts]
  rfl

/-- The activation of the next task is booked. -/
theorem Tabled.accounts_activateNext (h : Tabled s) {now : Word}
    (hactivate : activateNext s now = some s') :
    s'.accounts = update s.accounts s'.current ((s.accounts s'.current).activated now) ∧
      s'.currentTask = some s'.current ∧ Tabled s' := by
  obtain ⟨middle, next, hroutine, hnext, rfl⟩ := exists_activateNext hactivate
  have hindex := hnext h
  have hmiddle := hroutine.tabled h
  have hchosen : Tabled { middle with currentTask := some next } :=
    ⟨hmiddle.within, fun hsome => Option.some.inj hsome ▸ hindex, hmiddle.outside⟩
  refine ⟨?_, rfl, hchosen.setTask hindex _⟩
  rw [accounts_setTask, ← hroutine.accounts]
  rfl

theorem Books.accounts_scheduleAndActivate {accounts : ℤ → Account} {saved : State}
    (h : Books s accounts saved) (hrunning : s.currentTask = some s.current) {now : Word}
    (hactivate : scheduleAndActivate saved now = some s') :
    s'.accounts = update accounts s'.current ((accounts s'.current).activated now) ∧
      s'.currentTask = some s'.current ∧ Tabled s' := by
  have hcurrent : saved.current = s.current := by
    rw [State.current, State.current, h.currentTask]
  have hscheduled := h.keeps
    (routine_scheduleCurrent (h.currentTask.trans (hcurrent ▸ hrunning))).toKeepsAccounts
  have hactivated := hscheduled.tabled.accounts_activateNext hactivate
  rwa [hscheduled.accounts] at hactivated

/-- A round books what it should. -/
theorem Tabled.accounts_step (h : Tabled s) (hrunning : s.currentTask = some s.current)
    {action : Action} (hstep : Step s action s') :
    s'.accounts = bookedAccounts s action s'.current ∧
      s'.currentTask = some s'.current ∧ Tabled s' := by
  obtain ⟨fuel, hstep⟩ := hstep
  cases action with
  | call call trap =>
      rw [step] at hstep
      split_ifs at hstep
      obtain ⟨saved, hsvc, hactivate⟩ := Option.bind_eq_some_iff.mp hstep
      obtain ⟨result, middle, hhandle, rfl⟩ := svcEntry_eq_some hsvc
      have hsaved := (h.books_handle hrunning hhandle).saveTaskState hrunning trap.spsr trap.sp
        trap.pc trap.timer.entry trap.timer.wentOffAtSave
      have hreturned : ∀ middle : State,
          KeepsAccounts middle (setCurrentTaskReturnValue middle result) :=
        fun middle => (routine_storeWord middle _ _).toKeepsAccounts
      exact (hsaved.keeps (hreturned _)).accounts_scheduleAndActivate hrunning hactivate
  | interrupt intrCode trap =>
      rw [step] at hstep
      obtain ⟨saved, hirq, hactivate⟩ := Option.bind_eq_some_iff.mp hstep
      obtain ⟨time, middle, hhandle, rfl⟩ := irqEntry_eq_some hirq
      obtain ⟨hbooks, rfl⟩ := h.books_handleIrq hhandle
      have hsaved := hbooks.saveTaskState hrunning trap.spsr trap.sp trap.pc
        (if trap.timer.wentOffAtIrq then 0 else trap.timer.entry) trap.timer.wentOffAtSave
      exact hsaved.accounts_scheduleAndActivate hrunning hactivate

end Bookings

/-! ## Opened accounts -/

section Opened

variable {s s' : State} {action : Action}

theorem openedAccounts_of_some {index tid : ℤ} (hcreated : createdBy s action = some (index, tid)) :
    openedAccounts s action = update s.accounts index (s.accounts index).opened := by
  rw [openedAccounts, hcreated]

theorem openedAccounts_of_none (hcreated : createdBy s action = none) :
    openedAccounts s action = s.accounts := by
  rw [openedAccounts, hcreated]

/-- Opening an account does not touch what the next charge is reckoned from. -/
theorem lastActivateAt_openedAccounts (s : State) (action : Action) (index : ℤ) :
    (openedAccounts s action index).lastActivateAt = (s.task index).lastActivateAt := by
  cases hcreated : createdBy s action with
  | none => rw [openedAccounts_of_none hcreated]; rfl
  | some entry =>
      rw [openedAccounts_of_some hcreated]
      by_cases hindex : index = entry.1
      · rw [hindex, update_self]
        rfl
      · rw [update_of_ne hindex]
        rfl

theorem tid_openedAccounts_cases (s : State) (action : Action) (index : ℤ) :
    (openedAccounts s action index).tid = (s.task index).tid ∨
      (openedAccounts s action index).tid = (s.task index).tid + maxTasks := by
  cases hcreated : createdBy s action with
  | none =>
      rw [openedAccounts_of_none hcreated]
      exact .inl rfl
  | some entry =>
      rw [openedAccounts_of_some hcreated]
      by_cases hindex : index = entry.1
      · rw [hindex, update_self]
        exact .inr rfl
      · rw [update_of_ne hindex]
        exact .inl rfl

/-- Nothing but a `Create` changes a tid. -/
theorem tid_bookedAccounts (s : State) (action : Action) (next index : ℤ) :
    (bookedAccounts s action next index).tid = (openedAccounts s action index).tid := by
  have hupdate : ∀ (accounts : ℤ → Account) (other : ℤ) (account : Account),
      account.tid = (accounts other).tid →
      (update accounts other account index).tid = (accounts index).tid := by
    intro accounts other account htid
    by_cases hindex : index = other
    · rw [hindex, update_self, htid]
    · rw [update_of_ne hindex]
  rw [bookedAccounts, hupdate, hupdate]
  · rfl
  · rfl

end Opened

/-! ## Books beside the accounts -/

/-- What is written down for each descriptor beside its account, when the next task of the
descriptor is created, when a task is charged and when it is activated. -/
structure Bookkeeping (G : Type*) where
  opened : G → G
  charged : G → Word → G
  activated : G → Word → G

section Bookkeeping

variable {G : Type*} (k : Bookkeeping G) {s : State} {action : Action} {books : ℤ → G}

/-- What `SaveTaskState` charges the task that ran. -/
def chargeOf (s : State) (action : Action) : Word :=
  ((s.task s.current).lastActivateAt - action.savedTime) / 100

def Bookkeeping.openedBooks (s : State) (action : Action) (books : ℤ → G) : ℤ → G :=
  match createdBy s action with
  | some (index, _) => update books index (k.opened (books index))
  | none => books

def Bookkeeping.record (s : State) (action : Action) (s' : State) (books : ℤ → G) : ℤ → G :=
  let opened := k.openedBooks s action books
  let charged := update opened s.current (k.charged (opened s.current) (chargeOf s action))
  update charged s'.current (k.activated (charged s'.current) action.trap.timer.activation)

/-- Both the account and the book of one descriptor are rewritten. -/
theorem related_update {related : ℤ → Account → G → Prop} {accounts : ℤ → Account}
    (h : ∀ index, related index (accounts index) (books index)) {changed : ℤ}
    {account : Account} {book : G} (hnew : related changed account book) (index : ℤ) :
    related index (update accounts changed account index) (update books changed book index) := by
  by_cases hindex : index = changed
  · rw [hindex, update_self, update_self]
    exact hnew
  · rw [update_of_ne hindex, update_of_ne hindex]
    exact h index

variable {k}

/-- What holds of all accounts and books still holds when a task has been created. -/
theorem related_openedBooks {related : ℤ → Account → G → Prop}
    (h : ∀ index, related index (s.accounts index) (books index))
    (hopened : ∀ {index account book}, related index account book →
      related index account.opened (k.opened book)) (index : ℤ) :
    related index (openedAccounts s action index) (k.openedBooks s action books index) := by
  rw [Bookkeeping.openedBooks]
  cases hcreated : createdBy s action with
  | none =>
      rw [openedAccounts_of_none hcreated]
      exact h index
  | some entry =>
      rw [openedAccounts_of_some hcreated]
      exact related_update h (hopened (h entry.1)) index

/-- A new tid comes with a new book. -/
theorem openedBooks_cases (k : Bookkeeping G) (s : State) (action : Action) (books : ℤ → G)
    (index : ℤ) :
    (openedAccounts s action index).tid = (s.task index).tid ∧
        k.openedBooks s action books index = books index ∨
      (openedAccounts s action index).tid = (s.task index).tid + maxTasks ∧
        k.openedBooks s action books index = k.opened (books index) := by
  rw [Bookkeeping.openedBooks]
  cases hcreated : createdBy s action with
  | none =>
      rw [openedAccounts_of_none hcreated]
      exact .inl ⟨rfl, rfl⟩
  | some entry =>
      rw [openedAccounts_of_some hcreated]
      dsimp only
      by_cases hindex : index = entry.1
      · right
        subst hindex
        rw [update_self, update_self]
        exact ⟨rfl, rfl⟩
      · left
        rw [update_of_ne hindex, update_of_ne hindex]
        exact ⟨rfl, rfl⟩

end Bookkeeping

/-! ## Boot -/

section Boot

variable (image : Image) (memory : Memory)

def Account.blank (tid : ℤ) : Account := ⟨tid, 0, 0, 0, 0⟩

theorem accounts_created (s : State) (index : ℤ) (priority : Priority) (code : Word) :
    (created s index priority code).accounts =
      update s.accounts index (s.accounts index).opened := by
  funext other
  by_cases hother : other = index
  · rw [hother, update_self, State.accounts, task_created_self]
    rfl
  · rw [update_of_ne hother, State.accounts, task_created_of_ne priority code hother]
    rfl

theorem Tabled.created {s : State} (h : Tabled s) {index : ℤ} (hindex : InTable index)
    (hcurrent : s.currentTask = none) (priority : Priority) (code : Word) :
    Tabled (Kernel.created s index priority code) where
  within := (h.within.dequeueQueue _).enqueueQueue _ hindex
  current := by
    intro other hother
    have hnone : (Kernel.created s index priority code).currentTask = none := hcurrent
    rw [hnone] at hother
    simp at hother
  outside := by
    intro other hother
    have hne : other ≠ index := by
      rintro rfl
      exact hother hindex
    rw [task_created_of_ne priority code hne]
    exact h.outside hother

theorem accounts_tableState (index : ℤ) :
    (tableState image memory).accounts index =
      .blank (if InTable index then index - maxTasks else 0) := by
  by_cases hindex : InTable index
  · rw [State.accounts, task_tableState image memory hindex, if_pos hindex]
    rfl
  · have hrange : ¬(0 ≤ index ∧ index < ((1024 : ℕ) : ℤ)) := hindex
    rw [State.accounts, tableState, initialState, if_neg hindex]
    simp only [initialTask, if_neg hrange]
    rfl

theorem tabled_tableState : Tabled (tableState image memory) where
  within := by
    constructor
    · intro queue node hnode
      cases queue with
      | available =>
          rw [← Option.some.inj hnode]
          decide
      | states state priority => simp [tableState, initialState, initialLinks, Queue.null] at hnode
    · intro queue node hnode
      cases queue with
      | available =>
          rw [← Option.some.inj hnode]
          decide
      | states state priority => simp [tableState, initialState, initialLinks, Queue.null] at hnode
    · intro node after hafter
      simp only [tableState, initialState, initialLinks] at hafter
      rw [InTable, maxTasks]
      split_ifs at hafter <;> simp [QueueNode.null] at hafter <;> omega
    · intro node before hbefore
      simp only [tableState, initialState, initialLinks] at hbefore
      rw [InTable, maxTasks]
      split_ifs at hbefore <;> simp [QueueNode.null] at hbefore <;> omega
  current := by
    intro index hindex
    simp [tableState, initialState, staticState] at hindex
  outside := by
    intro index hindex
    have haccount := accounts_tableState image memory index
    rw [if_neg hindex] at haccount
    exact congrArg Account.tid haccount

/-- The accounts once both tasks are created. -/
theorem accounts_launchedState (index : ℤ) :
    ∃ tid, (launchedState image memory).accounts index = .blank tid ∧
      (InTable index → tid = if index = 0 ∨ index = 1 then index else index - maxTasks) := by
  rw [launchedState, accounts_created, nullState, accounts_created]
  by_cases hone : index = 1
  · subst index
    rw [update_self, update_of_ne (by decide), accounts_tableState]
    exact ⟨1, rfl, fun _ => rfl⟩
  by_cases hzero : index = 0
  · subst index
    rw [update_of_ne (by decide), update_self, accounts_tableState]
    exact ⟨0, rfl, fun _ => rfl⟩
  · rw [update_of_ne hone, update_of_ne hzero, accounts_tableState]
    refine ⟨_, rfl, ?_⟩
    intro hindex
    simp [hindex, hone, hzero]

theorem tabled_launchedState : Tabled (launchedState image memory) := by
  have hnull : Tabled (nullState image memory) :=
    (tabled_tableState image memory).created (by decide) rfl _ _
  exact hnull.created (by decide) rfl _ _

variable {image memory}

/-- The first activation is booked. -/
theorem accounts_of_launch {s : State} {now : Word}
    (hactivate : scheduleAndActivate (rtkLaunch image memory) now = some s) :
    s.accounts = update (launchedState image memory).accounts s.current
        (((launchedState image memory).accounts s.current).activated now) ∧
      s.currentTask = some s.current ∧ Tabled s := by
  rw [rtkLaunch_eq, scheduleAndActivate, scheduleCurrent,
    (prepared_launchedState image memory).currentTask] at hactivate
  exact (tabled_launchedState image memory).accounts_activateNext hactivate

/-- The tids at the first activation. -/
theorem tid_of_launch {s : State} {now : Word}
    (hactivate : scheduleAndActivate (rtkLaunch image memory) now = some s) {index : ℤ}
    (hindex : InTable index) :
    (s.task index).tid = if index = 0 ∨ index = 1 then index else index - maxTasks := by
  obtain ⟨haccounts, _⟩ := accounts_of_launch hactivate
  obtain ⟨tid, hblank, htid⟩ := accounts_launchedState image memory index
  have hsame : (s.accounts index).tid = ((launchedState image memory).accounts index).tid := by
    rw [haccounts]
    by_cases hcurrent : index = s.current
    · rw [← hcurrent, update_self]
      rfl
    · rw [update_of_ne hcurrent]
  rw [hblank] at hsame
  exact hsame.trans (htid hindex)

end Boot

end Rtk.Kernel
