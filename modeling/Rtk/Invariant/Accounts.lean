import Rtk.Invariant.Boot

/-!
# Accounts

The kernel keeps account of its tasks in their descriptors: the tid, how often a task was
activated and what user time it was allowed and has used.  In whatever state it starts, a
handler opens at most one account and changes no other; only what surrounds the handler
books anything.
-/

namespace Rtk.Kernel

open Function
open Rtk.ByteMemory
open Rtk.Lib
open Rtk.Lib.QueueHeap

/-- The fields in which a descriptor keeps account of its task. -/
@[ext]
structure Account where
  tid : ℤ
  numActivates : Word
  lastActivateAt : Word
  allowedUserTime : Word
  usedUserTime : Word

def Task.account (task : Task) : Account where
  tid := task.tid
  numActivates := task.numActivates
  lastActivateAt := task.lastActivateAt
  allowedUserTime := task.allowedUserTime
  usedUserTime := task.usedUserTime

/-- The scheduler links descriptors of the table only, the running task is one of them,
and no descriptor outside has been used. -/
structure Tabled (s : State) : Prop where
  within : s.taskQueues.Within InTable
  current : ∀ {index}, s.currentTask = some index → InTable index
  outside : ∀ {index}, ¬InTable index → (s.task index).tid = 0

/-- `s'` has the accounts of `s`, and the same task is running. -/
structure KeepsAccounts (s s' : State) : Prop where
  account : ∀ index, (s'.task index).account = (s.task index).account
  currentTask : s'.currentTask = s.currentTask
  within : Tabled s → s'.taskQueues.Within InTable

/-- From `s` to `s'`, besides, no task is created or ends, and the same interrupts are
enabled. -/
structure Routine (s s' : State) : Prop extends KeepsAccounts s s' where
  numTasks : s'.numTasks = s.numTasks
  enabled : s'.enabled = s.enabled

section Accounts

variable {s s' s'' : State}

theorem KeepsAccounts.tid (h : KeepsAccounts s s') (index : ℤ) :
    (s'.task index).tid = (s.task index).tid :=
  congrArg Account.tid (h.account index)

theorem KeepsAccounts.tabled (h : KeepsAccounts s s') (htabled : Tabled s) : Tabled s' where
  within := h.within htabled
  current := by
    rw [h.currentTask]
    exact htabled.current
  outside := by
    intro index hindex
    rw [h.tid]
    exact htabled.outside hindex

theorem KeepsAccounts.refl (s : State) : KeepsAccounts s s :=
  ⟨fun _ => rfl, rfl, fun h => h.within⟩

theorem KeepsAccounts.trans (hleft : KeepsAccounts s s') (hright : KeepsAccounts s' s'') :
    KeepsAccounts s s'' where
  account index := (hright.account index).trans (hleft.account index)
  currentTask := hright.currentTask.trans hleft.currentTask
  within h := hright.within (hleft.tabled h)

theorem Routine.refl (s : State) : Routine s s := ⟨.refl s, rfl, rfl⟩

theorem Routine.trans (hleft : Routine s s') (hright : Routine s' s'') : Routine s s'' :=
  ⟨hleft.toKeepsAccounts.trans hright.toKeepsAccounts, hright.numTasks.trans hleft.numTasks,
    hright.enabled.trans hleft.enabled⟩

theorem KeepsAccounts.of_task_eq (htask : s'.task = s.task)
    (hcurrent : s'.currentTask = s.currentTask)
    (hqueues : Tabled s → s'.taskQueues.Within InTable) : KeepsAccounts s s' := by
  refine ⟨?_, hcurrent, hqueues⟩
  rw [htask]
  exact fun _ => rfl

theorem Routine.of_task_eq (htask : s'.task = s.task)
    (hcurrent : s'.currentTask = s.currentTask) (hqueues : s'.taskQueues = s.taskQueues)
    (hnum : s'.numTasks = s.numTasks) (henabled : s'.enabled = s.enabled) : Routine s s' := by
  refine ⟨.of_task_eq htask hcurrent ?_, hnum, henabled⟩
  rw [hqueues]
  exact Tabled.within

/-- Rewriting one descriptor without its account. -/
theorem Routine.of_update {index : ℤ} {task : Task} (htask : s'.task = update s.task index task)
    (haccount : task.account = (s.task index).account)
    (hcurrent : s'.currentTask = s.currentTask) (hqueues : s'.taskQueues = s.taskQueues)
    (hnum : s'.numTasks = s.numTasks) (henabled : s'.enabled = s.enabled) : Routine s s' := by
  refine ⟨⟨?_, hcurrent, ?_⟩, hnum, henabled⟩
  · intro other
    rw [htask]
    by_cases hother : other = index
    · rw [hother, update_self, haccount]
    · rw [update_of_ne hother]
  · rw [hqueues]
    exact Tabled.within

/-- The current descriptor is in the table, when a task is running. -/
theorem Tabled.inTable_of_tid (h : Tabled s) {tid : ℤ} (htid : (s.task (slot tid)).tid = tid) :
    InTable (slot tid) := by
  by_contra hnot
  -- an unused descriptor outside the table has the tid of descriptor 0
  rw [h.outside hnot] at htid
  rw [← htid] at hnot
  exact hnot (by decide)

/-! ## Single writes -/

theorem routine_useDescriptor (s : State) (index : ℤ) : Routine s (s.useDescriptor index) := by
  rw [State.useDescriptor]
  split_ifs
  · exact .refl s
  · exact .of_task_eq rfl rfl rfl rfl rfl

theorem routine_useState (s : State) (state : TaskState) : Routine s (s.useState state) := by
  rw [State.useState]
  split_ifs
  · exact .refl s
  · exact .of_task_eq rfl rfl rfl rfl rfl

theorem routine_storeWord (s : State) (address : ℕ) (word : Word) :
    Routine s (s.storeWord address word) :=
  .of_task_eq rfl rfl rfl rfl rfl

theorem routine_copy (s : State) (dest src num : ℕ) : Routine s (s.copy dest src num) :=
  .of_task_eq rfl rfl rfl rfl rfl

theorem routine_emit (s : State) (event : Event) : Routine s (s.emit event) :=
  .of_task_eq rfl rfl rfl rfl rfl

theorem routine_storeTaskStats (s : State) (container : ℕ) (stats : TaskStats) :
    Routine s (s.storeTaskStats container stats) :=
  .of_task_eq rfl rfl rfl rfl rfl

theorem routine_storeTasksStats (s : State) (container : ℕ) (stats : TasksStats) :
    Routine s (s.storeTasksStats container stats) :=
  .of_task_eq rfl rfl rfl rfl rfl

theorem routine_enqueueStatefulPriorityTaskQueue (s : State) {index : ℤ}
    (hindex : Tabled s → InTable index) :
    Routine s (enqueueStatefulPriorityTaskQueue s index) := by
  apply (routine_useState s (s.task index).state).trans
  refine ⟨.of_task_eq rfl rfl ?_, rfl, rfl⟩
  intro h
  apply h.within.enqueueQueue
  apply hindex
  rw [State.useState] at h
  split_ifs at h
  · exact h
  · exact ⟨h.within, h.current, h.outside⟩

theorem routine_removeStatefulPriorityTaskQueueNode (s : State) (index : ℤ) :
    Routine s (removeStatefulPriorityTaskQueueNode s index) := by
  apply (routine_useState s (s.task index).state).trans
  exact ⟨.of_task_eq rfl rfl fun h => h.within.removeQueueNode _ _, rfl, rfl⟩

theorem routine_setCurrentTaskState (s : State) (state : TaskState) :
    Routine s (setCurrentTaskState s state) :=
  .of_update rfl rfl rfl rfl rfl rfl

theorem routine_setTaskState (s : State) (tid : ℤ) (state : TaskState) :
    Routine s (setTaskState s tid state) := by
  have hused := routine_useDescriptor s (slot tid)
  have hremoved := hused.trans (routine_removeStatefulPriorityTaskQueueNode _ (slot tid))
  have hupdate : ∀ middle : State, Routine middle
      (middle.setTask (slot tid) { middle.task (slot tid) with state := state }) :=
    fun _ => .of_update rfl rfl rfl rfl rfl rfl
  have hset := hremoved.trans (hupdate _)
  simp only [setTaskState]
  split_ifs with htid hrequeue
  · exact hused
  · apply hset.trans
    apply routine_enqueueStatefulPriorityTaskQueue
    intro h
    apply h.inTable_of_tid
    rw [hset.tid, ← hused.tid]
    exact not_not.mp htid
  · exact hset

theorem routine_setTaskReturnValue (s : State) (tid ret : ℤ) :
    Routine s (setTaskReturnValue s tid ret) := by
  rw [setTaskReturnValue]
  split_ifs
  · exact .refl s
  · exact routine_storeWord _ _ _

/-! ## Handlers -/

theorem routine_deliver (s : State) (n : MsgQueueNode) : Routine s (deliver s n) := by
  have hword := routine_storeWord s n.putTid (BitVec.ofInt 32 n.fromTid)
  rw [deliver]
  split_ifs
  · exact hword.trans (routine_copy _ _ _ _)
  · exact hword

theorem routine_completeReceive (s : State) (tid : ℤ) :
    Routine s (completeReceive s tid).2 := by
  have htaken : Routine s ({ s with msgQueues := (s.msgQueues.dequeueQueue (slot tid)).2 }.emit
      (.taken tid (s.node ((s.msgQueues.dequeueQueue (slot tid)).1.getD maxTasks)))) :=
    .of_task_eq rfl rfl rfl rfl rfl
  apply (htaken.trans (routine_deliver _
    (s.node ((s.msgQueues.dequeueQueue (slot tid)).1.getD maxTasks)))).trans
  apply (routine_setTaskState _ _ .replyBlocked).trans
  apply (routine_setTaskState _ _ .ready).trans
  exact routine_setTaskReturnValue _ _ _

theorem routine_sendProxy (s : State) (uninit : MsgQueueNode) (tid : ℤ) (msg : ℕ) (msglen : Word)
    (reply : ℕ) (replylen : Word) :
    Routine s (sendProxy s uninit tid msg msglen reply replylen).2 := by
  have hqueued : ∀ (n : MsgQueueNode) (queues : QueueHeap ℤ ℤ),
      Routine s (setCurrentTaskState
        { (s.copyMsgNode (slot (getCurrentTid s)) n QueueNode.null).emit (.sent n) with
          msgQueues := queues } .receiveBlocked) := by
    intro n queues
    have hlinked : Routine s
        { (s.copyMsgNode (slot (getCurrentTid s)) n QueueNode.null).emit (.sent n) with
          msgQueues := queues } := .of_task_eq rfl rfl rfl rfl rfl
    exact hlinked.trans (routine_setCurrentTaskState _ _)
  have hpointers : ∀ (middle : State) (index : ℤ) (n : MsgQueueNode),
      Routine middle (completeReceive (middle.setMsgNode index n) tid).2 := by
    intro middle index n
    have hset : Routine middle (middle.setMsgNode index n) := .of_task_eq rfl rfl rfl rfl rfl
    exact hset.trans (routine_completeReceive _ _)
  simp only [sendProxy]
  split_ifs
  · exact .refl s
  · exact .refl s
  · exact (hqueued _ _).trans (hpointers _ _ _)
  · exact hqueued _ _

theorem routine_receiveProxy (s : State) (uninit : MsgQueueNode) (links : QueueNode ℤ)
    (tid msg : ℕ) (msglen : Word) :
    Routine s (receiveProxy s uninit links tid msg msglen).2 := by
  have hwaiting : ∀ (middle : State) (index : ℤ) (n : MsgQueueNode) (event : Event),
      Routine middle ((middle.copyMsgNode index n links).emit event) :=
    fun _ _ _ _ => .of_task_eq rfl rfl rfl rfl rfl
  have hpointers : ∀ (index : ℤ) (n : MsgQueueNode), Routine s (s.setMsgNode index n) :=
    fun _ _ => .of_task_eq rfl rfl rfl rfl rfl
  simp only [receiveProxy]
  split_ifs
  · exact (routine_setCurrentTaskState s .sendBlocked).trans (hwaiting _ _ _ _)
  · exact (hpointers _ _).trans (routine_completeReceive _ _)

theorem routine_replyProxy (s : State) (tid : ℤ) (reply : ℕ) (replylen : Word) :
    Routine s (replyProxy s tid reply replylen).2 := by
  by_cases hawaits : Awaiting s tid
  · have hcopied : Routine s (replied s (s.node (slot tid)) reply replylen) := by
      rw [replied]
      split_ifs
      · exact routine_copy _ _ _ _
      · exact .refl s
    rw [hawaits.replyProxy_eq]
    apply hcopied.trans
    exact (routine_setTaskState _ _ _).trans (routine_setTaskReturnValue _ _ _)
  · obtain ⟨error, _, hrefused⟩ := replyProxy_refused hawaits reply replylen
    rw [hrefused]
    exact .refl s

/-- `AwaitEventHandler` enables the interrupt, and is routine but for that. -/
theorem exists_awaitEventHandler (s : State) (intr : Word) :
    ∃ middle, Routine s middle ∧
      awaitEventHandler s intr = (returnStatusOk, enableInterrupt middle intr) := by
  have hset : Routine s
      (s.setTask s.current { s.task s.current with awaitingEventId := intr }) :=
    .of_update rfl rfl rfl rfl rfl rfl
  exact ⟨_, hset.trans (routine_setCurrentTaskState _ .eventBlocked), rfl⟩

theorem routine_setCurrentTaskPriority (s : State) (priority : ℕ) :
    Routine s (setCurrentTaskPriority s priority).2 := by
  rw [setCurrentTaskPriority]
  cases s.currentTask with
  | none => exact .refl s
  | some index =>
      simp only
      split_ifs
      · exact .refl s
      · exact .of_update rfl rfl rfl rfl rfl rfl

theorem routine_taskStatsHandler (s : State) (tid : ℤ) (container : ℕ) :
    Routine s (taskStatsHandler s tid container) :=
  (routine_useDescriptor s (slot tid)).trans (routine_storeTaskStats _ _ _)

theorem routine_tasksStatsHandler {fuel container : ℕ}
    (hrunning : s.currentTask = some s.current)
    (hstats : tasksStatsHandler s fuel container = some s') : Routine s s' := by
  simp only [tasksStatsHandler, Option.bind_eq_bind, Option.bind_eq_some_iff] at hstats
  obtain ⟨tasks, _, hresult⟩ := hstats
  rw [← Option.some.inj hresult]
  apply (routine_enqueueStatefulPriorityTaskQueue s fun h => h.current hrunning).trans
  exact (routine_removeStatefulPriorityTaskQueueNode _ _).trans (routine_storeTasksStats _ _ _)

theorem routine_unblockTaskWaitingOnEventFrom {fuel : ℕ} {intr : Word}
    {priorities : List Priority}
    (hunblock : unblockTaskWaitingOnEventFrom s fuel intr priorities = some s') :
    Routine s s' := by
  induction priorities with
  | nil =>
      rw [← Option.some.inj hunblock]
      exact .refl s
  | cons priority priorities ih =>
      rw [unblockTaskWaitingOnEventFrom] at hunblock
      split at hunblock
      · simp at hunblock
      · exact ih hunblock
      · rw [← Option.some.inj hunblock]
        exact (routine_setTaskState _ _ _).trans (routine_setTaskReturnValue _ _ _)

/-- The enabled interrupts after `HandleIrq`. -/
def maskedBy (enabled : Word) (intrCode : ℤ) : Word :=
  if intrCode < 0 ∧ (1 : Word) <<< (-intrCode).toNat ≠ picTimer01 then
    enabled &&& ~~~((1 : Word) <<< (-intrCode).toNat)
  else enabled

/-- `HandleIrq` disables an interrupt other than the timer's, and is routine but for
that. -/
theorem exists_handleIrq {fuel : ℕ} {intrCode : ℤ} {timer : TimerReadings} {time : Word}
    (hirq : handleIrq s fuel intrCode timer = some (time, s')) :
    (∃ middle, Routine middle s' ∧ KeepsAccounts s middle ∧ middle.numTasks = s.numTasks ∧
      middle.enabled = maskedBy s.enabled intrCode) ∧
    time = if timer.wentOffAtIrq then 0 else timer.entry := by
  by_cases hneg : intrCode < 0
  · simp only [handleIrq, if_pos hneg, Option.map_eq_some_iff, Prod.mk.injEq] at hirq
    obtain ⟨woken, hunblock, rfl, rfl⟩ := hirq
    refine ⟨⟨_, routine_unblockTaskWaitingOnEventFrom hunblock, ?_, ?_, ?_⟩, rfl⟩
    · split_ifs
      · exact (routine_emit _ _).toKeepsAccounts
      · exact .refl s
      · exact .of_task_eq rfl rfl Tabled.within
    · split_ifs <;> rfl
    · simp only [maskedBy, hneg, isTimerInterrupt, decide_eq_true_eq, true_and, ne_eq, ite_not]
      split_ifs <;> rfl
  · simp only [handleIrq, if_neg hneg, Option.some.injEq, Prod.mk.injEq] at hirq
    obtain ⟨rfl, rfl⟩ := hirq
    refine ⟨⟨s, .refl s, .refl s, rfl, ?_⟩, rfl⟩
    rw [maskedBy, if_neg fun h => hneg h.1]

/-! ## The dispatcher -/

theorem routine_scheduleCurrent (hrunning : s.currentTask = some s.current) :
    Routine s (scheduleCurrent s) := by
  have hpreempted : Routine s (if (s.task s.current).state = .active then
      setCurrentTaskState s .ready else s) := by
    split_ifs
    · exact routine_setCurrentTaskState s _
    · exact .refl s
  simp only [scheduleCurrent, hrunning]
  split_ifs at hpreempted ⊢
  · exact hpreempted.trans (routine_enqueueStatefulPriorityTaskQueue _
      fun h => h.current hrunning)
  · exact hpreempted
  · exact hpreempted.trans (routine_enqueueStatefulPriorityTaskQueue _
      fun h => h.current hrunning)
  · exact hpreempted

theorem routine_dequeuePriorityTaskQueue {state : TaskState} {priorities : List Priority}
    {dequeued : Option ℤ} (hdequeue :
      dequeuePriorityTaskQueue s state priorities = (dequeued, s')) :
    Routine s s' ∧ ∀ index, dequeued = some index → Tabled s → InTable index := by
  induction priorities generalizing s with
  | nil =>
      obtain ⟨rfl, rfl⟩ := Prod.mk.inj hdequeue
      exact ⟨.refl s, nofun⟩
  | cons priority priorities ih =>
      have hlinks : Routine s { s with taskQueues :=
          (s.taskQueues.dequeueQueue (.states state priority)).2 } :=
        ⟨.of_task_eq rfl rfl fun h => h.within.dequeueQueue _, rfl, rfl⟩
      have hfirst := s.taskQueues.fst_dequeueQueue (.states state priority)
      rw [dequeuePriorityTaskQueue] at hdequeue
      split at hdequeue
      · rename_i index queues heq
        rw [heq] at hlinks hfirst
        obtain ⟨rfl, rfl⟩ := Prod.mk.inj hdequeue
        refine ⟨hlinks, ?_⟩
        rintro _ ⟨⟩ h
        exact h.within.first hfirst.symm
      · rename_i queues heq
        rw [heq] at hlinks
        obtain ⟨hrest, hindex⟩ := ih hdequeue
        exact ⟨hlinks.trans hrest, fun index hsome h => hindex index hsome (hlinks.tabled h)⟩

/-- The next task is activated once the queues have been settled. -/
theorem exists_activateNext {now : Word} (hactivate : activateNext s now = some s') :
    ∃ middle index, Routine s middle ∧ (Tabled s → InTable index) ∧
      s' = { middle with currentTask := some index }.setTask index
        (activated (middle.task index) now) := by
  rw [activateNext] at hactivate
  split at hactivate
  · simp at hactivate
  · rename_i index middle hnext
    obtain ⟨hroutine, hindex⟩ := routine_dequeuePriorityTaskQueue hnext
    exact ⟨middle, index, hroutine, hindex index rfl, (Option.some.inj hactivate).symm⟩

/-- The first activation, when no task is running yet. -/
theorem exists_activateNext_of_booted (hbooted : Booted s) :
    ∃ image memory now middle index, Routine (launchedState image memory) middle ∧
      s = { middle with currentTask := some index }.setTask index
        (activated (middle.task index) now) := by
  obtain ⟨image, memory, now, hactivate⟩ := hbooted
  rw [rtkLaunch_eq, scheduleAndActivate, scheduleCurrent,
    (prepared_launchedState image memory).currentTask] at hactivate
  obtain ⟨middle, index, hroutine, _, heq⟩ := exists_activateNext hactivate
  exact ⟨image, memory, now, middle, index, hroutine, heq⟩

/-- Dispatching creates and ends no task, and leaves the interrupts alone. -/
theorem counts_scheduleAndActivate {now : Word} (hrunning : s.currentTask = some s.current)
    (hactivate : scheduleAndActivate s now = some s') :
    s'.numTasks = s.numTasks ∧ s'.enabled = s.enabled := by
  obtain ⟨middle, index, hroutine, _, rfl⟩ := exists_activateNext hactivate
  have hboth := (routine_scheduleCurrent hrunning).trans hroutine
  exact ⟨hboth.numTasks, hboth.enabled⟩

/-! ## Handlers that end tasks -/

theorem keepsAccounts_numTasks (s : State) (num : ℤ) :
    KeepsAccounts s { s with numTasks := num } :=
  .of_task_eq rfl rfl Tabled.within

theorem keepsAccounts_exitTask (s : State) : KeepsAccounts s (exitTask s) :=
  (keepsAccounts_numTasks s _).trans (routine_setCurrentTaskState _ _).toKeepsAccounts

theorem keepsAccounts_leaveParent (s : State) (index : ℤ) :
    KeepsAccounts s (leaveParent s index) := by
  have hleft : ∀ (middle : State) (siblings : QueueHeap ℤ ℤ),
      KeepsAccounts middle { middle with siblings := siblings } :=
    fun _ _ => .of_task_eq rfl rfl Tabled.within
  exact (routine_useDescriptor s _).toKeepsAccounts.trans (hleft _ _)

theorem keepsAccounts_destroySelf (s : State) {tid : ℤ} (hindex : InTable (slot tid)) :
    KeepsAccounts s (destroySelf s tid) := by
  have hjoined : ∀ middle : State, KeepsAccounts middle
      { middle with taskQueues := middle.taskQueues.enqueueQueue .available (slot tid) } :=
    fun _ => .of_task_eq rfl rfl fun h => h.within.enqueueQueue _ hindex
  have hdisarmed : ∀ (middle : State) (intr : Word),
      KeepsAccounts middle (disableInterrupt middle intr) :=
    fun _ _ => .of_task_eq rfl rfl Tabled.within
  have hfreed := (routine_setTaskState s tid .free).toKeepsAccounts.trans (hjoined _)
  have hretired := (routine_setTaskState s tid .destroyed).toKeepsAccounts
  simp only [destroySelf]
  split_ifs
  · exact (hfreed.trans (hdisarmed _ _)).trans (keepsAccounts_numTasks _ _)
  · exact hfreed.trans (keepsAccounts_numTasks _ _)
  · exact (hretired.trans (hdisarmed _ _)).trans (keepsAccounts_numTasks _ _)
  · exact hretired.trans (keepsAccounts_numTasks _ _)

/-- However many tasks it destroys. -/
theorem keepsAccounts_destroy (fuel : ℕ) :
    (∀ {s s' : State} {tid result : ℤ}, destroyHandler s tid fuel = some (result, s') →
      KeepsAccounts s s') ∧
    ∀ {s s' : State} {index : ℤ}, destroyChildren s index fuel = some s' →
      KeepsAccounts s s' := by
  induction fuel with
  | zero =>
      constructor
      · intro s s' tid result hdestroy
        simp [destroyHandler] at hdestroy
      · intro s s' index hdestroy
        simp [destroyChildren] at hdestroy
  | succ fuel ih =>
      constructor
      · intro s s' tid result hdestroy
        have hused := (routine_useDescriptor s (slot tid)).toKeepsAccounts
        simp only [destroyHandler] at hdestroy
        split_ifs at hdestroy with hvalid htid
        · obtain ⟨_, rfl⟩ := Prod.mk.inj (Option.some.inj hdestroy)
          exact .refl s
        · obtain ⟨_, rfl⟩ := Prod.mk.inj (Option.some.inj hdestroy)
          exact hused
        · split at hdestroy
          · simp at hdestroy
          · rename_i destroyed hchildren
            obtain ⟨_, rfl⟩ := Prod.mk.inj (Option.some.inj hdestroy)
            have hindex : InTable (slot tid) := by
              apply inTable_slot
              rw [Bool.not_eq_true', Bool.not_eq_false] at hvalid
              exact (isValidTid_iff.mp hvalid).1
            have hleft := hused.trans (keepsAccounts_leaveParent _ (slot tid))
            exact (hleft.trans (ih.2 hchildren)).trans (keepsAccounts_destroySelf _ hindex)
      · intro s s' index hdestroy
        have hdequeued : ∀ queues : QueueHeap ℤ ℤ,
            KeepsAccounts s { s with siblings := queues } :=
          fun _ => .of_task_eq rfl rfl Tabled.within
        rw [destroyChildren] at hdestroy
        split at hdestroy
        · rw [← Option.some.inj hdestroy]
          exact hdequeued _
        · simp only at hdestroy
          split at hdestroy
          · simp at hdestroy
          · rename_i hchild
            exact ((hdequeued _).trans (ih.1 hchild)).trans (ih.2 hdestroy)

/-! ## All handlers -/

/-- The handlers that concern the calling task only, but for `Exit` and `AwaitEvent`. -/
theorem routine_of_local {call : Call} {fuel : ℕ} {trap : Trap} {result : ℤ}
    (hhandle : handle s fuel trap call = some (result, s')) (hlocal : call.Local)
    (hexit : call ≠ .exit) (hawait : ∀ eventid, call ≠ .awaitEvent eventid)
    (hrunning : s.currentTask = some s.current) : Routine s s' := by
  cases call with
  | create | send | receive | reply | destroy => exact hlocal.elim
  | exit => exact absurd rfl hexit
  | awaitEvent eventid => exact absurd rfl (hawait eventid)
  | setPriority tid priority =>
      rw [eq_of_setPriority hhandle]
      exact .refl s
  | setMyPriority priority =>
      obtain rfl := eq_of_handle hhandle
      exact routine_setCurrentTaskPriority s priority
  | getTaskStats tid container =>
      obtain rfl := eq_of_handle hhandle
      exact routine_taskStatsHandler s tid container
  | getTasksStats container =>
      exact routine_tasksStatsHandler hrunning (tasksStats_of_handle hhandle)
  | pass | myTid | myParentTid | getPriority | getMyPriority =>
      obtain rfl := eq_of_handle hhandle
      exact .refl s

/-- Every handler but that of `Create` leaves the accounts alone. -/
theorem keepsAccounts_handle {call : Call}
    (hcreate : ∀ priority code, call ≠ .create priority code)
    (hrunning : s.currentTask = some s.current) {fuel : ℕ} {trap : Trap} {result : ℤ}
    (hhandle : handle s fuel trap call = some (result, s')) : KeepsAccounts s s' := by
  cases call with
  | create priority code => exact absurd rfl (hcreate priority code)
  | exit =>
      obtain rfl := eq_of_handle hhandle
      exact keepsAccounts_exitTask s
  | send tid msg msglen reply replylen =>
      obtain rfl := eq_of_handle hhandle
      exact (routine_sendProxy _ _ _ _ _ _ _).toKeepsAccounts
  | receive tid msg msglen =>
      obtain rfl := eq_of_handle hhandle
      exact (routine_receiveProxy _ _ _ _ _ _).toKeepsAccounts
  | reply tid reply replylen =>
      obtain rfl := eq_of_handle hhandle
      exact (routine_replyProxy _ _ _ _).toKeepsAccounts
  | awaitEvent eventid =>
      obtain ⟨middle, hroutine, heq⟩ := exists_awaitEventHandler s eventid
      rw [handle, heq] at hhandle
      obtain rfl := eq_of_handle hhandle
      exact hroutine.toKeepsAccounts.trans (.of_task_eq rfl rfl Tabled.within)
  | destroy tid => exact (keepsAccounts_destroy fuel).1 hhandle
  | pass | myTid | myParentTid | setPriority | getPriority | setMyPriority | getMyPriority |
      getTaskStats | getTasksStats =>
      exact (routine_of_local hhandle trivial (by simp) (by simp) hrunning).toKeepsAccounts

end Accounts

end Rtk.Kernel
