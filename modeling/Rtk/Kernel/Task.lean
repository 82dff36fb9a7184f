import Rtk.Kernel.State

/-!
# Tasks

The functions of `kernel/task.c` and `kernel/task_queue.c`.  A loop over a
linked queue and the recursion of `DestroyHandler` take a bound `fuel` on their
steps and return `none` when they have not ended within it.
-/

namespace Rtk.Kernel

open Rtk.ByteMemory
open Rtk.Lib

/-! ## `kernel/task_queue.c` -/

/-- `EnqueueStatefulPriorityTaskQueue` on `scheduler`. -/
def enqueueStatefulPriorityTaskQueue (s : State) (index : ℤ) : State :=
  let task := s.task index
  let s := s.useState task.state
  { s with taskQueues :=
      s.taskQueues.enqueueQueue (.states task.state task.priority) index }

/-- `DequeuePriorityTaskQueue` on `scheduler.states[state]`: the loop over the
priorities from `HIGHEST_PRIORITY` on. -/
def dequeuePriorityTaskQueue (s : State) (state : TaskState) :
    List Priority → Option ℤ × State
  | [] => (none, s)
  | priority :: priorities =>
      match s.taskQueues.dequeueQueue (.states state priority) with
      | (some dequeued, queues) => (some dequeued, { s with taskQueues := queues })
      | (none, queues) =>
          dequeuePriorityTaskQueue { s with taskQueues := queues } state priorities

/-- `RemoveStatefulPriorityTaskQueueNode` on `scheduler`. -/
def removeStatefulPriorityTaskQueueNode (s : State) (index : ℤ) : State :=
  let task := s.task index
  let s := s.useState task.state
  { s with taskQueues :=
      s.taskQueues.removeQueueNode (.states task.state task.priority) index }

/-! ## Tids, states and priorities -/

/-- `NUM_REGS_POPPED`: the words of a saved register frame. -/
def numRegsPopped : ℕ := 14

def stackSizeBytes : ℕ := 0x2000

def getCurrentTid (s : State) : ℤ :=
  match s.currentTask with
  | some index => (s.task index).tid
  | none => -1

def isValidTid (tid : ℤ) : Bool :=
  decide (0 ≤ tid ∧ tid ≤ longMax)

def getTaskState (s : State) (tid : ℤ) : TaskState :=
  let task := s.task (slot tid)
  if task.tid ≠ tid then .free else task.state

/-- `IsTaskAlive`: `ZOMBIE` is 0, `FREE` and `DESTROYED` are negative. -/
def isTaskAlive (s : State) (tid : ℤ) : Bool :=
  isValidTid tid && decide (0 < (getTaskState s tid).value)

def isValidPriority (priority : ℤ) : Bool :=
  decide (Priority.low.value ≤ priority ∧ priority ≤ Priority.highest.value)

def errParentDestroyed : ℤ := -1
def errNoParent : ℤ := -2
def errInvalidPriority : ℤ := -1
def errUnavailableDescriptor : ℤ := -2
def errGetPriorityImpossibleTid : ℤ := -1
def errGetPriorityNonexistentTask : ℤ := -2
def errSetPriorityInvalidPriority : ℤ := -1
def errSetPriorityImpossibleTid : ℤ := -2
def errSetPriorityNonexistentTask : ℤ := -3
def errDestroyImpossibleTid : ℤ := -1
def errDestroyNonexistentTask : ℤ := -2
def errCollectDataAndReenableInterrupts : ℤ := -3

def getParentTid (s : State) : ℤ :=
  let parentTid := (s.task s.current).parentTid
  if parentTid = -1 then errNoParent
  else if !isTaskAlive s parentTid then errParentDestroyed
  else parentTid

def getCurrentTaskPriority (s : State) : ℤ :=
  match s.currentTask with
  | some index => (s.task index).priority.value
  | none => -1

/-- `SetCurrentTaskPriority`.  The argument is an `enum Priority`, whose
enumerators are all nonnegative, so it is an unsigned value. -/
def setCurrentTaskPriority (s : State) (priority : ℕ) : ℤ × State :=
  match s.currentTask with
  | none => (-1, s)
  | some index =>
      if Priority.low.value < priority then (errInvalidPriority, s)
      else
        (returnStatusOk,
          s.setTask index { s.task index with priority := Priority.ofInt priority })

/-- `GetTaskPriority`, which returns the state of the task. -/
def getTaskPriority (s : State) (tid : ℤ) : ℤ :=
  if !isValidTid tid then errGetPriorityImpossibleTid
  else if !isTaskAlive s tid then errGetPriorityNonexistentTask
  else (s.task (slot tid)).state.value

/-- `SetTaskPriority`.  The priority is written to `task_descriptors[tid]`, not
to the descriptor of the task. -/
def setTaskPriority (s : State) (tid priority : ℤ) : ℤ × State :=
  if !isValidPriority priority then (errSetPriorityInvalidPriority, s)
  else if !isValidTid tid then (errSetPriorityImpossibleTid, s)
  else if !isTaskAlive s tid then (errSetPriorityNonexistentTask, s)
  else
    let s := removeStatefulPriorityTaskQueueNode s (slot tid)
    let s := (s.useDescriptor tid).setTask tid
      { s.task tid with priority := Priority.ofInt priority }
    let s :=
      if tid ≠ (s.task s.current).tid then
        enqueueStatefulPriorityTaskQueue s (slot tid)
      else s
    (returnStatusOk, s)

def setTaskState (s : State) (tid : ℤ) (state : TaskState) : State :=
  let s := s.useDescriptor (slot tid)
  if (s.task (slot tid)).tid ≠ tid then s
  else
    let s := removeStatefulPriorityTaskQueueNode s (slot tid)
    let s := s.setTask (slot tid) { s.task (slot tid) with state := state }
    if tid ≠ (s.task s.current).tid ∧ 0 ≤ state.value then
      enqueueStatefulPriorityTaskQueue s (slot tid)
    else s

def setCurrentTaskState (s : State) (state : TaskState) : State :=
  s.setTask s.current { s.task s.current with state := state }

def setTaskReturnValue (s : State) (tid ret : ℤ) : State :=
  if !isTaskAlive s tid then s
  else s.storeWord (s.task (slot tid)).sp (BitVec.ofInt 32 ret)

def setCurrentTaskReturnValue (s : State) (ret : ℤ) : State :=
  s.storeWord (s.task s.current).sp (BitVec.ofInt 32 ret)

/-! ## Creation, exit and scheduling -/

def exitTask (s : State) : State :=
  setCurrentTaskState { s with numTasks := s.numTasks - 1 } .zombie

def getNextScheduledTask (s : State) : Option ℤ × State :=
  dequeuePriorityTaskQueue s .ready Priority.all

def scheduleTask (s : State) (index : ℤ) : State :=
  enqueueStatefulPriorityTaskQueue s index

def newTask (s : State) (task : Task) (priority : Priority) (code : Word) :
    Task :=
  { task with
    tid := task.tid + maxTasks
    state := .ready
    priority := priority
    parentTid := getCurrentTid s
    sp := task.stack + (stackSizeBytes - 4 * numRegsPopped)
    spsr := 0x10
    pc := code
    awaitingEventId := -1
    usedUserTime := 0 }

/-- The part of `CreateTask` that follows the choice of a descriptor. -/
def startTask (s : State) (index : ℤ) (priority : Priority) (code : Word) :
    ℤ × State :=
  let task := newTask s (s.task index) priority code
  let s := { s with taskQueues := s.taskQueues.setNode index QueueNode.null }
  let s := s.setTask index task
  let s := s.storeWord (task.stack + (stackSizeBytes - 4)) s.image.exit
  let s := { s with siblings :=
    (s.siblings.setQueue index Queue.null).setNode index QueueNode.null }
  let s := match s.currentTask with
    | some parent =>
        { s with siblings := s.siblings.enqueueQueue parent index }
    | none => s
  let s := scheduleTask s index
  (task.tid, { s with numTasks := s.numTasks + 1 })

def createTask (s : State) (priority : Priority) (code : Word) : ℤ × State :=
  match s.taskQueues.dequeueQueue .available with
  | (none, queues) => (errUnavailableDescriptor, { s with taskQueues := queues })
  | (some index, queues) =>
      startTask { s with taskQueues := queues } index priority code

def createTaskSafe (s : State) (priority : ℤ) (code : Word) : ℤ × State :=
  if priority < Priority.highest.value ∨ Priority.low.value < priority then
    (errInvalidPriority, s)
  else createTask s (Priority.ofInt priority) code

/-- The first half of `ScheduleAndActivate`: the current task goes back to its
queue.  At the first activation there is none. -/
def scheduleCurrent (s : State) : State :=
  match s.currentTask with
  | none => s
  | some index =>
      let s :=
        if (s.task index).state = .active then setCurrentTaskState s .ready else s
      if 0 ≤ (s.task index).state.value then scheduleTask s index else s

/-- The second half of `ScheduleAndActivate`, with `now` the value of
`GetTimerTime`.  It is `none` when `GetNextScheduledTask` returns `NULL`, which
the code dereferences. -/
def activateNext (s : State) (now : Word) : Option State :=
  match getNextScheduledTask s with
  | (none, _) => none
  | (some index, s) =>
      let task := s.task index
      some ({ s with currentTask := some index }.setTask index
        { task with
          state := .active
          lastActivateAt := now
          allowedUserTime := task.allowedUserTime + now / 100
          numActivates := task.numActivates + 1 })

/-- `ScheduleAndActivate`, up to the return to the task. -/
def scheduleAndActivate (s : State) (now : Word) : Option State :=
  activateNext (scheduleCurrent s) now

/-- `SaveTaskState`, with `wentOff` the value of `TimerWentOff`. -/
def saveTaskState (s : State) (spsr : Word) (sp : ℕ) (pc timer : Word)
    (wentOff : Bool) : State :=
  let task := s.task s.current
  let timer := if wentOff then 0 else timer
  s.setTask s.current
    { task with
      spsr := spsr
      sp := sp
      pc := pc
      usedUserTime := task.usedUserTime + (task.lastActivateAt - timer) / 100 }

/-! ## Events and interrupts -/

def picTimer01 : Word := 0x10

def isTimerInterrupt (intr : Word) : Bool := intr = picTimer01

/-- `EnableInterrupt`: the controller sets the bits written. -/
def enableInterrupt (s : State) (intr : Word) : State :=
  { s with enabled := s.enabled ||| intr }

/-- `DisableInterrupt`: the controller clears the bits written. -/
def disableInterrupt (s : State) (intr : Word) : State :=
  { s with enabled := s.enabled &&& ~~~intr }

def awaitEventHandler (s : State) (intr : Word) : ℤ × State :=
  let s := s.setTask s.current { s.task s.current with awaitingEventId := intr }
  let s := setCurrentTaskState s .eventBlocked
  (returnStatusOk, enableInterrupt s intr)

/-- The inner loop of `UnblockTaskWaitingOnEvent`: the first task from `head`
on that waits for `intr`. -/
def findWaiting (s : State) (intr : Word) : ℕ → Option ℤ → Option (Option ℤ)
  | _, none => some none
  | 0, some _ => none
  | fuel + 1, some head =>
      if (s.task head).awaitingEventId = intr then some (some head)
      else findWaiting s intr fuel (s.taskQueues.node head).next

/-- The outer loop of `UnblockTaskWaitingOnEvent`, over the priorities. -/
def unblockTaskWaitingOnEventFrom (s : State) (fuel : ℕ) (intr : Word) :
    List Priority → Option State
  | [] => some s
  | priority :: priorities =>
      match findWaiting s intr fuel
        (s.taskQueues.queue (.states .eventBlocked priority)).first with
      | none => none
      | some none => unblockTaskWaitingOnEventFrom s fuel intr priorities
      | some (some head) =>
          let tid := (s.task head).tid
          let s := setTaskState s tid .ready
          some (setTaskReturnValue s tid errCollectDataAndReenableInterrupts)

def unblockTaskWaitingOnEvent (s : State) (fuel : ℕ) (intr : Word) :
    Option State :=
  unblockTaskWaitingOnEventFrom s fuel intr Priority.all

/-- The timer as the handlers of one trap read it. -/
structure TimerReadings where
  /-- `GetTimerTime` at the entry of the trap. -/
  entry : Word
  /-- `TimerWentOff` as first read by `HandleIrq`. -/
  wentOffAtIrq : Bool
  /-- `TimerWentOff` as read before `ClearTimerInterrupt`. -/
  wentOffAtClear : Bool
  /-- `TimerWentOff` as read by `SaveTaskState`. -/
  wentOffAtSave : Bool
  /-- `GetTimerTime` in `ScheduleAndActivate`. -/
  activation : Word

def handleIrq (s : State) (fuel : ℕ) (intrCode : ℤ) (timer : TimerReadings) :
    Option (Word × State) :=
  let currentTime := if timer.wentOffAtIrq then 0 else timer.entry
  if intrCode < 0 then
    let intr := (1 : Word) <<< (-intrCode).toNat
    let s :=
      if isTimerInterrupt intr then
        if timer.wentOffAtClear then s.emit .clearedTimerInterrupt else s
      else disableInterrupt s intr
    (unblockTaskWaitingOnEvent s fuel intr).map fun s => (currentTime, s)
  else some (currentTime, s)

/-! ## Destruction -/

/-- The end of `DestroyHandler`, once the children are destroyed. -/
def destroySelf (s : State) (tid : ℤ) : State :=
  let index := slot tid
  let s :=
    if (s.task index).tid < longMax - maxTasks then
      let s := setTaskState s tid .free
      { s with taskQueues := s.taskQueues.enqueueQueue .available index }
    else setTaskState s tid .destroyed
  let s :=
    if 0 ≤ (s.task index).awaitingEventId.toInt then
      disableInterrupt s (s.task index).awaitingEventId
    else s
  { s with numTasks := s.numTasks - 1 }

/-- The start of `DestroyHandler`, once its checks have passed: the task leaves
the children of its parent.  The index of a parentless task's parent is -1. -/
def leaveParent (s : State) (index : ℤ) : State :=
  let parent := slot (s.task index).parentTid
  let s := s.useDescriptor parent
  { s with siblings := s.siblings.removeQueueNode parent index }

mutual

def destroyHandler (s : State) (tid : ℤ) : ℕ → Option (ℤ × State)
  | 0 => none
  | fuel + 1 =>
      if !isValidTid tid then some (errDestroyImpossibleTid, s)
      else
        let s' := s.useDescriptor (slot tid)
        if (s'.task (slot tid)).tid ≠ tid then some (errDestroyNonexistentTask, s')
        else
          match destroyChildren (leaveParent s' (slot tid)) (slot tid) fuel with
          | none => none
          | some s => some (returnStatusOk, destroySelf s tid)

/-- The loop of `DestroyHandler` over the children of a task. -/
def destroyChildren (s : State) (index : ℤ) : ℕ → Option State
  | 0 => none
  | fuel + 1 =>
      match s.siblings.dequeueQueue index with
      | (none, queues) => some { s with siblings := queues }
      | (some child, queues) =>
          let s := { s with siblings := queues }
          match destroyHandler s (s.task child).tid fuel with
          | none => none
          | some (_, s) => destroyChildren s index fuel

end

/-! ## Statistics -/

/-- The entry that the statistics handlers write for a task. -/
def statsOf (task : Task) : TaskStats where
  tid := task.tid
  priority := task.priority
  state := task.state
  numActivates := task.numActivates
  allowedUserTime := task.allowedUserTime
  usedUserTime := task.usedUserTime

/-- The entries for the tasks linked from `head` on. -/
def statsFrom (s : State) : ℕ → Option ℤ → Option (List TaskStats)
  | _, none => some []
  | 0, some _ => none
  | fuel + 1, some head =>
      (statsFrom s fuel (s.taskQueues.node head).next).map
        (statsOf (s.task head) :: ·)

/-- The queues in the order in which `TasksStatsHandler` visits them. -/
def TaskQueue.visited : List TaskQueue :=
  Priority.all.flatMap fun priority =>
    TaskState.scheduled.map fun state => .states state priority

/-- The entries for the tasks of the given queues. -/
def statsOfQueues (s : State) (fuel : ℕ) :
    List TaskQueue → Option (List TaskStats)
  | [] => some []
  | queue :: queues => do
      let stats ← statsFrom s fuel (s.taskQueues.queue queue).first
      let rest ← statsOfQueues s fuel queues
      return stats ++ rest

/-- `TasksStatsHandler`.  The walk reads no memory of tasks, so the record is filled
after it. -/
def tasksStatsHandler (s : State) (fuel container : ℕ) : Option State := do
  let numAliveTasks := s.numTasks
  let s := enqueueStatefulPriorityTaskQueue s s.current
  let tasks ← statsOfQueues s fuel TaskQueue.visited
  let s := removeStatefulPriorityTaskQueueNode s s.current
  return s.storeTasksStats container ⟨tasks.length, numAliveTasks, tasks⟩

def taskStatsHandler (s : State) (tid : ℤ) (container : ℕ) : State :=
  (s.useDescriptor (slot tid)).storeTaskStats container (statsOf (s.task (slot tid)))

/-! ## Initialization -/

/-- One round of the loop of `InitTasks`. -/
def initTask (s : State) (index : ℤ) : State :=
  let s := s.setTask index
    { s.task index with
      tid := index - maxTasks
      stack := s.image.stackArray + index.toNat * stackSizeBytes
      state := .free }
  { s with taskQueues := s.taskQueues.enqueueQueue .available index }

def initTasks (s : State) : State :=
  (List.range maxTasks.toNat).foldl (fun s (index : ℕ) => initTask s index) s

end Rtk.Kernel
