import Rtk.Core.ByteMemory
import Rtk.Lib.Queue

/-!
# Kernel state

The static data of `kernel/task.c` and `kernel/communication.c`.  An array is a
function of its C index, so an index outside the array designates memory that
belongs to no descriptor; `faults` records that such an index was used.  The
memory that tasks and the kernel address through pointers is kept apart from
the kernel's own data.

`faults` and `log` are history variables: no function of the kernel reads them.
-/

namespace Rtk.Kernel

open Function
open Rtk.ByteMemory
open Rtk.Lib

def maxTasks : ℤ := 1024

/-- `LONG_MAX` of the 32-bit target. -/
def longMax : ℤ := 2147483647

def returnStatusOk : ℤ := 0

/-- `NULL` as a data pointer of a task. -/
def nullAddress : ℕ := 0

inductive TaskState where
  | destroyed
  | free
  | zombie
  | ready
  | active
  | sendBlocked
  | receiveBlocked
  | replyBlocked
  | eventBlocked
  deriving DecidableEq

/-- The value of the C enumerator. -/
def TaskState.value : TaskState → ℤ
  | destroyed => -2
  | free => -1
  | zombie => 0
  | ready => 1
  | active => 2
  | sendBlocked => 3
  | receiveBlocked => 4
  | replyBlocked => 5
  | eventBlocked => 6

/-- The states that index `scheduler.states`, in the order of their values. -/
def TaskState.scheduled : List TaskState :=
  [zombie, ready, active, sendBlocked, receiveBlocked, replyBlocked, eventBlocked]

inductive Priority where
  | highest
  | high
  | medium
  | low
  | null
  deriving DecidableEq

/-- The value of the C enumerator. -/
def Priority.value : Priority → ℤ
  | highest => 0
  | high => 1
  | medium => 2
  | low => 3
  | null => 4

/-- An `int` stored into an `enum Priority`. -/
def Priority.ofInt : ℤ → Priority
  | 0 => highest
  | 1 => high
  | 2 => medium
  | 3 => low
  | _ => null

def Priority.all : List Priority := [highest, high, medium, low, null]

/-- The queues that link descriptors through their own `queue_node`:
`available_descriptors` and `scheduler.states[state].priorities[priority]`. -/
inductive TaskQueue where
  | available
  | states (state : TaskState) (priority : Priority)
  deriving DecidableEq

/-- `struct task`, without its links. -/
structure Task where
  tid : ℤ
  state : TaskState
  priority : Priority
  parentTid : ℤ
  stack : ℕ
  sp : ℕ
  spsr : Word
  pc : Word
  awaitingEventId : Word
  numActivates : Word
  lastActivateAt : Word
  allowedUserTime : Word
  usedUserTime : Word

/-- A descriptor of zeroed memory, for which `ZOMBIE` is the zero state. -/
def Task.zero : Task where
  tid := 0
  state := .zombie
  priority := .highest
  parentTid := 0
  stack := 0
  sp := 0
  spsr := 0
  pc := 0
  awaitingEventId := 0
  numActivates := 0
  lastActivateAt := 0
  allowedUserTime := 0
  usedUserTime := 0

/-- `struct msg_queue_node`, without its links. -/
@[ext]
structure MsgQueueNode where
  fromTid : ℤ
  toTid : ℤ
  putTid : ℕ
  msgBuffer : ℕ
  msgBufferSize : Word
  replyBuffer : ℕ
  replyBufferSize : Word
  receiveBuffer : ℕ
  receiveBufferSize : Word
  deriving DecidableEq

def MsgQueueNode.zero : MsgQueueNode := ⟨0, 0, 0, 0, 0, 0, 0, 0, 0⟩

structure TaskStats where
  tid : ℤ
  priority : Priority
  state : TaskState
  numActivates : Word
  allowedUserTime : Word
  usedUserTime : Word
  deriving DecidableEq

/-- `struct TasksStats`, with the entries of `tasks` that are written. -/
structure TasksStats where
  numTasks : ℕ
  numAliveTasks : ℤ
  tasks : List TaskStats
  deriving DecidableEq

/-- `sizeof( struct TaskStats )`. -/
def taskStatsSizeBytes : ℕ := 24

/-- The offset of `tasks` in `struct TasksStats`. -/
def tasksOffset : ℕ := 8

/-- `sizeof( struct TasksStats )`. -/
def tasksStatsSizeBytes : ℕ := tasksOffset + taskStatsSizeBytes * maxTasks.toNat

def storeTaskStats (memory : Memory) (container : ℕ) (stats : TaskStats) : Memory :=
  let memory := ByteMemory.storeWord memory container (BitVec.ofInt 32 stats.tid)
  let memory := update memory (container + 4) (BitVec.ofInt 8 stats.priority.value)
  let memory := ByteMemory.storeWord memory (container + 8)
    (BitVec.ofInt 32 stats.state.value)
  let memory := ByteMemory.storeWord memory (container + 12) stats.numActivates
  let memory := ByteMemory.storeWord memory (container + 16) stats.allowedUserTime
  ByteMemory.storeWord memory (container + 20) stats.usedUserTime

/-- Fill elements of an array of `struct TaskStats`, from `element` on. -/
def storeElements (memory : Memory) (element : ℕ) : List TaskStats → Memory
  | [] => memory
  | stats :: tasks =>
      storeElements (storeTaskStats memory element stats) (element + taskStatsSizeBytes) tasks

/-- Fill a `struct TasksStats`, the number of entries last. -/
def storeTasksStats (memory : Memory) (container : ℕ) (stats : TasksStats) : Memory :=
  let memory := ByteMemory.storeWord memory (container + 4)
    (BitVec.ofInt 32 stats.numAliveTasks)
  let memory := storeElements memory (container + tasksOffset) stats.tasks
  ByteMemory.storeWord memory container (BitVec.ofNat 32 stats.numTasks)

/-- An index outside `task_descriptors` or `scheduler.states`. -/
inductive Fault where
  | descriptorIndex (index : ℤ)
  | stateIndex (state : TaskState)
  deriving DecidableEq

/-- What the history records. -/
inductive Event where
  /-- A `Send` passed its checks; the node as `SendProxy` filled it. -/
  | sent (node : MsgQueueNode)
  /-- `ReceiveProxy` of `tid` found no message and waits. -/
  | waiting (tid : ℤ) (putTid msg : ℕ) (msglen : Word)
  /-- `CompleteReceive( tid )` dequeued this node. -/
  | taken (tid : ℤ) (node : MsgQueueNode)
  /-- The kernel stored a word through a pointer. -/
  | storedWord (address : ℕ) (word : Word)
  /-- The kernel called `memcpy` on task memory. -/
  | copied (dest src num : ℕ)
  /-- `ClearTimerInterrupt`. -/
  | clearedTimerInterrupt
  /-- `TaskStatsHandler` and `TasksStatsHandler` filled the record at `container`. -/
  | taskStats (container : ℕ) (stats : TaskStats)
  | tasksStats (container : ℕ) (stats : TasksStats)
  deriving DecidableEq

/-- Addresses fixed when the kernel is linked: the array `stacks` and the entry
points that the kernel refers to. -/
structure Image where
  stackArray : ℕ
  exit : Word
  nullProcess : Word
  init : Word

/-- The state of the kernel.  In `siblings` the queue `i` is the `children`
queue of descriptor `i` and the node `i` its `siblings` node; in `msgQueues`
the queue `i` is `msg_queues[i]` and the node `i` the links of `nodes[i]`. -/
structure State where
  image : Image
  numTasks : ℤ
  task : ℤ → Task
  currentTask : Option ℤ
  taskQueues : QueueHeap TaskQueue ℤ
  siblings : QueueHeap ℤ ℤ
  node : ℤ → MsgQueueNode
  msgQueues : QueueHeap ℤ ℤ
  memory : Memory
  enabled : Word
  faults : List Fault
  log : List Event

/-- `tid % MAX_TASKS`, truncated towards zero as in C. -/
def slot (tid : ℤ) : ℤ := tid.tmod maxTasks

/-- `index` is an index of `task_descriptors`. -/
def InTable (index : ℤ) : Prop := 0 ≤ index ∧ index < maxTasks

instance (index : ℤ) : Decidable (InTable index) :=
  inferInstanceAs (Decidable (_ ∧ _))

namespace State

def setTask (s : State) (index : ℤ) (task : Task) : State :=
  { s with task := update s.task index task }

@[simp]
theorem setTask_self (s : State) (index : ℤ) (task : Task) :
    (s.setTask index task).task index = task := update_self _ _ _

theorem setTask_of_ne (s : State) {index other : ℤ} (task : Task)
    (hother : other ≠ index) :
    (s.setTask index task).task other = s.task other := update_of_ne hother _ _

def setMsgNode (s : State) (index : ℤ) (node : MsgQueueNode) : State :=
  { s with node := update s.node index node }

def emit (s : State) (event : Event) : State :=
  { s with log := s.log ++ [event] }

def useDescriptor (s : State) (index : ℤ) : State :=
  if InTable index then s
  else { s with faults := s.faults ++ [.descriptorIndex index] }

/-- Use a state as an index of `scheduler.states`. -/
def useState (s : State) (state : TaskState) : State :=
  if 0 ≤ state.value then s
  else { s with faults := s.faults ++ [.stateIndex state] }

/-- `*address = word`. -/
def storeWord (s : State) (address : ℕ) (word : Word) : State :=
  { s with memory := ByteMemory.storeWord s.memory address word }.emit
    (.storedWord address word)

/-- `*container = stats`, field by field. -/
def storeTaskStats (s : State) (container : ℕ) (stats : TaskStats) : State :=
  { s with memory := Kernel.storeTaskStats s.memory container stats }.emit
    (.taskStats container stats)

def storeTasksStats (s : State) (container : ℕ) (stats : TasksStats) : State :=
  { s with memory := Kernel.storeTasksStats s.memory container stats }.emit
    (.tasksStats container stats)

/-- The descriptor that `current_task` points to.  A `NULL` pointer is read as
the index behind the last descriptor. -/
def current (s : State) : ℤ := s.currentTask.getD maxTasks

end State

end Rtk.Kernel
