import Rtk.Kernel.Communication

/-!
# Traps and the run loop

`arch/arm/context_switch.s`, the system calls of `arch/arm/syscall.s` and the
loop of `kernel/rtk.c`.  Between two activations the running task may do
anything to its registers and to memory; a `Trap` is what it leaves behind when
it enters the kernel by a system call or is interrupted.
-/

namespace Rtk.Kernel

open Rtk.ByteMemory
open Rtk.Lib

/-- The machine at the entry of a trap. -/
structure Trap where
  /-- The memory, with the register frame that the stub pushed. -/
  memory : Memory
  /-- The user stack pointer, which is the address of that frame. -/
  sp : ℕ
  spsr : Word
  pc : Word
  timer : TimerReadings
  /-- What the kernel stack holds in the uninitialised part of a local
  `struct msg_queue_node`. -/
  uninit : MsgQueueNode
  uninitLinks : QueueNode ℤ
  /-- What a handler without a result leaves in `r0`. -/
  r0 : ℤ

inductive Call where
  | create (priority : ℤ) (code : Word)
  | pass
  | exit
  | myTid
  | myParentTid
  | send (tid : ℤ) (msg : ℕ) (msglen : Word) (reply : ℕ) (replylen : Word)
  | receive (tid msg : ℕ) (msglen : Word)
  | reply (tid : ℤ) (reply : ℕ) (replylen : Word)
  | awaitEvent (eventid : Word)
  | setPriority (tid priority : ℤ)
  | getPriority (tid : ℤ)
  | setMyPriority (priority : ℕ)
  | getMyPriority
  | getTaskStats (tid : ℤ) (container : ℕ)
  | getTasksStats (container : ℕ)
  | destroy (tid : ℤ)
  deriving DecidableEq

/-- The handler that a stub of `syscall.s` names, with the value it leaves in
`r0`.  It is `none` while a loop of the handler has not ended after `fuel`
steps. -/
def handle (s : State) (fuel : ℕ) (trap : Trap) : Call → Option (ℤ × State)
  | .create priority code => some (createTaskSafe s priority code)
  | .pass => some (trap.r0, s)
  | .exit => some (trap.r0, exitTask s)
  | .myTid => some (getCurrentTid s, s)
  | .myParentTid => some (getParentTid s, s)
  | .send tid msg msglen reply replylen =>
      some (sendProxy s trap.uninit tid msg msglen reply replylen)
  | .receive tid msg msglen =>
      some (receiveProxy s trap.uninit trap.uninitLinks tid msg msglen)
  | .reply tid reply replylen => some (replyProxy s tid reply replylen)
  | .awaitEvent eventid => some (awaitEventHandler s eventid)
  | .setPriority tid priority => some (setTaskPriority s tid priority)
  | .getPriority tid => some (getTaskPriority s tid, s)
  | .setMyPriority priority => some (setCurrentTaskPriority s priority)
  | .getMyPriority => some (getCurrentTaskPriority s, s)
  | .getTaskStats tid container => some (trap.r0, taskStatsHandler s tid container)
  | .getTasksStats container =>
      (tasksStatsHandler s fuel container).map fun s => (trap.r0, s)
  | .destroy tid => destroyHandler s tid fuel

/-- `svc_entry`: the handler runs before the state of the task is saved. -/
def svcEntry (s : State) (fuel : ℕ) (call : Call) (trap : Trap) : Option State :=
  match handle { s with memory := trap.memory } fuel trap call with
  | none => none
  | some (result, s) =>
      let s := saveTaskState s trap.spsr trap.sp trap.pc trap.timer.entry
        trap.timer.wentOffAtSave
      some (setCurrentTaskReturnValue s result)

def irqEntry (s : State) (fuel : ℕ) (intrCode : ℤ) (trap : Trap) : Option State :=
  match handleIrq { s with memory := trap.memory } fuel intrCode trap.timer with
  | none => none
  | some (timer, s) =>
      some (saveTaskState s trap.spsr trap.sp trap.pc timer
        trap.timer.wentOffAtSave)

/-- What the running task does next. -/
inductive Action where
  | call (call : Call) (trap : Trap)
  | interrupt (intrCode : ℤ) (trap : Trap)

def Action.trap : Action → Trap
  | call _ trap => trap
  | interrupt _ trap => trap

/-- One round of the kernel loop.  Task 0 runs `NullProcess`, which makes no
system call. -/
def step (s : State) (fuel : ℕ) : Action → Option State
  | .call call trap =>
      if getCurrentTid s = 0 then none
      else (svcEntry s fuel call trap).bind fun s =>
        scheduleAndActivate s trap.timer.activation
  | .interrupt intrCode trap =>
      (irqEntry s fuel intrCode trap).bind fun s =>
        scheduleAndActivate s trap.timer.activation

/-- `s` makes a step to `s'`: every loop of the round ends. -/
def Step (s : State) (action : Action) (s' : State) : Prop :=
  ∃ fuel, step s fuel action = some s'

/-! ## Boot -/

/-- The static data before `RtkLaunch`: `available_descriptors` already points
at the first and the last descriptor, and everything else is zero. -/
def staticState (image : Image) (memory : Memory) : State where
  image := image
  numTasks := 0
  task _ := Task.zero
  currentTask := none
  taskQueues :=
    { queue := fun queue =>
        match queue with
        | .available => ⟨some 0, some (maxTasks - 1)⟩
        | .states _ _ => Queue.null
      node := fun _ => QueueNode.null }
  siblings := { queue := fun _ => Queue.null, node := fun _ => QueueNode.null }
  node _ := MsgQueueNode.zero
  msgQueues := { queue := fun _ => Queue.null, node := fun _ => QueueNode.null }
  memory := memory
  enabled := 0
  faults := []
  log := []

def initCommunication (s : State) : State :=
  (List.range maxTasks.toNat).foldl
    (fun s (index : ℕ) => { s with
      msgQueues := s.msgQueues.setQueue index Queue.null }) s

/-- `RtkLaunch` up to the run loop. -/
def rtkLaunch (image : Image) (memory : Memory) : State :=
  let s := enableInterrupt (staticState image memory) picTimer01
  let s := initCommunication (initTasks s)
  let s := (createTask s .null image.nullProcess).2
  (createTask s .low image.init).2

/-- The state in which the first task runs, `now` being the timer value at its
activation. -/
def Booted (s : State) : Prop :=
  ∃ image memory now, scheduleAndActivate (rtkLaunch image memory) now = some s

end Rtk.Kernel
