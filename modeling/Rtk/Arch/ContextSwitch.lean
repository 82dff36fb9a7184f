import Rtk.Core.Arm
import Rtk.Kernel.Trap

/-!
# Entering and leaving the kernel

`arch/arm/context_switch.s` and the stubs of `arch/arm/syscall.s`, instruction by
instruction, and the functions of the kernel that they call.  The stack of the kernel is
apart from the memory of the tasks.
-/

namespace Rtk.Arch

open Rtk.Arm
open Rtk.ByteMemory

inductive SystemCall where
  | create
  | pass
  | exit
  | myTid
  | myParentTid
  | send
  | receive
  | reply
  | awaitEvent
  | setPriority
  | getPriority
  | setMyPriority
  | getMyPriority
  | getTaskStats
  | getTasksStats
  | destroy
  deriving DecidableEq

/-- The functions of the kernel that are called: the handler of each system call, and those
that the entries name. -/
inductive CFunction where
  | handler (call : SystemCall)
  | getTimerTime
  | handleIrq
  | saveTaskState
  | setCurrentTaskReturnValue
  deriving DecidableEq

/-! The names that the source uses for registers. -/

abbrev r0 : Register := .r 0
abbrev r10 : Register := .r 10
abbrev r11 : Register := .r 11
abbrev a1 : Register := .r 0
abbrev a2 : Register := .r 1
abbrev a3 : Register := .r 2
abbrev a4 : Register := .r 3
abbrev fp : Register := .r 11
abbrev ip : Register := .r 12

/-- `{r0,r1,r2,r3,r4,r5,r6,r7,r8,r9,r10,fp,ip,lr}`. -/
def taskRegisters : List Register :=
  [.r 0, .r 1, .r 2, .r 3, .r 4, .r 5, .r 6, .r 7, .r 8, .r 9, .r 10, fp, ip, .lr]

/-- `{r4,r5,r6,r7,r8,r9,r10,fp,ip,lr}`. -/
def kernelRegisters : List Register :=
  [.r 4, .r 5, .r 6, .r 7, .r 8, .r 9, .r 10, fp, ip, .lr]

/-- `{r0-r9}`. -/
def argumentRegisters : List Register :=
  [.r 0, .r 1, .r 2, .r 3, .r 4, .r 5, .r 6, .r 7, .r 8, .r 9]

/-- `{r4-r9}`. -/
def stackedRegisters : List Register := [.r 4, .r 5, .r 6, .r 7, .r 8, .r 9]

def pic : Word := 0x10140000

/-! `CPSR_c` of the modes, with interrupts masked. -/

def systemMode : Word := 0xDF
def supervisorMode : Word := 0xD3
def irqMode : Word := 0xD2

@[simp] theorem bankOf_systemMode : bankOf systemMode = .user := by decide
@[simp] theorem bankOf_irqMode : bankOf irqMode = .irq := by decide
@[simp] theorem privilegedMode_systemMode : PrivilegedMode systemMode := by decide
@[simp] theorem privilegedMode_irqMode : PrivilegedMode irqMode := by decide

section Listings

variable {W : Type*} (env : Env CFunction W)

def irqEntry : List Instr :=
  -- save user stack and load sp
  [.msrControl systemMode,
    .push taskRegisters,
    -- call irq handler
    .msrControl supervisorMode,
    .literal a1 pic,
    .ldr a1 a1 0,
    .clz a1 a1,
    .sub a1 a1 31,
    .mov .lr .pc,
    .literal .pc (env.address .handleIrq),
    .mov a4 r0,
    -- save user state
    .msrControl systemMode,
    .mov a2 .sp,
    .msrControl irqMode,
    .sub a3 .lr 4,
    .mrsSpsr a1,
    .msrControl supervisorMode,
    .mov .lr .pc,
    .literal .pc (env.address .saveTaskState),
    -- jump into kernel
    .pop kernelRegisters,
    .mov .sp ip,
    .bx .lr]

def svcEntry : List Instr :=
  [.msrControl supervisorMode,
    -- save current timer value
    .push argumentRegisters,
    .mov .lr .pc,
    .literal .pc (env.address .getTimerTime),
    .mov r11 r0,
    .pop argumentRegisters,
    .push [r11],
    -- call svc
    .push stackedRegisters,
    .blx r10,
    .mov r10 r0,
    .pop stackedRegisters,
    -- save user state
    .msrControl systemMode,
    .mov a3 .lr,
    .mov a2 .sp,
    .msrControl supervisorMode,
    .pop [a4],
    .mrsSpsr a1,
    .mov .lr .pc,
    .literal .pc (env.address .saveTaskState),
    .mov a1 r10,
    .mov .lr .pc,
    .literal .pc (env.address .setCurrentTaskReturnValue),
    -- jump into kernel
    .pop kernelRegisters,
    .mov .sp ip,
    .bx .lr]

end Listings

/-! ## The functions of the kernel -/

/-- The call that a handler finds in its arguments. -/
def SystemCall.call (args : Arguments) : SystemCall → Kernel.Call
  | .create => .create args.r0.toInt args.r1
  | .pass => .pass
  | .exit => .exit
  | .myTid => .myTid
  | .myParentTid => .myParentTid
  | .send => .send args.r0.toInt args.r1.toNat args.r2 args.r3.toNat args.stack
  | .receive => .receive args.r0.toNat args.r1.toNat args.r2
  | .reply => .reply args.r0.toInt args.r1.toNat args.r2
  | .awaitEvent => .awaitEvent args.r0
  | .setPriority => .setPriority args.r0.toInt args.r1.toInt
  | .getPriority => .getPriority args.r0.toInt
  | .setMyPriority => .setMyPriority args.r0.toNat
  | .getMyPriority => .getMyPriority
  | .getTaskStats => .getTaskStats args.r0.toInt args.r1.toNat
  | .getTasksStats => .getTasksStats args.r0.toNat
  | .destroy => .destroy args.r0.toInt

/-- What a task has in the machine. -/
structure Context where
  r : Fin 13 → Word
  sp : Word
  lr : Word
  pc : Word
  cpsr : Word

namespace Context

def get (c : Context) : Register → Word
  | .r index => c.r index
  | .sp => c.sp
  | .lr => c.lr
  | .pc => c.pc

/-- The stack pointer behind the registers that are pushed. -/
def framed (c : Context) : Word := c.sp - BitVec.ofNat 32 (4 * Kernel.numRegsPopped)

def pushed (c : Context) (memory : Memory) : Memory :=
  storeWords memory c.framed (taskRegisters.map c.get)

/-- The arguments of a system call: that of `Send` has a fifth one on the stack. -/
def arguments (c : Context) (memory : Memory) (call : SystemCall) : Arguments :=
  ⟨c.r 0, c.r 1, c.r 2, c.r 3,
    if call = .send then loadWord (c.pushed memory) (wordAddress c.sp) else c.r 4⟩

end Context

end Rtk.Arch
