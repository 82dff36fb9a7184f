import Mathlib.Logic.Function.Basic
import Rtk.Core.WordBlock

/-!
# A fragment of the ARM machine

The registers with their banks, the instructions that an exception entry needs, and straight
pieces of code that call compiled functions.  A compiled function keeps to the procedure call
standard: what the standard lets it change is arbitrary, everything else is kept.

A block transfer through a stack pointer uses the memory of its bank, so that the stack of a
privileged mode is apart from what user code can address; every other access uses the memory
of user mode.
-/

namespace Rtk.Arm

open Function
open Rtk.ByteMemory

/-- The banks of the stack pointer and of the link register.  User and system mode share
one. -/
inductive Bank where
  | user
  | supervisor
  | irq
  deriving DecidableEq

instance neZero_registers : @NeZero ℕ Zero.ofOfNat0 13 := ⟨by decide⟩

/-- A register that all modes share, a banked one, or the program counter. -/
inductive Register where
  | r (index : Fin 13)
  | sp
  | lr
  | pc
  deriving DecidableEq

structure Machine where
  r : Fin 13 → Word
  sp : Bank → Word
  lr : Bank → Word
  spsr : Bank → Word
  cpsr : Word
  pc : Word
  memory : Bank → Memory

def bankOf (cpsr : Word) : Bank :=
  if cpsr &&& 0x1F = 0x13 then .supervisor
  else if cpsr &&& 0x1F = 0x12 then .irq
  else .user

/-- The mode in the low five bits is not user mode. -/
def PrivilegedMode (cpsr : Word) : Prop := cpsr &&& 0x1F ≠ 0x10

instance (cpsr : Word) : Decidable (PrivilegedMode cpsr) :=
  inferInstanceAs (Decidable (_ ≠ _))

/-! ## Modes -/

section Modes

variable (cpsr flags : Word)

/-- The mode behind `msr CPSR_c`. -/
theorem mode_control (imm : Word) : (cpsr &&& 0xFFFFFF00 ||| imm) &&& 0x1F = imm &&& 0x1F := by
  rw [BitVec.and_or_distrib_right, BitVec.and_assoc,
    (by decide : (0xFFFFFF00 : Word) &&& 0x1F = 0#32), BitVec.and_zero, BitVec.zero_or]

theorem bankOf_control (imm : Word) : bankOf (cpsr &&& 0xFFFFFF00 ||| imm) = bankOf imm := by
  rw [bankOf, bankOf, mode_control]

/-- The mode of a handler. -/
theorem mode_exception (control : Word) :
    (cpsr &&& 0xFFFFFF40 ||| (control ||| 0x80)) &&& 0x1F = control &&& 0x1F := by
  rw [BitVec.and_or_distrib_right, BitVec.and_assoc,
    (by decide : (0xFFFFFF40 : Word) &&& 0x1F = 0#32), BitVec.and_zero, BitVec.zero_or,
    BitVec.and_or_distrib_right, (by decide : (0x80 : Word) &&& 0x1F = 0#32), BitVec.or_zero]

end Modes

namespace Machine

def bank (m : Machine) : Bank := bankOf m.cpsr

/-- A register as an operand: the program counter is two instructions ahead. -/
def get (m : Machine) : Register → Word
  | .r index => m.r index
  | .sp => m.sp m.bank
  | .lr => m.lr m.bank
  | .pc => m.pc + 8

def set (m : Machine) (register : Register) (value : Word) : Machine :=
  match register with
  | .r index => { m with r := update m.r index value }
  | .sp => { m with sp := update m.sp m.bank value }
  | .lr => { m with lr := update m.lr m.bank value }
  | .pc => { m with pc := value }

def next (m : Machine) : Machine := { m with pc := m.pc + 4 }

/-- `push`: the first register goes to the lowest address. -/
def push (m : Machine) (registers : List Register) : Machine :=
  let start := m.sp m.bank - BitVec.ofNat 32 (4 * registers.length)
  { m with
    sp := update m.sp m.bank start
    memory := update m.memory m.bank
      (storeWords (m.memory m.bank) start (registers.map m.get)) }

def setAll (m : Machine) : List Register → List Word → Machine
  | register :: registers, word :: words => (m.set register word).setAll registers words
  | _, _ => m

def pop (m : Machine) (registers : List Register) : Machine :=
  let start := m.sp m.bank
  { m with sp := update m.sp m.bank (start + BitVec.ofNat 32 (4 * registers.length)) }.setAll
    registers (loadWords (m.memory m.bank) start registers.length)

/-- Where a load through the register looks. -/
def through (m : Machine) : Register → Memory
  | .sp => m.memory m.bank
  | _ => m.memory .user

/-- An exception: the mode with the bits `control` is entered with interrupts masked. -/
def exception (m : Machine) (bank : Bank) (control vector returnAddress : Word) : Machine :=
  { m with
    lr := update m.lr bank returnAddress
    spsr := update m.spsr bank m.cpsr
    cpsr := m.cpsr &&& 0xFFFFFF40 ||| (control ||| 0x80)
    pc := vector }

def Privileged (m : Machine) : Prop := PrivilegedMode m.cpsr

instance (m : Machine) : Decidable m.Privileged :=
  inferInstanceAs (Decidable (PrivilegedMode _))

/-- `msr CPSR_c, #imm`, which has no effect in user mode. -/
def setControl (m : Machine) (imm : Word) : Machine :=
  if m.Privileged then { m with cpsr := m.cpsr &&& 0xFFFFFF00 ||| imm } else m

/-- `msr SPSR, rm`. -/
def setSpsr (m : Machine) (value : Word) : Machine :=
  { m with spsr := update m.spsr m.bank value }

/-- An interrupt before the instruction at `pc`. -/
def interrupt (m : Machine) : Machine := m.exception .irq 0x12 0x18 (m.pc + 4)

end Machine

/-! ## Instructions -/

inductive Instr where
  | mov (rd rm : Register)
  | sub (rd rn : Register) (imm : Word)
  | clz (rd rm : Register)
  /-- `ldr rd, [rn, #offset]`. -/
  | ldr (rd rn : Register) (offset : Word)
  /-- `ldr rd, label` or `ldr rd, =word`: the word from the literal pool. -/
  | literal (rd : Register) (word : Word)
  | push (registers : List Register)
  | pop (registers : List Register)
  | msrControl (imm : Word)
  | msrSpsr (rm : Register)
  | mrsSpsr (rd : Register)
  | bx (rm : Register)
  | blx (rm : Register)
  /-- `movs pc, rm`: return from an exception. -/
  | movsPc (rm : Register)
  | svc

namespace Instr

def exec (m : Machine) : Instr → Machine
  | .mov rd rm => m.next.set rd (m.get rm)
  | .sub rd rn imm => m.next.set rd (m.get rn - imm)
  | .clz rd rm => m.next.set rd (m.get rm).clz
  | .ldr rd rn offset =>
      m.next.set rd (loadWord (m.through rn) (wordAddress (m.get rn + offset)))
  | .literal rd word => m.next.set rd word
  | .push registers => m.next.push registers
  | .pop registers => m.next.pop registers
  | .msrControl imm => m.next.setControl imm
  | .msrSpsr rm => m.next.setSpsr (m.get rm)
  | .mrsSpsr rd => m.next.set rd (m.spsr m.bank)
  | .bx rm => { m with pc := m.get rm }
  | .blx rm => { m with lr := update m.lr m.bank (m.pc + 4), pc := m.get rm }
  | .movsPc rm => { m with cpsr := m.spsr m.bank, pc := m.get rm }
  | .svc => m.exception .supervisor 0x13 0x08 (m.pc + 4)

/-- Where control goes: to the next instruction, into a compiled function, or away. -/
inductive Control where
  | next
  | call
  | leave
  deriving DecidableEq

def control : Instr → Control
  | .literal .pc _ => .call
  | .blx _ => .call
  | .bx _ => .leave
  | .movsPc _ => .leave
  | .svc => .leave
  | _ => .next

end Instr

/-! ## Calls of compiled functions -/

/-- The arguments of a function: four registers and the first word on the stack. -/
structure Arguments where
  r0 : Word
  r1 : Word
  r2 : Word
  r3 : Word
  stack : Word

/-- What a function may leave in the registers and flags that need not be kept, and below the
stack pointer. -/
structure Scratch where
  r1 : Word
  r2 : Word
  r3 : Word
  r12 : Word
  lr : Word
  flags : Word
  stack : Memory

/-- Where the compiled functions `F` are linked, and what they leave. -/
structure Linkage (F : Type*) where
  address : F → Word
  function : Word → Option F
  function_address : ∀ f, function (address f) = some f
  scratch : F → Machine → Scratch

/-- The compiled functions over a state `W` of their own: what they return and do to memory
and to that state.  A function that does not return has no result. -/
structure Env (F W : Type*) extends Linkage F where
  call : F → Arguments → Memory → W → Option (Word × Memory × W)

def Machine.arguments (m : Machine) : Arguments :=
  ⟨m.r 0, m.r 1, m.r 2, m.r 3, loadWord (m.memory m.bank) (wordAddress (m.sp m.bank))⟩

/-- The machine behind a call with this result, under the procedure call standard. -/
def Machine.returned (m : Machine) (scratch : Scratch) (result : Word) (memory : Memory) :
    Machine :=
  { m with
    r := fun index =>
      if index = 0 then result
      else if index = 1 then scratch.r1
      else if index = 2 then scratch.r2
      else if index = 3 then scratch.r3
      else if index = 12 then scratch.r12
      else m.r index
    lr := update m.lr m.bank scratch.lr
    cpsr := m.cpsr &&& 0x07FFFFFF ||| scratch.flags &&& 0xF8000000
    pc := m.lr m.bank
    memory := update (update m.memory .user memory) m.bank fun target =>
      if target < wordAddress (m.sp m.bank) then scratch.stack target
      else update m.memory .user memory m.bank target }

variable {F W : Type*}

namespace Env

/-- The function at the program counter runs. -/
def enter (env : Env F W) (m : Machine) (w : W) : Option (Machine × W) :=
  (env.function m.pc).bind fun f =>
    (env.call f m.arguments (m.memory .user) w).map fun (result, memory, w) =>
      (m.returned (env.scratch f m) result memory, w)

/-- Run a straight piece of code.  A function must come back behind its call, and control
leaves the piece only at its end. -/
def run (env : Env F W) : List Instr → Machine → W → Option (Machine × W)
  | [], m, w => some (m, w)
  | instr :: rest, m, w =>
      match instr.control with
      | .next => env.run rest (instr.exec m) w
      | .call =>
          (env.enter (instr.exec m) w).bind fun (m', w) =>
            if m'.pc = m.pc + 4 then env.run rest m' w else none
      | .leave => if rest.isEmpty then some (instr.exec m, w) else none

end Env

/-! ## Registers and memory -/

namespace Machine

section Registers

variable (m : Machine) (index : Fin 13) (register : Register) (registers : List Register)
  (words : List Word) (value imm : Word)

@[simp] theorem next_r : m.next.r = m.r := rfl
@[simp] theorem next_spsr : m.next.spsr = m.spsr := rfl
@[simp] theorem next_cpsr : m.next.cpsr = m.cpsr := rfl
@[simp] theorem next_privileged : m.next.Privileged ↔ m.Privileged := Iff.rfl

@[simp] theorem set_r_r : (m.set (.r index) value).r = update m.r index value := rfl
@[simp] theorem set_sp_r : (m.set .sp value).r = m.r := rfl
@[simp] theorem set_lr_r : (m.set .lr value).r = m.r := rfl
@[simp] theorem set_sp_sp : (m.set .sp value).sp = update m.sp m.bank value := rfl
@[simp] theorem set_lr_sp : (m.set .lr value).sp = m.sp := rfl
@[simp] theorem set_r_lr : (m.set (.r index) value).lr = m.lr := rfl
@[simp] theorem set_sp_lr : (m.set .sp value).lr = m.lr := rfl
@[simp]
theorem set_spsr : (m.set register value).spsr = m.spsr := by
  cases register <;> rfl

@[simp]
theorem set_memory : (m.set register value).memory = m.memory := by
  cases register <;> rfl

@[simp]
theorem set_cpsr : (m.set register value).cpsr = m.cpsr := by
  cases register <;> rfl

@[simp]
theorem set_privileged : (m.set register value).Privileged ↔ m.Privileged := by
  rw [Privileged, set_cpsr, Privileged]

@[simp] theorem setSpsr_r : (m.setSpsr value).r = m.r := rfl
@[simp] theorem setSpsr_sp : (m.setSpsr value).sp = m.sp := rfl
@[simp] theorem setSpsr_lr : (m.setSpsr value).lr = m.lr := rfl
@[simp] theorem setSpsr_spsr : (m.setSpsr value).spsr = update m.spsr m.bank value := rfl
@[simp] theorem setSpsr_memory : (m.setSpsr value).memory = m.memory := rfl
@[simp] theorem setSpsr_bank : (m.setSpsr value).bank = m.bank := rfl
@[simp] theorem setSpsr_privileged : (m.setSpsr value).Privileged ↔ m.Privileged := Iff.rfl

@[simp]
theorem setControl_r : (m.setControl imm).r = m.r := by
  rw [setControl]
  split_ifs <;> rfl

@[simp]
theorem setControl_sp : (m.setControl imm).sp = m.sp := by
  rw [setControl]
  split_ifs <;> rfl

@[simp]
theorem setControl_lr : (m.setControl imm).lr = m.lr := by
  rw [setControl]
  split_ifs <;> rfl

@[simp]
theorem setControl_spsr : (m.setControl imm).spsr = m.spsr := by
  rw [setControl]
  split_ifs <;> rfl

@[simp]
theorem setControl_memory : (m.setControl imm).memory = m.memory := by
  rw [setControl]
  split_ifs <;> rfl

variable {m imm}

@[simp]
theorem setControl_bank (hm : m.Privileged) : (m.setControl imm).bank = bankOf imm := by
  rw [setControl, if_pos hm]
  exact bankOf_control m.cpsr imm

@[simp]
theorem setControl_privileged :
    (m.setControl imm).Privileged ↔ m.Privileged ∧ PrivilegedMode imm := by
  rw [setControl]
  split_ifs with hm
  · rw [and_iff_right hm, Privileged, PrivilegedMode, mode_control, PrivilegedMode]
  · exact iff_of_false hm fun h => hm h.1

variable (m)

@[simp] theorem push_r : (m.push registers).r = m.r := rfl

@[simp]
theorem push_sp : (m.push registers).sp =
    update m.sp m.bank (m.sp m.bank - BitVec.ofNat 32 (4 * registers.length)) := rfl

@[simp] theorem push_lr : (m.push registers).lr = m.lr := rfl
@[simp] theorem push_spsr : (m.push registers).spsr = m.spsr := rfl

@[simp]
theorem push_memory : (m.push registers).memory = update m.memory m.bank
    (storeWords (m.memory m.bank) (m.sp m.bank - BitVec.ofNat 32 (4 * registers.length))
      (registers.map m.get)) := rfl

@[simp] theorem push_cpsr : (m.push registers).cpsr = m.cpsr := rfl
@[simp] theorem push_privileged : (m.push registers).Privileged ↔ m.Privileged := Iff.rfl

@[simp]
theorem exception_bank (bank : Bank) (control vector address : Word) :
    (m.exception bank control vector address).bank = bankOf control := by
  rw [Machine.bank, bankOf, bankOf]
  simp only [exception, mode_exception]

@[simp]
theorem setAll_spsr : (m.setAll registers words).spsr = m.spsr := by
  induction registers generalizing m words with
  | nil => rfl
  | cons register registers ih =>
      cases words with
      | nil => rfl
      | cons word words => rw [setAll, ih, set_spsr]

@[simp]
theorem setAll_memory : (m.setAll registers words).memory = m.memory := by
  induction registers generalizing m words with
  | nil => rfl
  | cons register registers ih =>
      cases words with
      | nil => rfl
      | cons word words => rw [setAll, ih, set_memory]

@[simp]
theorem setAll_cpsr : (m.setAll registers words).cpsr = m.cpsr := by
  induction registers generalizing m words with
  | nil => rfl
  | cons register registers ih =>
      cases words with
      | nil => rfl
      | cons word words => rw [setAll, ih, set_cpsr]

@[simp]
theorem pop_spsr : (m.pop registers).spsr = m.spsr := setAll_spsr _ _ _

@[simp]
theorem pop_memory : (m.pop registers).memory = m.memory := setAll_memory _ _ _

@[simp]
theorem pop_cpsr : (m.pop registers).cpsr = m.cpsr := setAll_cpsr _ _ _

@[simp]
theorem pop_bank : (m.pop registers).bank = m.bank := by
  rw [bank, pop_cpsr, bank]

@[simp]
theorem pop_privileged : (m.pop registers).Privileged ↔ m.Privileged := by
  rw [Privileged, pop_cpsr, Privileged]

end Registers

end Machine

end Rtk.Arm
