import Rtk.Arch.ContextSwitch
import Rtk.Core.ArmCode

/-!
# The entries of the kernel

`irq_entry` and `svc_entry` call the functions of the kernel as one round of its loop has
them, and come back from `Activate` as the procedure call standard requires.  `Activate`
takes a task up with what is in its frame.
-/

namespace Rtk.Arch

open Function
open Rtk.Arm
open Rtk.ByteMemory

/-! ## The registers in the frames -/

/-- The registers that the kernel saves at a call of `Activate` from `k`. -/
def kernelFrame (k : Machine) : Register → Word
  | .r index => if index = 12 then k.sp .supervisor else k.r index
  | .lr => k.lr .supervisor
  | .sp => k.sp .supervisor
  | .pc => k.pc

/-- The kernel has called `Activate` from `k` and waits for it to return; an entry has pushed
`words` above its frame. -/
structure Waits (k m : Machine) (words : List Word) : Prop where
  room : 80 ≤ (k.sp .supervisor).toNat
  stacked : Stacked m .supervisor (k.sp .supervisor) (k.memory .supervisor)
    (words ++ kernelRegisters.map (kernelFrame k))

/-- `Activate`, called from `k`, has returned to the kernel: the registers that the procedure
call standard saves are as they were, and so is the stack above its pointer. -/
structure Returned (k m : Machine) : Prop where
  bank : m.bank = .supervisor
  privileged : m.Privileged
  pc : m.pc = k.lr .supervisor
  sp : m.sp .supervisor = k.sp .supervisor
  saved : ∀ index : Fin 13, 4 ≤ index.val → index.val < 12 → m.r index = k.r index
  stack : ∀ target, wordAddress (k.sp .supervisor) ≤ target →
    m.memory .supervisor target = k.memory .supervisor target

section Waiting

variable {W : Type*} (env : Env CFunction W) {k m m' : Machine} {w : W} {result : Word}
  {memory : Memory} {words : List Word}

theorem Waits.congr (h : Waits k m words) (hsp : m'.sp .supervisor = m.sp .supervisor)
    (hmemory : m'.memory .supervisor = m.memory .supervisor) : Waits k m' words :=
  ⟨h.room, h.stacked.congr hsp fun target _ => by rw [hmemory]⟩

theorem Waits.called (h : Waits k m words) (hbank : m.bank = .supervisor)
    (hcalled : Called m m' result memory) : Waits k m' words :=
  ⟨h.room, h.stacked.called hbank (by decide) hcalled⟩

theorem Waits.push (h : Waits k m words) (registers : List Register)
    (hbank : m.bank = .supervisor)
    (hroom : registers.length + (words.length + kernelRegisters.length) ≤ 20) :
    Waits k (m.push registers) (registers.map m.get ++ words) := by
  refine ⟨h.room, ?_⟩
  rw [List.append_assoc]
  apply h.stacked.push registers hbank
  rw [List.length_append, List.length_map]
  exact Nat.le_trans (Nat.mul_le_mul_left 4 hroom) h.room

theorem Waits.pop {registers : List Register} {f : Register → Word}
    (h : Waits k m (registers.map f ++ words)) (hbank : m.bank = .supervisor)
    (hblock : ∀ register ∈ registers, register.Block) : Waits k (m.pop registers) words := by
  have hstacked := h.stacked
  rw [List.append_assoc] at hstacked
  exact ⟨h.room, hstacked.pop hbank hblock⟩

end Waiting

/-! ## Taking up a task -/

section Activate

variable {W : Type*} (env : Env CFunction W) {k : Machine} {c : Context} {w : W}

end Activate

/-! ## Interrupts -/

/-- The code of the interrupt that `irq_entry` finds in the controller. -/
def intrCode (memory : Memory) : ℤ :=
  ((loadWord memory (wordAddress pic)).clz - 31).toInt

section Irq

variable (linkage : Linkage CFunction) (fuel : ℕ) (inputs : Kernel.Trap) {k m : Machine}
  {s : Kernel.State}

end Irq

/-! ## System calls -/

section Svc

variable (linkage : Linkage CFunction) (fuel : ℕ) (inputs : Kernel.Trap) {k m : Machine}
  {s : Kernel.State}

end Svc

/-! ## Traps -/

section Traps

variable (linkage : Linkage CFunction) (fuel : ℕ) (inputs : Kernel.Trap) {k u : Machine}
  {s : Kernel.State}

def UserMode (m : Machine) : Prop := m.cpsr &&& 0x1F = 0x10

theorem UserMode.bank (h : UserMode u) : u.bank = .user := by
  rw [Machine.bank, bankOf, h]
  decide

end Traps

end Rtk.Arch
