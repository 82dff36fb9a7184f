import Rtk.Properties.KernelEntry
import Rtk.Properties.Preemption

/-!
# Tasks on the machine

The machine runs the rounds of the kernel: `Activate` gives a task the registers in its
frame, and what the task does until its next trap leads back behind the call of `Activate`.
In orderly runs a task goes on with the registers that it had.
-/

namespace Rtk.Arch

open Function
open Rtk.Arm
open Rtk.ByteMemory
open Rtk.Transition

/-! ## A round of the machine -/

/-- What a task may change before its next trap: in user mode it reaches neither the stack of
the kernel nor the pointer to it. -/
structure Runs (m u : Machine) : Prop where
  user : UserMode u
  sp : u.sp .supervisor = m.sp .supervisor
  memory : u.memory .supervisor = m.memory .supervisor

section Rounds

variable {W : Type*} {linkage : Linkage CFunction} {fuel : ℕ} {inputs : Kernel.Trap}
  {s : Kernel.State} {k m u : Machine}

theorem Runs.waits (h : Runs m u) (hwaits : Waits k m []) : Waits k u [] :=
  hwaits.congr h.sp h.memory

end Rounds

/-! ## Going on -/

namespace Context

/-- The stack pointer is at a word and has room for the registers below it. -/
structure Settled (c : Context) : Prop where
  aligned : 4 ∣ c.sp.toNat
  room : 4 * Kernel.numRegsPopped ≤ c.sp.toNat

instance (c : Context) : Decidable c.Settled :=
  decidable_of_iff (4 ∣ c.sp.toNat ∧ 4 * Kernel.numRegsPopped ≤ c.sp.toNat)
    ⟨fun h => ⟨h.1, h.2⟩, fun h => ⟨h.1, h.2⟩⟩

section Settled

variable {c : Context} {memory : Memory} {address : ℕ}

theorem Settled.toNat_framed (h : c.Settled) :
    c.framed.toNat + 4 * Kernel.numRegsPopped = c.sp.toNat := by
  have hroom := h.room
  have hlarge := c.sp.isLt
  rw [framed, BitVec.toNat_sub, BitVec.toNat_ofNat]
  simp only [Kernel.numRegsPopped] at *
  omega

theorem Settled.wordAddress_framed (h : c.Settled) : wordAddress c.framed = c.framed.toNat := by
  have hframed := h.toNat_framed
  have haligned := h.aligned
  apply wordAddress_of_aligned
  simp only [Kernel.numRegsPopped] at hframed
  omega

theorem Settled.fits (h : c.Settled) :
    wordAddress c.framed + 4 * taskRegisters.length ≤ 2 ^ 32 := by
  have hframed := h.toNat_framed
  have hlarge := c.sp.isLt
  rw [h.wordAddress_framed]
  simp only [Kernel.numRegsPopped] at hframed
  simp only [taskRegisters, List.length_cons, List.length_nil]
  omega

end Settled

end Context

section Resumption

variable {W : Type*} {s s' : Kernel.State} {c : Context} {memory : Memory}
  {inputs : Kernel.Trap} {k : Machine}

end Resumption

/-! ## Computed runs -/

def CFunction.all : List CFunction :=
  ([.create, .pass, .exit, .myTid, .myParentTid, .send, .receive, .reply, .awaitEvent,
    .setPriority, .getPriority, .setMyPriority, .getMyPriority, .getTaskStats, .getTasksStats,
    .destroy] : List SystemCall).map .handler ++
  [.getTimerTime, .handleIrq, .saveTaskState, .setCurrentTaskReturnValue]

section Orderly

variable {s : Kernel.State} {c : Context} {inputs : Kernel.Trap} {action : Kernel.Action}

end Orderly

def sampleTick : Kernel.Action := .interrupt (-4) (Kernel.sampleTrap 0x103f00)

end Rtk.Arch
