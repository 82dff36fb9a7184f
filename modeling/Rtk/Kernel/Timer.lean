import Rtk.Core.Countdown
import Rtk.Kernel.Trap

/-!
# The timer of the kernel

The timer of `arch/arm/system.c`, and the places at which one round of the kernel reads it.
Between any two of them the timer runs on.
-/

namespace Rtk.Kernel

open Rtk.ByteMemory

def timerInterruptQuantum : ℕ := 10000

abbrev Timer := Countdown timerInterruptQuantum

def timersInit (timer : Timer) : Timer := timer.load

def timerWentOff (timer : Timer) : Bool := timer.wentOff

def clearTimerInterrupt (timer : Timer) : Timer := timer.clear

def getTimerTime (timer : Timer) : Word := timer.value

def AcknowledgesTimer (intrCode : ℤ) : Prop :=
  intrCode < 0 ∧ isTimerInterrupt ((1 : Word) <<< (-intrCode).toNat)

instance (intrCode : ℤ) : Decidable (AcknowledgesTimer intrCode) :=
  inferInstanceAs (Decidable (_ ∧ _))

/-- The second look of `HandleIrq` at the timer, at `atClear`: the timer is cleared some
time after it if it went off. -/
def Acknowledged (atClear cleared : Timer) : Prop :=
  if timerWentOff atClear then
    ∃ later : Timer, atClear.Elapses later ∧ cleared = clearTimerInterrupt later
  else cleared = atClear

/-- From `timer` at the activation of a task to `next` at the next activation, the readings
of the round are those of the timer. -/
inductive Reads (timer : Timer) : Action → Timer → Prop
  | call {call : Call} {trap : Trap} {atEntry atSave next : Timer}
      (hentry : timer.Elapses atEntry) (hsave : atEntry.Elapses atSave)
      (hnext : atSave.Elapses next)
      (entry : trap.timer.entry = getTimerTime atEntry)
      (wentOffAtSave : trap.timer.wentOffAtSave = timerWentOff atSave)
      (activation : trap.timer.activation = getTimerTime next) :
      Reads timer (.call call trap) next
  | interrupt {intrCode : ℤ} {trap : Trap} {atEntry atIrq atClear cleared atSave next : Timer}
      (hentry : timer.Elapses atEntry) (hirq : atEntry.Elapses atIrq)
      (hclear : atIrq.Elapses atClear)
      (hcleared : if AcknowledgesTimer intrCode then Acknowledged atClear cleared
        else cleared = atClear)
      (hsave : cleared.Elapses atSave) (hnext : atSave.Elapses next)
      (entry : trap.timer.entry = getTimerTime atEntry)
      (wentOffAtIrq : trap.timer.wentOffAtIrq = timerWentOff atIrq)
      (wentOffAtClear : AcknowledgesTimer intrCode →
        trap.timer.wentOffAtClear = timerWentOff atClear)
      (wentOffAtSave : trap.timer.wentOffAtSave = timerWentOff atSave)
      (activation : trap.timer.activation = getTimerTime next) :
      Reads timer (.interrupt intrCode trap) next

end Rtk.Kernel
