import Rtk.Invariant.Rounds
import Rtk.Usr.TimerNotifier

/-!
# The clock in the kernel

The kernel with the timer notifier, the clock server and any other tasks.  A tick starts with
a timer interrupt that wakes the notifier, travels in the notifier's message, and ends when
the server counts it.
-/

namespace Rtk.ClockServer

open Rtk.Kernel
open Rtk.Lib
open Rtk.Transition

/-! ## The kernel, the notifier and the server -/

/-- The kernel, with the two tasks of the clock and the number of timer interrupts that
`HandleIrq` has handled. -/
structure Ticks where
  kernel : Kernel.State
  notifier : NotifierCall
  phase : Phase
  server : State
  interrupts : ℕ

/-- A round of the kernel, or a step of the server between two system calls: it reads a
request and enters the `switch`, or leaves the `switch` for the loop behind it. -/
inductive Action where
  | round (action : Kernel.Action)
  | read (senderTid : ℤ) (req : ClockRequest)
  | settle

def IsTick : Kernel.Action → Prop
  | .interrupt intrCode _ => intrCode < 0 ∧ isTimerInterrupt (1 <<< (-intrCode).toNat)
  | .call _ _ => False

instance (action : Kernel.Action) : Decidable (IsTick action) :=
  match action with
  | .interrupt _ _ => inferInstanceAs (Decidable (_ ∧ _))
  | .call _ _ => inferInstanceAs (Decidable False)

/-- The call that the task `tid` makes. -/
def callOf (s : Kernel.State) (action : Kernel.Action) (tid : ℤ) : Option Call :=
  if getCurrentTid s = tid then action.call? else none

namespace Ticks

/-- A round of the kernel in which the two tasks, if they run, make the calls of their
loops. -/
structure Round (clock : Clock) (t : Ticks) (action : Kernel.Action) (t' : Ticks) : Prop where
  step : Kernel.Step t.kernel action t'.kernel
  notifierCall : ∀ call, callOf t.kernel action clock.notifier = some call →
    t.notifier.call clock = call
  serverCall : ∀ call, callOf t.kernel action clock.server = some call →
    t.phase.call clock = some call
  notifier : t'.notifier =
    if (callOf t.kernel action clock.notifier).isSome then t.notifier.next else t.notifier
  phase : ∃ events, t'.kernel.log = t.kernel.log ++ events ∧
    t'.phase = (events.filterMap Event.taking).foldl (Phase.took clock)
      (if (callOf t.kernel action clock.server).isSome then t.phase.called else t.phase)
  server : t'.server = t.server
  interrupts : t'.interrupts = t.interrupts + if IsTick action then 1 else 0

def Read (clock : Clock) (t : Ticks) (senderTid : ℤ) (req : ClockRequest) (t' : Ticks) :
    Prop :=
  getCurrentTid t.kernel = clock.server ∧
    ∃ node fuel replies next, t.phase = .receiving (some node) ∧
      Reads clock node senderTid req ∧
      t.server.answer fuel senderTid req = some (replies, next) ∧
      t' = { t with phase := .answering req replies next }

/-- The server leaves the `switch`, and its variables are those behind the `switch`. -/
def Settle (clock : Clock) (t t' : Ticks) : Prop :=
  getCurrentTid t.kernel = clock.server ∧
    ∃ req fuel replies next head, t.phase = .answering req [] next ∧
      next.release fuel next.delayedQueue.first = some (replies, head) ∧
      t' = { t with
        phase := .releasing replies
        server := { next with delayedQueue := { next.delayedQueue with first := head } } }

end Ticks

/-! ## Ticks in flight -/

/-- The tick that the notifier has, or that is in its message while the server has not
taken it. -/
def NotifierCall.ticks : NotifierCall → TaskState → ℕ
  | send, .eventBlocked => 0
  | send, _ => 1
  | awaitEvent, .receiveBlocked => 1
  | awaitEvent, _ => 0

/-- The tick that the server has taken and not counted. -/
def Phase.ticks (clock : Clock) : Phase → ℕ
  | receiving (some node) => if node.fromTid = clock.notifier then 1 else 0
  | answering req _ _ => if req.type = csTick then 1 else 0
  | _ => 0

def inFlight (clock : Clock) (s : Kernel.State) (notifier : NotifierCall) (phase : Phase) :
    ℕ :=
  notifier.ticks (s.task (slot clock.notifier)).state + phase.ticks clock

/-- Every timer interrupt is counted, or its tick is in flight. -/
def Ticks.Counted (clock : Clock) (t : Ticks) : Prop :=
  (t.interrupts : ℤ) =
    t.server.numTicks.toInt + inFlight clock t.kernel t.notifier t.phase

/-- The kernel has the notifier where it may be before its next call. -/
def NotifierCall.Fits (clock : Clock) (s : Kernel.State) : NotifierCall → Prop
  | send =>
      (s.task (slot clock.notifier)).state.Running ∨
        (s.task (slot clock.notifier)).state = .eventBlocked ∧
          (s.task (slot clock.notifier)).awaitingEventId = picTimer01
  | awaitEvent =>
      (s.task (slot clock.notifier)).state.Running ∨
        (s.task (slot clock.notifier)).state = .receiveBlocked ∧
          (s.node (slot clock.notifier)).toTid = clock.server ∨
        (s.task (slot clock.notifier)).state = .replyBlocked

/-- The kernel has the server where it is. -/
def Phase.Fits (clock : Clock) (s : Kernel.State) : Phase → Prop
  | receiving none =>
      (s.task (slot clock.server)).state = .sendBlocked ∧
        Pointed clock (s.node (slot clock.server))
  | receiving (some node) =>
      (s.task (slot clock.server)).state.Running ∧ Pointed clock node
  | _ => (s.task (slot clock.server)).state.Running

/-- The variables behind the `switch` follow from those of the server. -/
def Phase.Follows (server : State) : Phase → Prop
  | answering req _ next =>
      next.numTicks = server.numTicks + if req.type = csTick then 1 else 0
  | _ => True

/-! ## Runs -/

namespace Ticks

/-- The notifier has made its first `AwaitEvent`. -/
structure Starts (clock : Clock) (t : Ticks) : Prop where
  reachable : Reachable Kernel.kernel NoDestroy t.kernel
  notifierAlive : isTaskAlive t.kernel clock.notifier
  serverAlive : isTaskAlive t.kernel clock.server
  blocked : (t.kernel.task (slot clock.notifier)).state = .eventBlocked
  event : (t.kernel.task (slot clock.notifier)).awaitingEventId = picTimer01
  notifier : t.notifier = .send
  fits : t.phase.Fits clock t.kernel
  follows : t.phase.Follows t.server
  uncounted : t.phase.ticks clock = 0
  numTicks : t.server.numTicks = 0
  interrupts : t.interrupts = 0

end Ticks

/-- The clock in a kernel with any other tasks. -/
def ticks (clock : Clock) : System Ticks Action where
  initial := Ticks.Starts clock
  step t action t' :=
    match action with
    | .round action => t.Round clock action t'
    | .read senderTid req => t.Read clock senderTid req t'
    | .settle => t.Settle clock t'

/-- The notifier is the task that `UnblockTaskWaitingOnEvent` finds for the timer. -/
def Notifies (clock : Clock) (s : Kernel.State) : Prop :=
  ∃ lists, Represents s.taskQueues lists ∧
    firstWaiting s lists picTimer01 Priority.all = some (slot clock.notifier)

/-- A timer interrupt finds the notifier waiting, and their number fits into `num_ticks`;
the server finds at most one message; no other task sends a tick; and no task is
destroyed. -/
def Ticks.Spaced (clock : Clock) (t : Ticks) : Action → Prop
  | .round action =>
      NoDestroy t.kernel action ∧
        (IsTick action → Notifies clock t.kernel ∧ t.interrupts + 1 < 2 ^ 31) ∧
        ∀ tid msg msglen, callOf t.kernel action clock.server = some (.receive tid msg msglen) →
          ∃ nodes, Contents t.kernel.msgQueues (slot clock.server) nodes ∧ nodes.length ≤ 1
  | .read senderTid req => senderTid ≠ clock.notifier → req.type ≠ csTick
  | .settle => True

end Rtk.ClockServer
