import Rtk.Kernel.Trap
import Rtk.Usr.ClockServer

/-!
# The timer notifier and the clock server as tasks

`TimerNotifier` of `usr/clockserver.c` from its first `AwaitEvent` on, and the loop of
`ClockServer` cut at the system calls that it makes.
-/

namespace Rtk.ClockServer

open Rtk.ByteMemory
open Rtk.Lib

/-- The tids of the two tasks, and the addresses of their local variables `req` and, for
the server, `sender_tid` and `num_ticks`. -/
structure Clock where
  notifier : ℤ
  server : ℤ
  tick : ℕ
  senderTid : ℕ
  req : ℕ
  numTicks : ℕ

/-- `sizeof( struct ClockRequest )`. -/
def requestSize : Word := 8

/-- `sizeof( int )`. -/
def intSize : Word := 4

/-- The call that `TimerNotifier` makes next. -/
inductive NotifierCall where
  | awaitEvent
  | send
  deriving DecidableEq

namespace NotifierCall

def call (clock : Clock) : NotifierCall → Kernel.Call
  | awaitEvent => .awaitEvent Kernel.picTimer01
  | send => .send clock.server clock.tick requestSize Kernel.nullAddress 0

def next : NotifierCall → NotifierCall
  | awaitEvent => send
  | send => awaitEvent

end NotifierCall

/-- Where `ClockServer` is in its loop: in `Receive`, with the node of the message once it
was taken; in the `switch`, with the replies left and the variables behind it; or in the
loop behind the `switch`, with the replies left, and then back at `Receive`. -/
inductive Phase where
  | receiving (node : Option Kernel.MsgQueueNode)
  | answering (req : ClockRequest) (replies : List Reply) (next : State)
  | releasing (replies : List Reply)

def Reply.call (clock : Clock) (reply : Reply) : Kernel.Call :=
  match reply.ticks with
  | some _ => .reply reply.tid clock.numTicks intSize
  | none => .reply reply.tid Kernel.nullAddress 0

namespace Phase

/-- The call that the server makes next, unless it has something to do before. -/
def call (clock : Clock) : Phase → Option Kernel.Call
  | receiving _ => none
  | answering _ [] _ => none
  | answering _ (reply :: _) _ => some (reply.call clock)
  | releasing [] => some (.receive clock.senderTid clock.req requestSize)
  | releasing (reply :: _) => some (reply.call clock)

def called : Phase → Phase
  | receiving node => receiving node
  | answering req replies next => answering req replies.tail next
  | releasing [] => receiving none
  | releasing (_ :: replies) => releasing replies

def took (clock : Clock) : Phase → ℤ × Kernel.MsgQueueNode → Phase
  | receiving none, (tid, node) =>
      if tid = clock.server then receiving (some node) else receiving none
  | phase, _ => phase

end Phase

/-- The node has the pointers of the server's `Receive`. -/
def Pointed (clock : Clock) (node : Kernel.MsgQueueNode) : Prop :=
  node.putTid = clock.senderTid ∧ node.receiveBuffer = clock.req ∧
    node.receiveBufferSize = requestSize

/-- What the server finds in `sender_tid` and `req` when its `Receive` returns: if
`CompleteReceive` wrote there, the tid of the sender and its request, which is a tick if the
sender is the notifier; and anything otherwise. -/
def Reads (clock : Clock) (node : Kernel.MsgQueueNode) (senderTid : ℤ) (req : ClockRequest) :
    Prop :=
  Pointed clock node →
    senderTid = node.fromTid ∧ (node.fromTid = clock.notifier → req.type = csTick)

end Rtk.ClockServer
