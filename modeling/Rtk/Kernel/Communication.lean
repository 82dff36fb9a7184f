import Rtk.Kernel.Task
import Rtk.Lib.String

/-!
# Message passing

The functions of `kernel/communication.c`.  Each task has one statically
allocated node, which first describes its pending `Receive` or `Send` and then
the reply it waits for.  The local records that `SendProxy` and `ReceiveProxy`
copy over a node leave some fields uninitialised; `uninit` is what the kernel
stack holds there.
-/

namespace Rtk.Kernel

open Rtk.ByteMemory
open Rtk.Lib

def errSendImpossibleTid : ℤ := -1
def errSendNonexistentTask : ℤ := -2
def errReplyImpossibleTid : ℤ := -1
def errReplyNonexistentTask : ℤ := -2
def errNotReplyBlocked : ℤ := -3
def errBufferTooSmall : ℤ := -4

def State.copy (s : State) (dest src num : ℕ) : State :=
  { s with memory := memcpy s.memory dest src num }.emit (.copied dest src num)

/-- `memcpy` of a local record over a node, its links included. -/
def State.copyMsgNode (s : State) (index : ℤ) (node : MsgQueueNode)
    (links : QueueNode ℤ) : State :=
  { s.setMsgNode index node with msgQueues := s.msgQueues.setNode index links }

def completeReceive (s : State) (tid : ℤ) : ℤ × State :=
  let dequeued := s.msgQueues.dequeueQueue (slot tid)
  let s := { s with msgQueues := dequeued.2 }
  let n := s.node (dequeued.1.getD maxTasks)
  let s := s.emit (.taken tid n)
  let s := s.storeWord n.putTid (BitVec.ofInt 32 n.fromTid)
  let s :=
    if n.receiveBuffer ≠ nullAddress ∧ n.msgBuffer ≠ nullAddress then
      s.copy n.receiveBuffer n.msgBuffer
        (min n.receiveBufferSize n.msgBufferSize).toNat
    else s
  let s := setTaskState s n.fromTid .replyBlocked
  let s := setTaskState s n.toTid .ready
  let s := setTaskReturnValue s n.toTid n.msgBufferSize.toInt
  (n.msgBufferSize.toInt, s)

def sendNode (uninit : MsgQueueNode) (fromTid tid : ℤ) (msg : ℕ) (msglen : Word)
    (reply : ℕ) (replylen : Word) : MsgQueueNode :=
  { uninit with
    toTid := tid
    fromTid := fromTid
    msgBuffer := msg
    msgBufferSize := msglen
    replyBuffer := reply
    replyBufferSize := replylen }

/-- `node` with the fields that a `Receive` sets. -/
def MsgQueueNode.withReceive (node : MsgQueueNode) (putTid msg : ℕ)
    (msglen : Word) : MsgQueueNode :=
  { node with
    putTid := putTid
    receiveBuffer := msg
    receiveBufferSize := msglen }

def sendProxy (s : State) (uninit : MsgQueueNode) (tid : ℤ) (msg : ℕ)
    (msglen : Word) (reply : ℕ) (replylen : Word) : ℤ × State :=
  if !isValidTid tid then (errSendImpossibleTid, s)
  else if !isTaskAlive s tid then (errSendNonexistentTask, s)
  else
    let mytid := getCurrentTid s
    let n := sendNode uninit mytid tid msg msglen reply replylen
    let s := s.copyMsgNode (slot mytid) n QueueNode.null
    let s := s.emit (.sent n)
    let s := { s with
      msgQueues := s.msgQueues.enqueueQueue (slot tid) (slot mytid) }
    let s := setCurrentTaskState s .receiveBlocked
    if getTaskState s tid = .sendBlocked then
      let receiver := s.node (slot tid)
      let s := s.setMsgNode (slot mytid)
        ((s.node (slot mytid)).withReceive receiver.putTid receiver.receiveBuffer
          receiver.receiveBufferSize)
      completeReceive s tid
    else (returnStatusOk, s)

def receiveProxy (s : State) (uninit : MsgQueueNode) (uninitLinks : QueueNode ℤ)
    (tid msg : ℕ) (msglen : Word) : ℤ × State :=
  let mytid := getCurrentTid s
  let queue := s.msgQueues.queue (slot mytid)
  if queue.first = none then
    let s := setCurrentTaskState s .sendBlocked
    let n := uninit.withReceive tid msg msglen
    let s := s.copyMsgNode (slot mytid) n uninitLinks
    (returnStatusOk, s.emit (.waiting mytid tid msg msglen))
  else
    -- the newest node gets the pointers, `CompleteReceive` takes the oldest
    let index := queue.last.getD maxTasks
    let s := s.setMsgNode index ((s.node index).withReceive tid msg msglen)
    completeReceive s mytid

def replyProxy (s : State) (tid : ℤ) (reply : ℕ) (replylen : Word) : ℤ × State :=
  let n := s.node (slot tid)
  if !isValidTid tid then (errReplyImpossibleTid, s)
  else if !isTaskAlive s tid then (errReplyNonexistentTask, s)
  else if getTaskState s tid ≠ .replyBlocked then (errNotReplyBlocked, s)
  else
    let s :=
      if n.replyBuffer ≠ nullAddress ∧ reply ≠ nullAddress then
        s.copy n.replyBuffer reply (min n.replyBufferSize replylen).toNat
      else s
    let s := setTaskState s n.fromTid .ready
    let s := setTaskReturnValue s n.fromTid replylen.toInt
    if n.replyBufferSize.slt replylen then (errBufferTooSmall, s)
    else (returnStatusOk, s)

end Rtk.Kernel
