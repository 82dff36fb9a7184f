import Rtk.Invariant.Walks
import Rtk.Invariant.Reaping
import Rtk.Invariant.Create

/-!
# Nodes, message queues and task states

Each task owns one node.  While the task is `RECEIVE_BLOCKED` its node is linked
in the queue of the receiver; while it is `SEND_BLOCKED` the node holds its
pending `Receive`, and while it is `REPLY_BLOCKED` the reply buffer of its last
`Send`.  Destroying a task leaves its node and its queue as they are, so a
linked node may outlive the tasks it names.
-/

namespace Rtk.Kernel

open Function
open Rtk.ByteMemory
open Rtk.Lib
open Rtk.Lib.QueueHeap

/-! ## The history of an exchange -/

/-- What a `Send` has put into a node: the fields that a `Receive` sets are
cleared. -/
def MsgQueueNode.message (node : MsgQueueNode) : MsgQueueNode :=
  node.withReceive nullAddress nullAddress 0

theorem fields_of_message {n n' : MsgQueueNode} (hmessage : n.message = n'.message) :
    n.fromTid = n'.fromTid ∧ n.toTid = n'.toTid ∧ n.msgBuffer = n'.msgBuffer ∧
      n.msgBufferSize = n'.msgBufferSize := by
  rw [MsgQueueNode.ext_iff] at hmessage
  obtain ⟨hfrom, hto, _, hbuffer, hsize, _⟩ := hmessage
  exact ⟨hfrom, hto, hbuffer, hsize⟩

def Event.sentBy (tid : ℤ) : Event → Option MsgQueueNode
  | .sent node => if node.fromTid = tid then some node.message else none
  | _ => none

def Event.sentTo (tid : ℤ) : Event → Option MsgQueueNode
  | .sent node => if node.toTid = tid then some node.message else none
  | _ => none

def Event.takenBy (tid : ℤ) : Event → Option MsgQueueNode
  | .taken receiver node => if receiver = tid then some node.message else none
  | _ => none

/-- The pointers and the size of a waiting `Receive` of `tid`. -/
def Event.waitingOf (tid : ℤ) : Event → Option (ℕ × ℕ × Word)
  | .waiting receiver putTid msg msglen =>
      if receiver = tid then some (putTid, msg, msglen) else none
  | _ => none

def lastSent (log : List Event) (tid : ℤ) : Option MsgQueueNode :=
  (log.filterMap (Event.sentBy tid)).getLast?

def lastWaiting (log : List Event) (tid : ℤ) : Option (ℕ × ℕ × Word) :=
  (log.filterMap (Event.waitingOf tid)).getLast?

/-- The messages sent to `tid`, in the order of the accepted sends. -/
def sentMessages (log : List Event) (tid : ℤ) : List MsgQueueNode :=
  log.filterMap (Event.sentTo tid)

/-- The messages that the receives of `tid` have taken, in order. -/
def takenMessages (log : List Event) (tid : ℤ) : List MsgQueueNode :=
  log.filterMap (Event.takenBy tid)

/-- Events that record no message are invisible to a query about messages. -/
theorem filterMap_quiet {A : Type*} {query : Event → Option A}
    (hquery : ∀ event, ¬event.IsMessage → query event = none)
    {events : List Event} (hevents : ∀ event ∈ events, ¬event.IsMessage)
    (log : List Event) :
    (log ++ events).filterMap query = log.filterMap query := by
  have hnone : events.filterMap query = [] := by
    rw [List.filterMap_eq_nil_iff]
    exact fun event hevent => hquery event (hevents event hevent)
  rw [List.filterMap_append, hnone, List.append_nil]

theorem sentBy_quiet (tid : ℤ) (event : Event) (hevent : ¬event.IsMessage) :
    event.sentBy tid = none := by
  cases event <;> simp_all [Event.sentBy, Event.IsMessage]

theorem sentTo_quiet (tid : ℤ) (event : Event) (hevent : ¬event.IsMessage) :
    event.sentTo tid = none := by
  cases event <;> simp_all [Event.sentTo, Event.IsMessage]

theorem takenBy_quiet (tid : ℤ) (event : Event) (hevent : ¬event.IsMessage) :
    event.takenBy tid = none := by
  cases event <;> simp_all [Event.takenBy, Event.IsMessage]

theorem waitingOf_quiet (tid : ℤ) (event : Event) (hevent : ¬event.IsMessage) :
    event.waitingOf tid = none := by
  cases event <;> simp_all [Event.waitingOf, Event.IsMessage]

/-! ## The invariant -/

/-- A linked node names its sender's slot and the slot of the queue. -/
structure Linked (s : State) (queue index : ℤ) : Prop where
  index_inTable : InTable index
  queue_inTable : InTable queue
  from_nonneg : 0 ≤ (s.node index).fromTid
  to_nonneg : 0 ≤ (s.node index).toTid
  slot_from : slot (s.node index).fromTid = index
  slot_to : slot (s.node index).toTid = queue
  from_le : (s.node index).fromTid ≤ (s.task index).tid

/-- The fields of the node decide whom it names, and a tid only grows. -/
theorem Linked.frame {s s' : State} {queue index : ℤ} (h : Linked s queue index)
    (hfrom : (s'.node index).fromTid = (s.node index).fromTid)
    (hto : (s'.node index).toTid = (s.node index).toTid)
    (htid : (s.task index).tid ≤ (s'.task index).tid) : Linked s' queue index where
  index_inTable := h.index_inTable
  queue_inTable := h.queue_inTable
  from_nonneg := hfrom ▸ h.from_nonneg
  to_nonneg := hto ▸ h.to_nonneg
  slot_from := hfrom ▸ h.slot_from
  slot_to := hto ▸ h.slot_to
  from_le := hfrom ▸ Int.le_trans h.from_le htid

/-- Nodes, queues, states and history agree, but for the tasks that wait for a
message. -/
structure Posted (s : State) (queues : Lists ℤ ℤ) : Prop where
  represents : Represents s.msgQueues queues
  linked : ∀ {queue index}, index ∈ queues queue → Linked s queue index
  state_of_linked : ∀ {queue index}, index ∈ queues queue → Allocated s index →
    (s.node index).fromTid = (s.task index).tid →
    (s.task index).state = .receiveBlocked
  receiveBlocked : ∀ {index}, InTable index →
    (s.task index).state = .receiveBlocked →
    (∃ queue, index ∈ queues queue) ∧
      (s.node index).fromTid = (s.task index).tid ∧
      lastSent s.log (s.task index).tid = some (s.node index).message
  replyBlocked : ∀ {index}, InTable index → (s.task index).state = .replyBlocked →
    (∀ queue, index ∉ queues queue) ∧
      (s.node index).fromTid = (s.task index).tid ∧
      lastSent s.log (s.task index).tid = some (s.node index).message

/-- A task that waits for a message has an empty queue, and its node holds its
pending `Receive`. -/
def Awaits (s : State) (queues : Lists ℤ ℤ) (index : ℤ) : Prop :=
  queues index = [] ∧ (∀ queue, index ∉ queues queue) ∧
    lastWaiting s.log (s.task index).tid =
      some ((s.node index).putTid, (s.node index).receiveBuffer,
        (s.node index).receiveBufferSize)

/-- Nodes, queues, states and history agree. -/
structure Messages (s : State) (queues : Lists ℤ ℤ) : Prop
    extends Posted s queues where
  sendBlocked : ∀ {index}, InTable index → (s.task index).state = .sendBlocked →
    Awaits s queues index

/-! ## Steps that exchange no message -/

/-- A descriptor changes without an exchange: the same task stays where it was
or leaves for a state outside any exchange, or it is destroyed, or a new task
starts in the slot. -/
def Transit (task task' : Task) : Prop :=
  task'.tid = task.tid ∧ (0 ≤ task'.state.value → 0 ≤ task.state.value) ∧
      Unaffected task.state task'.state ∨
    task.tid ≤ task'.tid ∧ ¬0 ≤ task'.state.value ∨
    task.tid < task'.tid ∧ ¬task'.state.Exchanging

theorem Transit.tid_le {task task' : Task} (h : Transit task task') :
    task.tid ≤ task'.tid := by
  rcases h with ⟨htid, _⟩ | ⟨hle, _⟩ | ⟨hlt, _⟩ <;> omega

/-- A descriptor that ends in an exchange was in it before. -/
theorem Transit.of_exchanging {task task' : Task} (h : Transit task task')
    (hstate : task'.state.Exchanging) :
    task'.tid = task.tid ∧ task'.state = task.state := by
  rcases h with ⟨htid, _, hsame | ⟨_, hnot⟩⟩ | ⟨_, hnot⟩ | ⟨_, hnot⟩
  · exact ⟨htid, hsame⟩
  · exact absurd hstate hnot
  · rcases hstate with hstate | hstate | hstate <;>
      · rw [hstate] at hnot
        exact absurd (by decide) hnot
  · exact absurd hstate hnot

theorem Quiet.transit {s s' : State} (h : Quiet s s') (index : ℤ) :
    Transit (s.task index) (s'.task index) :=
  .inl ⟨h.keeps.tid index, (h.keeps.allocated_iff index).mp, h.state index⟩

section Transit

variable {s s' : State} {queues : Lists ℤ ℤ}

theorem Messages.transit (h : Messages s queues) (hnode : s'.node = s.node)
    (hqueues : s'.msgQueues = s.msgQueues)
    (hlog : ∃ events, s'.log = s.log ++ events ∧
      ∀ event ∈ events, ¬event.IsMessage)
    (htransit : ∀ index, Transit (s.task index) (s'.task index)) :
    Messages s' queues := by
  obtain ⟨events, hlog, hquiet⟩ := hlog
  have hsent : ∀ tid, lastSent s'.log tid = lastSent s.log tid := by
    intro tid
    rw [lastSent, hlog, filterMap_quiet (sentBy_quiet tid) hquiet, lastSent]
  have hwaiting : ∀ tid, lastWaiting s'.log tid = lastWaiting s.log tid := by
    intro tid
    rw [lastWaiting, hlog, filterMap_quiet (waitingOf_quiet tid) hquiet, lastWaiting]
  refine ⟨⟨?_, ?_, ?_, ?_, ?_⟩, ?_⟩
  · rw [hqueues]
    exact h.represents
  · intro queue index hmem
    exact (h.linked hmem).frame (by rw [hnode]) (by rw [hnode]) (htransit index).tid_le
  · intro queue index hmem halloc
    rw [hnode]
    intro hown
    have hle := (h.linked hmem).from_le
    rcases htransit index with ⟨htid, hlive, hstate⟩ | ⟨_, hnot⟩ | ⟨hlt, _⟩
    · rw [htid] at hown
      have hold := h.state_of_linked hmem (hlive halloc) hown
      rcases hstate with hsame | ⟨hnot, _⟩
      · rw [hsame, hold]
      · exact absurd hold hnot
    · exact absurd halloc hnot
    · omega
  · intro index hindex hstate
    obtain ⟨htid, hsame⟩ := (htransit index).of_exchanging
      (by simp [hstate, TaskState.Exchanging])
    rw [hsame] at hstate
    rw [hnode, htid, hsent]
    exact h.receiveBlocked hindex hstate
  · intro index hindex hstate
    obtain ⟨htid, hsame⟩ := (htransit index).of_exchanging
      (by simp [hstate, TaskState.Exchanging])
    rw [hsame] at hstate
    rw [hnode, htid, hsent]
    exact h.replyBlocked hindex hstate
  · intro index hindex hstate
    obtain ⟨htid, hsame⟩ := (htransit index).of_exchanging
      (by simp [hstate, TaskState.Exchanging])
    rw [hsame] at hstate
    rw [Awaits, hnode, htid, hwaiting]
    exact h.sendBlocked hindex hstate

theorem Messages.quiet (h : Messages s queues) (hquiet : Quiet s s') :
    Messages s' queues :=
  h.transit hquiet.node hquiet.msgQueues hquiet.log hquiet.transit

end Transit

end Rtk.Kernel
