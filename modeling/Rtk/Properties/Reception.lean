import Rtk.Properties.SerialServer

/-!
# The order of the received bytes

A byte that the server reads reaches the receive secretary directly when it waits, and
through the receive buffer otherwise.  A byte is dropped only when the buffer is full.
-/

namespace Rtk.SerialServer

open Rtk.ByteMemory
open Rtk.Lib
open Rtk.Transition

/-! ## What an iteration does for the reception -/

/-- The byte that an output replies to the receive secretary. -/
def Output.reply : Output → Option Byte
  | replyReceive recv => some recv
  | _ => none

def replies (outputs : List Output) : List Byte := outputs.filterMap Output.reply

def Uart.Full (uart : Uart) : Prop := uart.receiveFlags &&& uartfrRxff ≠ 0

instance (uart : Uart) : Decidable uart.Full := inferInstanceAs (Decidable (_ ≠ _))

/-- The byte that the server reads from the UART while it handles a message. -/
def Message.read (message : Message) : Option Byte :=
  if message.req.type = ssNotifier ∧ message.uart.Full then
    some (message.uart.data.setWidth 8)
  else none

/-- The reception side of the state is unchanged and no reply is made. -/
structure Unreceived (s : State) (outputs : List Output) (s' : State) : Prop where
  receiveBuffer : s'.receiveBuffer = s.receiveBuffer
  awaitingReceive : s'.awaitingReceive = s.awaitingReceive
  replies : replies outputs = []

/-- What an iteration can do for the reception. -/
inductive Receives (s : State) (message : Message) (outputs : List Output) (s' : State) : Prop
  /-- It is no `SS_RECEIVE`, and no byte is read. -/
  | still (hunmoved : Unreceived s outputs s') (htype : message.req.type ≠ ssReceive)
      (hread : message.read = none)
  /-- A byte is read for a secretary that waits. -/
  | handed (recv : Byte) (hread : message.read = some recv)
      (hawaiting : s.awaitingReceive = true) (hbuffer : s'.receiveBuffer = s.receiveBuffer)
      (hdone : s'.awaitingReceive = false) (hreplies : replies outputs = [recv])
  /-- A byte is read otherwise. -/
  | stored (recv : Byte) (hread : message.read = some recv)
      (hidle : s.awaitingReceive = false)
      (hbuffer : s'.receiveBuffer = (cyclicBufferPush s.receiveBuffer fun _ => recv).2)
      (hstill : s'.awaitingReceive = false) (hreplies : replies outputs = [])
  /-- `SS_RECEIVE` while the buffer is empty. -/
  | waits (htype : message.req.type = ssReceive) (hempty : s.receiveBuffer.numEls = 0)
      (hbuffer : s'.receiveBuffer = s.receiveBuffer) (hawaiting : s'.awaitingReceive = true)
      (hreplies : replies outputs = [])
  /-- `SS_RECEIVE` otherwise. -/
  | taken (htype : message.req.type = ssReceive) (hnonempty : s.receiveBuffer.numEls ≠ 0)
      (hbuffer : s'.receiveBuffer = (cyclicBufferPop s.receiveBuffer).2.2)
      (hstill : s'.awaitingReceive = s.awaitingReceive)
      (hreplies : replies outputs = (cyclicBufferPop s.receiveBuffer).2.1.getD [])

section Receives

variable {s : State} {message : Message}

@[simp]
theorem replies_append (left right : List Output) :
    replies (left ++ right) = replies left ++ replies right := List.filterMap_append

theorem Message.read_of_ne (htype : message.req.type ≠ ssNotifier) : message.read = none :=
  if_neg fun hboth => htype hboth.1

/-- A notification that shows a byte reads it. -/
theorem Message.ne_of_read {recv : Byte} (hread : message.read = some recv) :
    message.req.type ≠ ssReceive := by
  rw [Message.read] at hread
  split_ifs at hread with hboth
  rw [hboth.1]
  decide

theorem unreceived_popTransmit (s : State) : Unreceived s s.popTransmit.1 s.popTransmit.2 := by
  refine ⟨rfl, rfl, ?_⟩
  rw [State.popTransmit, replies, List.filterMap_map]
  simp [Function.comp_def, Output.reply]

theorem unreceived_transmitted (s : State) (uart : Uart) :
    Unreceived s (s.transmitted uart).1 (s.transmitted uart).2 := by
  have hpopped := (unreceived_popTransmit { s with awaitingTransmit := false }).replies
  rw [State.transmitted]
  dsimp only
  split_ifs
  · exact ⟨rfl, rfl, rfl⟩
  · refine ⟨rfl, rfl, ?_⟩
    rw [replies_append, replies_append, hpopped]
    rfl
  · refine ⟨rfl, rfl, ?_⟩
    rw [replies_append, replies_append, hpopped]
    rfl
  · exact ⟨rfl, rfl, rfl⟩

theorem unreceived_transmit (s : State) (data : Byte) :
    Unreceived s (s.transmit data).1 (s.transmit data).2 := by
  obtain ⟨pushed, hpushed⟩ : ∃ pushed, pushed =
    (cyclicBufferPush s.transmitBuffer fun _ => data).2 := ⟨_, rfl⟩
  obtain ⟨replied, hreplied⟩ : ∃ replied, replied =
    if isCyclicBufferFull pushed then [] else [Output.replyTransmit] := ⟨_, rfl⟩
  have hnone : replies replied = [] := by
    rw [hreplied]
    split_ifs <;> rfl
  have hpopped := (unreceived_popTransmit { s with
    transmitBuffer := pushed
    awaitingTransmit := true }).replies
  rw [State.transmit, ← hpushed, ← hreplied]
  cases hbusy : s.awaitingTransmit with
  | true =>
      simp only [if_true]
      exact ⟨rfl, rfl, hnone⟩
  | false =>
      simp only [Bool.false_eq_true, if_false]
      refine ⟨rfl, rfl, ?_⟩
      rw [replies_append, hnone, hpopped]
      rfl

/-- The reception side of `SS_NOTIFIER`. -/
theorem receives_notified (htype : message.req.type = ssNotifier) :
    Receives s message (s.notified message.uart).1 (s.notified message.uart).2 := by
  obtain ⟨hbuffer, hawaiting, hreplies⟩ :=
    unreceived_transmitted (s.received message.uart).2 message.uart
  have hall : replies (s.notified message.uart).1 = replies (s.received message.uart).1 := by
    rw [State.notified, replies_append, replies_append, hreplies, List.append_nil]
    rfl
  have hserved : (s.notified message.uart).2 =
      ((s.received message.uart).2.transmitted message.uart).2 := rfl
  rw [← hserved] at hbuffer hawaiting
  by_cases hfull : message.uart.Full
  · have hread : message.read = some (message.uart.data.setWidth 8) :=
      if_pos ⟨htype, hfull⟩
    have hshows : message.uart.receiveFlags &&& uartfrRxff ≠ 0 := hfull
    rw [State.received, if_pos hshows] at hbuffer hawaiting hall
    cases hwaits : s.awaitingReceive with
    | true =>
        simp only [hwaits, if_true] at hbuffer hawaiting hall
        exact .handed _ hread hwaits hbuffer hawaiting hall
    | false =>
        simp only [hwaits, Bool.false_eq_true, if_false] at hbuffer hawaiting hall
        exact .stored _ hread hwaits hbuffer hawaiting hall
  · have hnothing : ¬message.uart.receiveFlags &&& uartfrRxff ≠ 0 := hfull
    rw [State.received, if_neg hnothing] at hbuffer hawaiting hall
    refine .still ⟨hbuffer, hawaiting, hall⟩ ?_ (if_neg fun hboth => hfull hboth.2)
    rw [htype]
    decide

/-- The case `SS_RECEIVE`. -/
theorem receives_receive (htype : message.req.type = ssReceive) :
    Receives s message s.receive.1 s.receive.2 := by
  rw [State.receive]
  split_ifs with hempty
  · exact .waits htype (isCyclicBufferEmpty_iff.mp hempty) rfl rfl rfl
  · have hnonempty : s.receiveBuffer.numEls ≠ 0 := fun hzero =>
      hempty (isCyclicBufferEmpty_iff.mpr hzero)
    refine .taken htype hnonempty rfl rfl ?_
    rw [replies, List.filterMap_map]
    exact List.filterMap_some

theorem receives_serve (s : State) (message : Message) :
    Receives s message (s.serve message.uart message.req).1
      (s.serve message.uart message.req).2 := by
  rw [State.serve]
  split_ifs with hnotifier hreceive htransmit
  · exact receives_notified hnotifier
  · exact receives_receive hreceive
  · exact .still (unreceived_transmit s _) hreceive (Message.read_of_ne hnotifier)
  · exact .still ⟨rfl, rfl, rfl⟩ hreceive (Message.read_of_ne hnotifier)

end Receives

/-! ## The bytes reach the secretary in order -/

def repliedBytes (history : List Iteration) : List Byte :=
  replies (history.flatMap Iteration.outputs)

def receiveRequests (history : List Iteration) : ℕ :=
  history.countP fun iteration => iteration.message.req.type = ssReceive

/-- The secretary's last `SS_RECEIVE` is not replied to after an iteration. -/
def leftWaiting (unreplied : Bool) (iteration : Iteration) : Bool :=
  (unreplied || iteration.message.req.type = ssReceive) && (replies iteration.outputs).isEmpty

/-- The secretary's last `SS_RECEIVE` is not replied to after a history. -/
def receiveUnreplied (history : List Iteration) : Bool :=
  history.foldl leftWaiting false

/-- The server with the bytes that it read while its receive buffer was not full. -/
structure Reception where
  run : Run
  kept : List Byte

def Reception.handle (reception : Reception) (message : Message) : Reception where
  run := reception.run.handle message
  kept := reception.kept ++
    if isCyclicBufferFull reception.run.server.receiveBuffer then [] else message.read.toList

/-- The secretary sends the next `SS_RECEIVE` only after being replied. -/
def Asks (reception : Reception) (message : Message) : Prop :=
  message.req.type = ssReceive → receiveUnreplied reception.run.history = false

instance (reception : Reception) (message : Message) : Decidable (Asks reception message) :=
  inferInstanceAs (Decidable (_ → _))

/-- What was replied and what the buffer holds is what was read, in order; the flag says
whether the secretary waits, and then the next byte read is replied to it. -/
structure Received (reception : Reception) : Prop where
  order : repliedBytes reception.run.history ++ reception.run.server.receiveBuffer.contents =
    reception.kept
  awaiting : reception.run.server.awaitingReceive = true ↔
    receiveUnreplied reception.run.history = true
  empty : reception.run.server.awaitingReceive = true →
    isCyclicBufferEmpty reception.run.server.receiveBuffer = true
  once : (repliedBytes reception.run.history).length +
    (receiveUnreplied reception.run.history).toNat = receiveRequests reception.run.history
  next : reception.run.server.awaitingReceive = true → ∀ uart : Uart, uart.Full →
    .replyReceive (uart.data.setWidth 8) ∈ (reception.run.server.notified uart).1

/-- The invariant of the reception: a secretary waits only for an empty buffer. -/
structure Mailbox (reception : Reception) : Prop where
  size : reception.run.server.receiveBuffer.size = ssBufferSize
  bytes : reception.run.server.receiveBuffer.Bytes
  order : repliedBytes reception.run.history ++ reception.run.server.receiveBuffer.contents =
    reception.kept
  awaiting : reception.run.server.awaitingReceive = receiveUnreplied reception.run.history
  empty : reception.run.server.awaitingReceive = true →
    reception.run.server.receiveBuffer.numEls = 0
  once : (repliedBytes reception.run.history).length +
    (receiveUnreplied reception.run.history).toNat = receiveRequests reception.run.history

section Reception

variable {reception : Reception} {message : Message}

theorem repliedBytes_handle (run : Run) (message : Message) :
    repliedBytes (run.handle message).history =
      repliedBytes run.history ++ replies (run.server.serve message.uart message.req).1 := by
  rw [repliedBytes, Run.handle, List.flatMap_append, replies_append, List.flatMap_singleton,
    repliedBytes]

theorem receiveRequests_handle (run : Run) (message : Message) :
    receiveRequests (run.handle message).history =
      receiveRequests run.history + if message.req.type = ssReceive then 1 else 0 := by
  rw [receiveRequests, Run.handle, List.countP_append, List.countP_singleton, receiveRequests]
  simp

theorem receiveUnreplied_handle (run : Run) (message : Message) :
    receiveUnreplied (run.handle message).history =
      ((receiveUnreplied run.history || message.req.type = ssReceive) &&
        (replies (run.server.serve message.uart message.req).1).isEmpty) := by
  rw [receiveUnreplied, Run.handle, List.foldl_append, receiveUnreplied]
  rfl

/-- A byte that arrives for a secretary that waits is replied to it. -/
theorem reply_of_awaiting {s : State} {uart : Uart} (hawaiting : s.awaitingReceive = true)
    (hfull : uart.Full) : .replyReceive (uart.data.setWidth 8) ∈ (s.notified uart).1 := by
  have hshows : uart.receiveFlags &&& uartfrRxff ≠ 0 := hfull
  rw [State.notified, State.received, if_pos hshows]
  simp [hawaiting]

theorem Mailbox.received (h : Mailbox reception) : Received reception where
  order := h.order
  awaiting := by rw [h.awaiting]
  empty hawaiting := isCyclicBufferEmpty_iff.mpr (h.empty hawaiting)
  once := h.once
  next hawaiting _ hfull := reply_of_awaiting hawaiting hfull

/-- A byte that is read is kept unless the buffer is full. -/
theorem kept_handle {read : Option Byte} (hread : message.read = read) :
    (reception.handle message).kept = reception.kept ++
      if isCyclicBufferFull reception.run.server.receiveBuffer then [] else read.toList := by
  rw [Reception.handle, hread]

/-- The buffer of a secretary that waits has room. -/
theorem Mailbox.not_full (h : Mailbox reception)
    (hwaits : reception.run.server.awaitingReceive = true) :
    isCyclicBufferFull reception.run.server.receiveBuffer = false := by
  rw [Bool.eq_false_iff, ne_eq, isCyclicBufferFull_iff, h.empty hwaits, h.size]
  decide

/-- The bytes stay in order, and the buffer keeps its shape. -/
theorem Mailbox.order_handle (h : Mailbox reception) (message : Message) :
    repliedBytes (reception.handle message).run.history ++
        (reception.handle message).run.server.receiveBuffer.contents =
          (reception.handle message).kept ∧
      (reception.handle message).run.server.receiveBuffer.Bytes ∧
      (reception.handle message).run.server.receiveBuffer.size = ssBufferSize := by
  have hserver : (reception.handle message).run.server =
      (reception.run.server.serve message.uart message.req).2 := rfl
  have hreplied : repliedBytes (reception.handle message).run.history =
      repliedBytes reception.run.history ++ _ := repliedBytes_handle reception.run message
  rw [hserver, hreplied, List.append_assoc]
  cases receives_serve reception.run.server message with
  | still hunmoved _ hread =>
      rw [hunmoved.replies, hunmoved.receiveBuffer, kept_handle hread, List.nil_append, h.order]
      refine ⟨?_, h.bytes, h.size⟩
      split_ifs <;> exact (List.append_nil _).symm
  | handed recv hread hwaits hbuffer _ hreplies =>
      have hnone := contents_eq_nil_iff.mpr (h.empty hwaits)
      have horder := h.order
      rw [hnone, List.append_nil] at horder
      rw [hreplies, hbuffer, kept_handle hread, h.not_full hwaits, hnone, ← horder]
      exact ⟨rfl, h.bytes, h.size⟩
  | stored recv hread _ hbuffer _ hreplies =>
      rw [hreplies, hbuffer, kept_handle hread, size_push, List.nil_append]
      refine ⟨?_, h.bytes.push _, h.size⟩
      by_cases hfull : isCyclicBufferFull reception.run.server.receiveBuffer = true
      · rw [if_pos hfull, cyclicBufferPush_of_full (isCyclicBufferFull_iff.mp hfull),
          List.append_nil, h.order]
      · have hroom := fun hsame => hfull (isCyclicBufferFull_iff.mpr hsame)
        rw [if_neg hfull, contents_push h.bytes hroom, ← List.append_assoc, h.order]
        rfl
  | waits htype _ hbuffer _ hreplies =>
      have hread := @Message.read_of_ne message (by rw [htype]; decide)
      rw [hreplies, hbuffer, kept_handle hread, List.nil_append, h.order]
      refine ⟨?_, h.bytes, h.size⟩
      split_ifs <;> exact (List.append_nil _).symm
  | taken htype hnonempty hbuffer _ hreplies =>
      have hread := @Message.read_of_ne message (by rw [htype]; decide)
      obtain ⟨data, hdata, hcontents⟩ := contents_pop h.bytes hnonempty
      rw [hreplies, hbuffer, kept_handle hread, hdata, size_pop, ← h.order, hcontents]
      refine ⟨?_, h.bytes.pop, h.size⟩
      split_ifs <;> exact (List.append_nil _).symm

/-- The flag follows the requests and the replies. -/
theorem Mailbox.awaiting_handle (h : Mailbox reception) (hasks : Asks reception message) :
    (reception.handle message).run.server.awaitingReceive =
        receiveUnreplied (reception.handle message).run.history ∧
      ((reception.handle message).run.server.awaitingReceive = true →
        (reception.handle message).run.server.receiveBuffer.numEls = 0) ∧
      (repliedBytes (reception.handle message).run.history).length +
          (receiveUnreplied (reception.handle message).run.history).toNat =
        receiveRequests (reception.handle message).run.history := by
  have hserver : (reception.handle message).run.server =
      (reception.run.server.serve message.uart message.req).2 := rfl
  have hreplied : repliedBytes (reception.handle message).run.history =
      repliedBytes reception.run.history ++ _ := repliedBytes_handle reception.run message
  have hunreplied : receiveUnreplied (reception.handle message).run.history = _ :=
    receiveUnreplied_handle reception.run message
  have hrequests : receiveRequests (reception.handle message).run.history = _ :=
    receiveRequests_handle reception.run message
  have honce := h.once
  rw [hserver, hreplied, hunreplied, hrequests, List.length_append]
  cases receives_serve reception.run.server message with
  | still hunmoved htype _ =>
      rw [hunmoved.replies, hunmoved.receiveBuffer, hunmoved.awaitingReceive, h.awaiting]
      have hempty := h.empty
      rw [h.awaiting] at hempty
      simpa [htype] using ⟨hempty, honce⟩
  | handed recv hread hwaits hbuffer hdone hreplies =>
      have htype := Message.ne_of_read hread
      rw [← h.awaiting, hwaits] at honce
      rw [hreplies, hdone]
      simpa [htype] using honce
  | stored recv hread hidle hbuffer hstill hreplies =>
      have htype := Message.ne_of_read hread
      rw [← h.awaiting, hidle] at honce
      rw [hreplies, hstill, ← h.awaiting, hidle]
      simpa [htype] using honce
  | waits htype hnone hbuffer hwaits hreplies =>
      have hanswered := hasks htype
      rw [hanswered] at honce
      rw [hreplies, hwaits, hbuffer, hnone, hanswered]
      simpa [htype] using honce
  | taken htype hnonempty hbuffer hstill hreplies =>
      have hanswered := hasks htype
      obtain ⟨data, hdata, _⟩ := contents_pop h.bytes hnonempty
      rw [hanswered] at honce
      rw [hreplies, hdata, hstill, h.awaiting, hanswered]
      simpa [htype] using honce

theorem Mailbox.step (h : Mailbox reception) (hasks : Asks reception message) :
    Mailbox (reception.handle message) := by
  obtain ⟨horder, hbytes, hsize⟩ := h.order_handle message
  obtain ⟨hawaiting, hempty, honce⟩ := h.awaiting_handle hasks
  exact ⟨hsize, hbytes, horder, hawaiting, hempty, honce⟩

end Reception

/-- The server before its first message has read nothing. -/
def startReception (tbuffer rbuffer : ℕ → Byte) : Reception := ⟨start tbuffer rbuffer, []⟩

theorem mailbox_start (tbuffer rbuffer : ℕ → Byte) : Mailbox (startReception tbuffer rbuffer) where
  size := rfl
  bytes := ⟨rfl, (by decide : 0 < ssBufferSize), Nat.zero_le _⟩
  order := rfl
  awaiting := rfl
  empty := nofun
  once := rfl

/-- As long as the secretary sends the next request only after being replied, the bytes
that found room reach it in order, one for each request. -/
theorem receives_in_order (tbuffer rbuffer : ℕ → Byte) {messages : List Message}
    (hasks : EachStep Reception.handle Asks (startReception tbuffer rbuffer) messages) :
    Throughout Reception.handle Received (startReception tbuffer rbuffer) messages := by
  have hmailbox : Throughout Reception.handle Mailbox (startReception tbuffer rbuffer) messages :=
    hasks.throughout Mailbox.step (mailbox_start tbuffer rbuffer)
  exact hmailbox.mono Mailbox.received

def sampleRequest : Message := ⟨⟨ssReceive, 0⟩, ⟨0, 0, 0⟩⟩
def sampleArrival : Message := ⟨⟨ssNotifier, 0⟩, ⟨uartfrRxff, 0x62, 0⟩⟩

/-- The secretary waits for the first byte and finds the second in the buffer. -/
theorem receives_in_order_sample : Throughout Reception.handle Received
    (startReception (fun _ => 0) fun _ => 0)
    [sampleRequest, sampleArrival, sampleArrival, sampleRequest] :=
  receives_in_order (fun _ => 0) (fun _ => 0) (by decide +kernel)

end Rtk.SerialServer
