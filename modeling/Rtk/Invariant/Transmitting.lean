import Rtk.Usr.SerialServer

/-!
# What an iteration does for the transmission

What an iteration of `SerialServer` does to the transmit buffer and to
`awaiting_transmit`, and what it sends and replies for the transmission.
-/

namespace Rtk.SerialServer

open Rtk.ByteMemory
open Rtk.Lib

/-- The byte that an output writes to the data register. -/
def Output.byte : Output → Option Byte
  | transmit data => some data
  | _ => none

def bytes (outputs : List Output) : List Byte := outputs.filterMap Output.byte

def clears (outputs : List Output) : ℕ := outputs.count .clearTransmit

def Uart.Empty (uart : Uart) : Prop := uart.transmitFlags &&& uartfrTxfe ≠ 0

instance (uart : Uart) : Decidable uart.Empty := inferInstanceAs (Decidable (_ ≠ _))

def State.Handles (s : State) (message : Message) : Prop :=
  message.req.type = ssNotifier ∧ s.awaitingTransmit = true ∧ message.uart.Empty

/-- A buffer of single bytes. -/
structure Sized (buffer : CyclicBuffer) : Prop where
  size : buffer.size = ssBufferSize
  dataSize : buffer.dataSize = 1
  numEls : buffer.numEls ≤ ssBufferSize

theorem Sized.push {buffer : CyclicBuffer} (h : Sized buffer) (data : ℕ → Byte) :
    Sized (cyclicBufferPush buffer data).2 where
  size := by rw [size_push, h.size]
  dataSize := by rw [dataSize_push, h.dataSize]
  numEls := by
    have hle := h.numEls
    rw [numEls_push, h.size]
    split_ifs
    · exact hle
    · omega

theorem Sized.pop {buffer : CyclicBuffer} (h : Sized buffer) :
    Sized (cyclicBufferPop buffer).2.2 where
  size := by rw [size_pop, h.size]
  dataSize := by rw [dataSize_pop, h.dataSize]
  numEls := by
    have hle := h.numEls
    rw [numEls_pop]
    omega

section Outputs

variable {s : State} {uart : Uart} {left right : List Output}

@[simp]
theorem bytes_append (left right : List Output) :
    bytes (left ++ right) = bytes left ++ bytes right := List.filterMap_append

@[simp]
theorem clears_append (left right : List Output) :
    clears (left ++ right) = clears left + clears right := List.count_append

/-- The transmission side of the state is unchanged and none of its outputs is made. -/
structure Unmoved (s : State) (outputs : List Output) (s' : State) : Prop where
  transmitBuffer : s'.transmitBuffer = s.transmitBuffer
  awaitingTransmit : s'.awaitingTransmit = s.awaitingTransmit
  bytes : bytes outputs = []
  clears : clears outputs = 0
  reply : .replyTransmit ∉ outputs

theorem unmoved_received (s : State) (uart : Uart) :
    Unmoved s (s.received uart).1 (s.received uart).2 := by
  rw [State.received]
  split_ifs
  · exact ⟨rfl, rfl, rfl, rfl, by simp⟩
  · exact ⟨rfl, rfl, rfl, rfl, by simp⟩
  · exact ⟨rfl, rfl, rfl, rfl, by simp⟩

theorem unmoved_receive (s : State) : Unmoved s s.receive.1 s.receive.2 := by
  rw [State.receive]
  split_ifs
  · exact ⟨rfl, rfl, rfl, rfl, by simp⟩
  · refine ⟨rfl, rfl, ?_, ?_, ?_⟩
    · rw [SerialServer.bytes, List.filterMap_map]
      simp [Function.comp_def, Output.byte]
    · rw [SerialServer.clears, List.count_eq_zero]
      simp
    · simp

/-- A pop of a byte that is there. -/
theorem popTransmit_of_nonempty (hsized : Sized s.transmitBuffer)
    (hnonempty : s.transmitBuffer.numEls ≠ 0) :
    ∃ data, s.popTransmit.1 = [.transmit data] := by
  have hempty : ¬isCyclicBufferEmpty s.transmitBuffer = true := by
    rw [isCyclicBufferEmpty_iff]
    exact hnonempty
  refine ⟨s.transmitBuffer.data (s.transmitBuffer.start + 0), ?_⟩
  rw [State.popTransmit, cyclicBufferPop, if_neg hempty, hsized.dataSize]
  rfl

end Outputs

/-- What an iteration can do for the transmission. -/
inductive Moves (s : State) (message : Message) (outputs : List Output) (s' : State) : Prop
  /-- It is no `SS_TRANSMIT`, and no notification is handled. -/
  | still (hunmoved : Unmoved s outputs s') (htype : message.req.type ≠ ssTransmit)
      (hnot : ¬s.Handles message)
  /-- A notification is handled and no byte waits. -/
  | drained (hhandles : s.Handles message) (hempty : s.transmitBuffer.numEls = 0)
      (hbuffer : s'.transmitBuffer = s.transmitBuffer)
      (hawaiting : s'.awaitingTransmit = false) (hbytes : bytes outputs = [])
      (hclears : clears outputs = 1) (hreply : .replyTransmit ∉ outputs)
  /-- A notification is handled and the next byte is sent. -/
  | sent (data : Byte) (hhandles : s.Handles message)
      (hnonempty : s.transmitBuffer.numEls ≠ 0)
      (hbuffer : s'.transmitBuffer = (cyclicBufferPop s.transmitBuffer).2.2)
      (hawaiting : s'.awaitingTransmit = false) (hbytes : bytes outputs = [data])
      (hclears : clears outputs = 1)
      (hreply : .replyTransmit ∈ outputs ↔ s.transmitBuffer.numEls = ssBufferSize)
  /-- `SS_TRANSMIT` while a byte is being sent. -/
  | queued (htype : message.req.type = ssTransmit) (hbusy : s.awaitingTransmit = true)
      (hbuffer : s'.transmitBuffer =
        (cyclicBufferPush s.transmitBuffer fun _ => message.req.data).2)
      (hawaiting : s'.awaitingTransmit = true) (hbytes : bytes outputs = [])
      (hclears : clears outputs = 0)
      (hreply : .replyTransmit ∈ outputs ↔
        (cyclicBufferPush s.transmitBuffer fun _ => message.req.data).2.numEls ≠ ssBufferSize)
  /-- `SS_TRANSMIT` otherwise. -/
  | started (data : Byte) (htype : message.req.type = ssTransmit)
      (hidle : s.awaitingTransmit = false)
      (hbuffer : s'.transmitBuffer = (cyclicBufferPop
        (cyclicBufferPush s.transmitBuffer fun _ => message.req.data).2).2.2)
      (hawaiting : s'.awaitingTransmit = true) (hbytes : bytes outputs = [data])
      (hclears : clears outputs = 0)
      (hreply : .replyTransmit ∈ outputs ↔
        (cyclicBufferPush s.transmitBuffer fun _ => message.req.data).2.numEls ≠ ssBufferSize)

section Moves

variable {s : State} {message : Message}

theorem Unmoved.still {outputs : List Output} {s' : State} (h : Unmoved s outputs s')
    (htype : message.req.type ≠ ssTransmit) (hnot : message.req.type ≠ ssNotifier) :
    Moves s message outputs s' := .still h htype fun hhandles => hnot hhandles.1

/-- The transmission side of `SS_NOTIFIER`. -/
theorem moves_notified (hsized : Sized s.transmitBuffer) (htype : message.req.type = ssNotifier) :
    Moves s message (s.notified message.uart).1 (s.notified message.uart).2 := by
  obtain ⟨middle, hmiddle⟩ : ∃ middle, middle = (s.received message.uart).2 := ⟨_, rfl⟩
  have hother : message.req.type ≠ ssTransmit := htype.trans_ne (by decide)
  obtain ⟨hbuffer, hawaiting, hbytes, hclears, hreply⟩ := unmoved_received s message.uart
  rw [← hmiddle] at hbuffer hawaiting
  have hstart : bytes ([.replyCourier] ++ (s.received message.uart).1) = [] := by
    rw [bytes_append, hbytes]
    rfl
  have hnone : clears ([.replyCourier] ++ (s.received message.uart).1) = 0 := by
    rw [clears_append, hclears]
    rfl
  have hsilent : .replyTransmit ∉ [Output.replyCourier] ++ (s.received message.uart).1 := by
    simpa using hreply
  rw [State.notified, ← hmiddle]
  by_cases hhandles : s.Handles message
  · have hpos : middle.awaitingTransmit = true ∧
        message.uart.transmitFlags &&& uartfrTxfe ≠ 0 := by
      rw [hawaiting]
      exact hhandles.2
    rw [State.transmitted, if_pos hpos]
    by_cases hempty : s.transmitBuffer.numEls = 0
    · have hnothing : isCyclicBufferEmpty middle.transmitBuffer = true := by
        rw [hbuffer, isCyclicBufferEmpty_iff]
        exact hempty
      simp only [hnothing, if_true]
      refine .drained hhandles hempty hbuffer rfl ?_ ?_ ?_
      · rw [bytes_append, hstart]
        rfl
      · rw [clears_append, hnone]
        rfl
      · rw [List.mem_append, not_or]
        exact ⟨hsilent, by simp⟩
    · have hsome : isCyclicBufferEmpty middle.transmitBuffer = false := by
        rw [hbuffer, Bool.eq_false_iff, ne_eq, isCyclicBufferEmpty_iff]
        exact hempty
      obtain ⟨data, hdata⟩ := @popTransmit_of_nonempty { middle with awaitingTransmit := false }
        (by rw [hbuffer]; exact hsized) (by rw [hbuffer]; exact hempty)
      simp only [hsome, Bool.false_eq_true, if_false, hdata]
      refine .sent data hhandles hempty ?_ rfl ?_ ?_ ?_
      · rw [← hbuffer]
        rfl
      · rw [bytes_append, hstart, bytes_append, bytes_append]
        split_ifs <;> rfl
      · rw [clears_append, hnone, clears_append, clears_append]
        split_ifs <;> rfl
      · rw [List.mem_append, or_iff_right hsilent, hbuffer, ← hsized.size,
          ← isCyclicBufferFull_iff]
        simp
  · have hneg : ¬(middle.awaitingTransmit = true ∧
        message.uart.transmitFlags &&& uartfrTxfe ≠ 0) := by
      rw [hawaiting]
      exact fun hboth => hhandles ⟨htype, hboth⟩
    rw [State.transmitted, if_neg hneg, List.append_nil]
    exact .still ⟨hbuffer, hawaiting, hstart, hnone, hsilent⟩ hother hhandles

/-- The transmission side of `SS_TRANSMIT`. -/
theorem moves_transmit (hsized : Sized s.transmitBuffer) (htype : message.req.type = ssTransmit) :
    Moves s message (s.transmit message.req.data).1 (s.transmit message.req.data).2 := by
  obtain ⟨pushed, hpushed⟩ : ∃ pushed, pushed =
    (cyclicBufferPush s.transmitBuffer fun _ => message.req.data).2 := ⟨_, rfl⟩
  have hsize : pushed.size = ssBufferSize := by rw [hpushed, size_push, hsized.size]
  have hlength := numEls_push s.transmitBuffer fun _ => message.req.data
  rw [← hpushed, hsized.size] at hlength
  -- the reply that is made when the push leaves room
  obtain ⟨replied, hreplied⟩ : ∃ replied, replied =
    if isCyclicBufferFull pushed then [] else [Output.replyTransmit] := ⟨_, rfl⟩
  have hmem : .replyTransmit ∈ replied ↔ pushed.numEls ≠ ssBufferSize := by
    rw [hreplied, ← hsize, ne_eq, ← isCyclicBufferFull_iff]
    simp
  have hbytes : bytes replied = [] := by
    rw [hreplied]
    split_ifs <;> rfl
  have hclears : clears replied = 0 := by
    rw [hreplied]
    split_ifs <;> rfl
  rw [State.transmit, ← hpushed, ← hreplied]
  cases hbusy : s.awaitingTransmit with
  | true =>
      simp only [if_true]
      rw [hpushed] at hmem
      exact .queued htype hbusy hpushed rfl hbytes hclears hmem
  | false =>
      have hnonempty : pushed.numEls ≠ 0 := by
        rw [hlength]
        split_ifs with hfull
        · rw [hfull]
          decide
        · exact Nat.succ_ne_zero _
      have hkept : Sized pushed := hpushed ▸ hsized.push _
      obtain ⟨data, hdata⟩ := @popTransmit_of_nonempty { s with
        transmitBuffer := pushed
        awaitingTransmit := true } hkept hnonempty
      simp only [Bool.false_eq_true, if_false, hdata]
      rw [hpushed] at hmem
      refine .started data htype hbusy ?_ rfl ?_ ?_ ?_
      · rw [← hpushed]
        rfl
      · rw [bytes_append, hbytes]
        rfl
      · rw [clears_append, hclears]
        rfl
      · rw [← hmem]
        simp

theorem moves_serve (hsized : Sized s.transmitBuffer) (message : Message) :
    Moves s message (s.serve message.uart message.req).1
      (s.serve message.uart message.req).2 := by
  rw [State.serve]
  split_ifs with hnotifier hreceive htransmit
  · exact moves_notified hsized hnotifier
  · apply (unmoved_receive s).still
    · rw [hreceive]
      decide
    · exact hnotifier
  · exact moves_transmit hsized htransmit
  · exact Unmoved.still ⟨rfl, rfl, rfl, rfl, by simp⟩ htransmit hnotifier

theorem Moves.sized {outputs : List Output} {s' : State} (hsized : Sized s.transmitBuffer)
    (h : Moves s message outputs s') : Sized s'.transmitBuffer := by
  cases h with
  | still hunmoved =>
      rw [hunmoved.transmitBuffer]
      exact hsized
  | drained _ _ hbuffer =>
      rw [hbuffer]
      exact hsized
  | sent _ _ _ hbuffer =>
      rw [hbuffer]
      exact hsized.pop
  | queued _ _ hbuffer =>
      rw [hbuffer]
      exact hsized.push _
  | started _ _ _ hbuffer =>
      rw [hbuffer]
      exact (hsized.push _).pop

end Moves

end Rtk.SerialServer
