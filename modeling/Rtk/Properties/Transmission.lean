import Rtk.Properties.SerialServer

/-!
# The order of the transmitted bytes

The server drops the return code of `CyclicBufferPush`.  No byte is lost, because the
reply to the transmit secretary is withheld as long as its buffer is full.
-/

namespace Rtk.SerialServer

open Rtk.ByteMemory
open Rtk.Lib
open Rtk.Transition

instance (s : State) (message : Message) : Decidable (s.Handles message) :=
  inferInstanceAs (Decidable (_ ∧ _ ∧ _))

def State.pushed (s : State) (message : Message) : CyclicBuffer :=
  if message.req.type = ssTransmit then
    (cyclicBufferPush s.transmitBuffer fun _ => message.req.data).2
  else s.transmitBuffer

def State.Pops (s : State) (message : Message) : Prop :=
  message.req.type = ssTransmit ∧ s.awaitingTransmit = false ∨
    s.Handles message ∧ isCyclicBufferEmpty s.transmitBuffer = false

instance (s : State) (message : Message) : Decidable (s.Pops message) :=
  inferInstanceAs (Decidable (_ ∨ _))

/-- Every push finds room in the transmit buffer, and every pop finds a byte. -/
structure Fits (run : Run) (message : Message) : Prop where
  push : message.req.type = ssTransmit →
    isCyclicBufferFull run.server.transmitBuffer = false
  pop : run.server.Pops message →
    isCyclicBufferEmpty (run.server.pushed message) = false

def requested (history : List Iteration) : List Byte :=
  (history.filter fun iteration => iteration.message.req.type = ssTransmit).map
    fun iteration => iteration.message.req.data

/-- What was written and what still waits is what was requested, in order. -/
def InOrder (run : Run) : Prop :=
  sentBytes run.history ++ run.server.transmitBuffer.contents = requested run.history

section Order

variable {s : State} {run : Run} {message : Message}

/-- The transmission side of an iteration that is no `SS_TRANSMIT`. -/
theorem pushed_of_ne (hne : message.req.type ≠ ssTransmit) :
    s.pushed message = s.transmitBuffer := if_neg hne

theorem pushed_of_transmit (htype : message.req.type = ssTransmit) :
    s.pushed message = (cyclicBufferPush s.transmitBuffer fun _ => message.req.data).2 :=
  if_pos htype

theorem bytes_popTransmit (s : State) :
    bytes s.popTransmit.1 = (cyclicBufferPop s.transmitBuffer).2.1.getD [] := by
  rw [State.popTransmit, bytes, List.filterMap_map]
  exact List.filterMap_some

/-- An iteration that pops writes the byte that it popped. -/
theorem bytes_of_pops (hpops : s.Pops message) :
    bytes (s.serve message.uart message.req).1 =
      (cyclicBufferPop (s.pushed message)).2.1.getD [] := by
  rcases hpops with ⟨htype, hidle⟩ | ⟨hhandles, hnonempty⟩
  · have hserve : s.serve message.uart message.req = s.transmit message.req.data := by
      rw [State.serve, htype]
      rfl
    rw [hserve, State.transmit, pushed_of_transmit htype]
    simp only [hidle, Bool.false_eq_true, if_false]
    rw [bytes_append, bytes_popTransmit]
    split_ifs <;> rfl
  · have hserve : s.serve message.uart message.req = s.notified message.uart :=
      if_pos hhandles.1
    obtain ⟨hbuffer, hawaiting, hbytes, _⟩ := unmoved_received s message.uart
    have hpos : (s.received message.uart).2.awaitingTransmit = true ∧
        message.uart.transmitFlags &&& uartfrTxfe ≠ 0 := by
      rw [hawaiting]
      exact hhandles.2
    have hsome : isCyclicBufferEmpty (s.received message.uart).2.transmitBuffer = false := by
      rw [hbuffer]
      exact hnonempty
    rw [hserve, State.notified, bytes_append, bytes_append, hbytes, State.transmitted,
      if_pos hpos, pushed_of_ne hhandles.not_transmit]
    simp only [hsome, Bool.false_eq_true, if_false]
    rw [bytes_append, bytes_append, bytes_popTransmit, ← hbuffer]
    split_ifs
    · exact List.append_nil _
    · exact List.append_nil _

/-- The other bytes of an iteration: what it does not pop stays in the buffer. -/
theorem moves_pushed (hsized : Sized s.transmitBuffer) (message : Message) :
    (s.Pops message ∧ (s.serve message.uart message.req).2.transmitBuffer =
      (cyclicBufferPop (s.pushed message)).2.2) ∨
    (¬s.Pops message ∧ bytes (s.serve message.uart message.req).1 = [] ∧
      (s.serve message.uart message.req).2.transmitBuffer = s.pushed message) := by
  cases moves_serve hsized message with
  | still hunmoved hne hnot =>
      right
      rw [pushed_of_ne hne]
      refine ⟨?_, hunmoved.bytes, hunmoved.transmitBuffer⟩
      exact fun hpops => hpops.elim (fun htransmit => hne htransmit.1) fun hboth => hnot hboth.1
  | drained hhandles hempty hbuffer _ hbytes =>
      right
      rw [pushed_of_ne hhandles.not_transmit]
      refine ⟨?_, hbytes, hbuffer⟩
      rintro (htransmit | hboth)
      · exact hhandles.not_transmit htransmit.1
      · exact isCyclicBufferEmpty_eq_false_iff.mp hboth.2 hempty
  | sent _ hhandles hnonempty hbuffer =>
      left
      rw [pushed_of_ne hhandles.not_transmit]
      exact ⟨.inr ⟨hhandles, isCyclicBufferEmpty_eq_false_iff.mpr hnonempty⟩, hbuffer⟩
  | queued htype hbusy hbuffer _ hbytes =>
      right
      rw [pushed_of_transmit htype]
      refine ⟨?_, hbytes, hbuffer⟩
      rintro (hidle | hboth)
      · rw [hbusy] at hidle
        exact absurd hidle.2 (by decide)
      · exact hboth.1.not_transmit htype
  | started _ htype hidle hbuffer =>
      left
      rw [pushed_of_transmit htype]
      exact ⟨.inl ⟨htype, hidle⟩, hbuffer⟩

theorem requested_handle (run : Run) (message : Message) :
    requested (run.handle message).history = requested run.history ++
      if message.req.type = ssTransmit then [message.req.data] else [] := by
  rw [requested, Run.handle, List.filter_append, List.map_append, ← requested]
  split_ifs with htype
  · simp [htype]
  · simp [htype]

/-- The invariant of the transmission: a full buffer is owed to a secretary that waits. -/
structure Flow (run : Run) : Prop where
  sized : Sized run.server.transmitBuffer
  bytes : run.server.transmitBuffer.Bytes
  full : run.server.transmitBuffer.numEls = ssBufferSize →
    transmitUnreplied run.history = true
  order : InOrder run

/-- A secretary that was replied to finds room. -/
theorem Flow.room (h : Flow run) (htakes : Takes run message)
    (htype : message.req.type = ssTransmit) :
    run.server.transmitBuffer.numEls ≠ run.server.transmitBuffer.size := by
  rw [h.sized.size]
  intro hfull
  have hunreplied := h.full hfull
  rw [htakes htype] at hunreplied
  exact absurd hunreplied (by decide)

theorem Flow.contents_pushed (h : Flow run) (htakes : Takes run message) :
    (run.server.pushed message).contents = run.server.transmitBuffer.contents ++
      if message.req.type = ssTransmit then [message.req.data] else [] := by
  split_ifs with htype
  · rw [pushed_of_transmit htype, contents_push h.bytes (h.room htakes htype)]
  · rw [pushed_of_ne htype, List.append_nil]

theorem Flow.bytes_pushed (h : Flow run) (message : Message) :
    (run.server.pushed message).Bytes := by
  rw [State.pushed]
  split_ifs
  · exact h.bytes.push _
  · exact h.bytes

theorem Flow.fits (h : Flow run) (htakes : Takes run message) : Fits run message where
  push htype := by
    rw [Bool.eq_false_iff, ne_eq, isCyclicBufferFull_iff]
    exact h.room htakes htype
  pop hpops := by
    rw [isCyclicBufferEmpty_eq_false_iff]
    rcases hpops with ⟨htype, _⟩ | ⟨hhandles, hnonempty⟩
    · -- the byte of the request itself is there
      rw [pushed_of_transmit htype, numEls_push, if_neg (h.room htakes htype)]
      exact Nat.succ_ne_zero _
    · rw [pushed_of_ne hhandles.not_transmit]
      exact isCyclicBufferEmpty_eq_false_iff.mp hnonempty

/-- The bytes written and left by an iteration are those that were there and its own. -/
theorem Flow.inOrder (h : Flow run) (htakes : Takes run message) :
    InOrder (run.handle message) ∧ (run.handle message).server.transmitBuffer.Bytes := by
  have hpushed := h.bytes_pushed message
  have hmoved : SerialServer.bytes (run.server.serve message.uart message.req).1 ++
      (run.server.serve message.uart message.req).2.transmitBuffer.contents =
        (run.server.pushed message).contents ∧
      (run.server.serve message.uart message.req).2.transmitBuffer.Bytes := by
    rcases moves_pushed h.sized message with ⟨hpops, hbuffer⟩ | ⟨_, hbytes, hbuffer⟩
    · have hsome := isCyclicBufferEmpty_eq_false_iff.mp ((h.fits htakes).pop hpops)
      obtain ⟨data, hdata, hcontents⟩ := contents_pop hpushed hsome
      rw [bytes_of_pops hpops, hbuffer, hdata, hcontents]
      exact ⟨rfl, hpushed.pop⟩
    · rw [hbytes, hbuffer]
      exact ⟨rfl, hpushed⟩
  refine ⟨?_, hmoved.2⟩
  calc
    sentBytes (run.handle message).history ++
          (run.handle message).server.transmitBuffer.contents =
        sentBytes run.history ++ (run.server.pushed message).contents := by
      rw [sentBytes_handle, List.append_assoc, ← hmoved.1]
      rfl
    _ = sentBytes run.history ++ run.server.transmitBuffer.contents ++
        (if message.req.type = ssTransmit then [message.req.data] else []) := by
      rw [h.contents_pushed htakes, List.append_assoc]
    _ = requested (run.handle message).history := by rw [h.order, requested_handle]

/-- The buffer is filled only by a request that is left unreplied. -/
theorem Flow.full_handle (h : Flow run) (message : Message)
    (hfull : (run.handle message).server.transmitBuffer.numEls = ssBufferSize) :
    transmitUnreplied (run.handle message).history = true := by
  have hserver : (run.handle message).server =
      (run.server.serve message.uart message.req).2 := rfl
  have hpositive : 0 < ssBufferSize := by decide
  have hle := h.sized.numEls
  rw [hserver] at hfull
  rw [transmitUnreplied_handle_iff]
  cases moves_serve h.sized message with
  | still hunmoved =>
      rw [hunmoved.transmitBuffer] at hfull
      exact ⟨.inl (h.full hfull), hunmoved.reply⟩
  | drained _ hempty hbuffer =>
      rw [hbuffer, hempty] at hfull
      omega
  | sent _ _ _ hbuffer =>
      rw [hbuffer, numEls_pop] at hfull
      omega
  | queued htype _ hbuffer _ _ _ hreply =>
      rw [hbuffer] at hfull
      refine ⟨.inr htype, fun hreplied => ?_⟩
      exact hreply.mp hreplied hfull
  | started _ _ _ hbuffer =>
      have hpushed := (h.sized.push fun _ => message.req.data).numEls
      rw [hbuffer, numEls_pop] at hfull
      omega

theorem Flow.step (h : Flow run) (htakes : Takes run message) : Flow (run.handle message) where
  sized := (moves_serve h.sized message).sized h.sized
  bytes := (h.inOrder htakes).2
  full := h.full_handle message
  order := (h.inOrder htakes).1

end Order

theorem flow_start (tbuffer rbuffer : ℕ → Byte) : Flow (start tbuffer rbuffer) where
  sized := ⟨rfl, rfl, Nat.zero_le _⟩
  bytes := ⟨rfl, (by decide : 0 < ssBufferSize), Nat.zero_le _⟩
  full hfull := absurd hfull (by decide : (0 : ℕ) ≠ ssBufferSize)
  order := rfl

/-- As long as the secretary sends the next byte only after being replied, the bytes are
written in the order of the requests, and none is lost. -/
theorem transmits_in_order (tbuffer rbuffer : ℕ → Byte) {messages : List Message}
    (htakes : EachStep Run.handle Takes (start tbuffer rbuffer) messages) :
    Throughout Run.handle InOrder (start tbuffer rbuffer) messages ∧
      EachStep Run.handle Fits (start tbuffer rbuffer) messages := by
  have hflow : Throughout Run.handle Flow (start tbuffer rbuffer) messages :=
    htakes.throughout Flow.step (flow_start tbuffer rbuffer)
  exact ⟨hflow.mono Flow.order, hflow.eachStep Flow.fits htakes⟩

def sampleTransmit (n : ℕ) : Message := ⟨⟨ssTransmit, BitVec.ofNat 8 n⟩, ⟨0, 0, 0⟩⟩

/-- Different bytes fill the buffer, a notification takes one of them, and the next byte
fills it again before one more is taken. -/
def refillMessages : List Message :=
  (List.range 129).map sampleTransmit ++ [sampleEmpty, sampleTransmit 129, sampleEmpty]

theorem transmits_in_order_sample :
    Throughout Run.handle InOrder sampleStart refillMessages ∧
      EachStep Run.handle Fits sampleStart refillMessages :=
  transmits_in_order (fun _ => 0) (fun _ => 0) (by decide +kernel)

end Rtk.SerialServer
