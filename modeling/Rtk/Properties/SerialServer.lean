import Rtk.Core.Transition
import Rtk.Invariant.Transmitting

/-!
# Transmission

The server replies to the transmit secretary as long as its buffer has room, and
sends the next byte when the UART has sent the last one.  Both fail when it pops a
byte without keeping `awaiting_transmit`.
-/

namespace Rtk.SerialServer

open Rtk.ByteMemory
open Rtk.Lib
open Rtk.Transition

/-! ## The secretary is released -/

/-- The secretary's last request is not replied to after an iteration. -/
def leftUnreplied (unreplied : Bool) (iteration : Iteration) : Bool :=
  (unreplied || iteration.message.req.type = ssTransmit) &&
    !iteration.outputs.contains .replyTransmit

/-- The secretary's last request is not replied to after a history. -/
def transmitUnreplied (history : List Iteration) : Bool :=
  history.foldl leftUnreplied false

/-- The secretary sends the next request only after being replied. -/
def Takes (run : Run) (message : Message) : Prop :=
  message.req.type = ssTransmit → transmitUnreplied run.history = false

/-- The secretary's request is unreplied only while the buffer is full, and the next
handled notification replies to it. -/
def Releasable (run : Run) : Prop :=
  transmitUnreplied run.history = true →
    isCyclicBufferFull run.server.transmitBuffer = true ∧
      ∀ uart : Uart, uart.Empty → .replyTransmit ∈ (run.server.notified uart).1

/-- `SS_TRANSMIT` does not fill the buffer while no byte is being sent. -/
def Spares (run : Run) (message : Message) : Prop :=
  message.req.type = ssTransmit → run.server.awaitingTransmit = false →
    run.server.transmitBuffer.numEls + 1 ≠ ssBufferSize

instance (run : Run) (message : Message) : Decidable (Takes run message) :=
  inferInstanceAs (Decidable (_ → _))

instance (run : Run) (message : Message) : Decidable (Spares run message) :=
  inferInstanceAs (Decidable (_ → _ → _))

/-- As long as the secretary is released in time, it waits while the buffer is full,
and a byte is being sent then. -/
structure Owed (run : Run) : Prop where
  sized : Sized run.server.transmitBuffer
  full : run.server.transmitBuffer.numEls = ssBufferSize →
    transmitUnreplied run.history = true ∧ run.server.awaitingTransmit = true

section Secretary

variable {run : Run} {message : Message}

theorem transmitUnreplied_handle (run : Run) (message : Message) :
    transmitUnreplied (run.handle message).history =
      leftUnreplied (transmitUnreplied run.history)
        ⟨message, (run.server.serve message.uart message.req).1⟩ := by
  rw [transmitUnreplied, Run.handle, List.foldl_append, transmitUnreplied]
  rfl

/-- The condition for the secretary to be unreplied after an iteration. -/
theorem transmitUnreplied_handle_iff (run : Run) (message : Message) :
    transmitUnreplied (run.handle message).history = true ↔
      (transmitUnreplied run.history = true ∨ message.req.type = ssTransmit) ∧
        .replyTransmit ∉ (run.server.serve message.uart message.req).1 := by
  rw [transmitUnreplied_handle, leftUnreplied]
  simp

/-- A full buffer of a byte that is being sent is drained with a reply. -/
theorem reply_of_full (hsized : Sized run.server.transmitBuffer)
    (hfull : run.server.transmitBuffer.numEls = ssBufferSize)
    (hbusy : run.server.awaitingTransmit = true) {uart : Uart} (hempty : uart.Empty) :
    .replyTransmit ∈ (run.server.notified uart).1 := by
  have hmoves := @moves_notified run.server ⟨⟨ssNotifier, 0⟩, uart⟩ hsized rfl
  have hhandles : run.server.Handles ⟨⟨ssNotifier, 0⟩, uart⟩ := ⟨rfl, hbusy, hempty⟩
  have hnonempty : run.server.transmitBuffer.numEls ≠ 0 := by
    rw [hfull]
    decide
  cases hmoves with
  | still _ _ hnot => exact absurd hhandles hnot
  | drained _ hnone => exact absurd hnone hnonempty
  | sent _ _ _ _ _ _ _ hreply => exact hreply.mpr hfull
  | queued htype => exact absurd htype (by decide : ssNotifier ≠ ssTransmit)
  | started _ htype => exact absurd htype (by decide : ssNotifier ≠ ssTransmit)

theorem Owed.releasable (h : Owed run)
    (hunreplied : transmitUnreplied run.history = true →
      run.server.transmitBuffer.numEls = ssBufferSize) : Releasable run := by
  intro hwaits
  have hfull := hunreplied hwaits
  refine ⟨?_, fun uart hempty => reply_of_full h.sized hfull (h.full hfull).2 hempty⟩
  rw [isCyclicBufferFull_iff, h.sized.size]
  exact hfull

theorem State.Handles.not_transmit {s : State} (h : s.Handles message) :
    message.req.type ≠ ssTransmit := by
  rw [h.1]
  decide

/-- A secretary that is not waiting finds room in the buffer. -/
theorem Owed.room (h : Owed run) (htakes : Takes run message)
    (htype : message.req.type = ssTransmit) :
    transmitUnreplied run.history = false ∧
      (cyclicBufferPush run.server.transmitBuffer fun _ => message.req.data).2.numEls =
        run.server.transmitBuffer.numEls + 1 := by
  have hreplied := htakes htype
  refine ⟨hreplied, ?_⟩
  rw [numEls_push, h.sized.size, if_neg]
  intro hfull
  rw [(h.full hfull).1] at hreplied
  exact absurd hreplied (by decide)

/-- In an iteration that spares the last place, the buffer becomes full exactly when
the secretary is left unreplied, and then a byte is being sent. -/
theorem Owed.full_iff (h : Owed run) (hreleasable : Releasable run)
    (htakes : Takes run message) (hspares : Spares run message) :
    ((run.handle message).server.transmitBuffer.numEls = ssBufferSize →
        transmitUnreplied (run.handle message).history = true ∧
          (run.handle message).server.awaitingTransmit = true) ∧
      (transmitUnreplied (run.handle message).history = true →
        (run.handle message).server.transmitBuffer.numEls = ssBufferSize) := by
  have hwaiting : transmitUnreplied run.history = true →
      run.server.transmitBuffer.numEls = ssBufferSize := by
    intro hunreplied
    rw [← h.sized.size, ← isCyclicBufferFull_iff]
    exact (hreleasable hunreplied).1
  have hserver : (run.handle message).server =
      (run.server.serve message.uart message.req).2 := rfl
  have hpositive : 0 < ssBufferSize := by decide
  have hle := h.sized.numEls
  rw [transmitUnreplied_handle_iff, hserver]
  cases moves_serve h.sized message with
  | still hunmoved htype hnot =>
      rw [hunmoved.transmitBuffer, hunmoved.awaitingTransmit, or_iff_left htype]
      exact ⟨fun hfull => ⟨⟨(h.full hfull).1, hunmoved.reply⟩, (h.full hfull).2⟩,
        fun hunreplied => hwaiting hunreplied.1⟩
  | drained hhandles hempty hbuffer _ _ _ hreply =>
      rw [hbuffer, hempty, or_iff_left hhandles.not_transmit]
      refine ⟨fun hzero => by omega, fun hunreplied => ?_⟩
      rw [← hempty]
      exact hwaiting hunreplied.1
  | sent _ hhandles hnonempty hbuffer _ _ _ hreply =>
      rw [hbuffer, numEls_pop, or_iff_left hhandles.not_transmit]
      refine ⟨fun hfull => by omega, ?_⟩
      rintro ⟨hunreplied, hnone⟩
      exact absurd (hreply.mpr (hwaiting hunreplied)) hnone
  | queued htype _ hbuffer hawaiting _ _ hreply =>
      obtain ⟨_, hroom⟩ := h.room htakes htype
      rw [hbuffer, hreply, not_ne_iff]
      exact ⟨fun hfull => ⟨⟨.inr htype, hfull⟩, hawaiting⟩, fun hunreplied => hunreplied.2⟩
  | started _ htype hidle hbuffer _ _ _ hreply =>
      obtain ⟨hreplied, hroom⟩ := h.room htakes htype
      have hspare := hspares htype hidle
      rw [hbuffer, numEls_pop, hreply, hroom, not_ne_iff, Nat.add_sub_cancel]
      refine ⟨fun hfull => ?_, fun hunreplied => absurd hunreplied.2 hspare⟩
      rw [(h.full hfull).1] at hreplied
      exact absurd hreplied (by decide)

/-- An iteration that spares the last place keeps the secretary releasable. -/
theorem Owed.step (h : Owed run) (hreleasable : Releasable run) (htakes : Takes run message)
    (hspares : Spares run message) :
    Owed (run.handle message) ∧ Releasable (run.handle message) := by
  obtain ⟨hfull, hunreplied⟩ := h.full_iff hreleasable htakes hspares
  have howed : Owed (run.handle message) := ⟨(moves_serve h.sized message).sized h.sized, hfull⟩
  exact ⟨howed, howed.releasable hunreplied⟩

/-- The last place is taken and the byte popped: the secretary is left unreplied. -/
theorem Owed.spares (h : Owed run) (htakes : Takes run message)
    (hafter : Releasable (run.handle message)) : Spares run message := by
  intro htype hidle hlast
  obtain ⟨_, hroom⟩ := h.room htakes htype
  have hsized := (moves_serve h.sized message).sized h.sized
  have hunreplied := transmitUnreplied_handle_iff run message
  cases moves_serve h.sized message with
  | still _ hother => exact hother htype
  | drained hhandles => exact hhandles.not_transmit htype
  | sent _ hhandles => exact hhandles.not_transmit htype
  | queued _ hbusy =>
      rw [hidle] at hbusy
      exact absurd hbusy (by decide)
  | started _ _ _ hbuffer _ _ _ hreply =>
      have hwaits : transmitUnreplied (run.handle message).history = true := by
        rw [hunreplied, hreply, hroom, not_ne_iff]
        exact ⟨.inr htype, hlast⟩
      have hfull := (hafter hwaits).1
      rw [isCyclicBufferFull_iff] at hfull
      have hcount : (run.handle message).server.transmitBuffer.numEls = ssBufferSize :=
        hfull.trans hsized.size
      have hserver : (run.handle message).server =
        (run.server.serve message.uart message.req).2 := rfl
      rw [hserver, hbuffer, numEls_pop, hroom] at hcount
      omega

end Secretary

theorem owed_start (tbuffer rbuffer : ℕ → Byte) : Owed (start tbuffer rbuffer) where
  sized := ⟨rfl, rfl, Nat.zero_le _⟩
  full hfull := absurd hfull (by decide : (0 : ℕ) ≠ ssBufferSize)

/-- The secretary's request is unreplied only while the buffer is full, throughout a
run, exactly when no `SS_TRANSMIT` of it fills the buffer while no byte is being
sent. -/
theorem releasable_iff_spares (tbuffer rbuffer : ℕ → Byte) {messages : List Message}
    (htakes : EachStep Run.handle Takes (start tbuffer rbuffer) messages) :
    Throughout Run.handle Releasable (start tbuffer rbuffer) messages ↔
      EachStep Run.handle Spares (start tbuffer rbuffer) messages := by
  apply throughout_iff (start tbuffer rbuffer) messages (owed_start tbuffer rbuffer)
  · exact fun hunreplied => absurd hunreplied (by decide : transmitUnreplied [] ≠ true)
  · exact fun howed hreleasable htakes hspares => howed.step hreleasable htakes hspares
  · exact fun howed _ htakes hafter => howed.spares htakes hafter
  · exact htakes

/-- A byte for transmission, and a notification that the UART is empty. -/
def sampleByte : Message := ⟨⟨ssTransmit, 0x61⟩, ⟨0, 0, 0⟩⟩
def sampleEmpty : Message := ⟨⟨ssNotifier, 0⟩, ⟨0, 0, uartfrTxfe⟩⟩

def sampleStart : Run := start (fun _ => 0) fun _ => 0

/-- One byte is sent, the buffer is filled, and the secretary is released. -/
def fullMessages : List Message := List.replicate 129 sampleByte ++ [sampleEmpty]

theorem releasable_sample : Throughout Run.handle Releasable sampleStart fullMessages :=
  (releasable_iff_spares (fun _ => 0) (fun _ => 0) (by decide +kernel)).mpr (by decide +kernel)

/-- The secretary fills the last place again, a byte is popped, and no reply is left. -/
theorem not_releasable :
    ¬∀ messages, EachStep Run.handle Takes sampleStart messages →
      Throughout Run.handle Releasable sampleStart messages := by
  intro hreleasable
  have htakes : EachStep Run.handle Takes sampleStart (fullMessages ++ [sampleByte]) := by
    decide +kernel
  have hlast := (hreleasable _ htakes).last
  have hunreplied : transmitUnreplied ((fullMessages ++ [sampleByte]).foldl Run.handle
      sampleStart).history = true := by
    decide +kernel
  have hroom : isCyclicBufferFull ((fullMessages ++ [sampleByte]).foldl Run.handle
      sampleStart).server.transmitBuffer = false := by
    decide +kernel
  rw [(hlast hunreplied).1] at hroom
  exact absurd hroom (by decide)

/-! ## No byte waits for another -/

def sentBytes (history : List Iteration) : List Byte :=
  bytes (history.flatMap Iteration.outputs)

def handledEmpty (history : List Iteration) : ℕ :=
  clears (history.flatMap Iteration.outputs)

/-- A byte has been written whose notification is not handled. -/
def Outstanding (history : List Iteration) : Prop :=
  handledEmpty history < (sentBytes history).length

/-- `awaiting_transmit` says whether a byte is outstanding; at most one is, and one is
when the buffer is not empty, so that the next notification sends the next byte. -/
structure Progresses (run : Run) : Prop where
  awaiting : run.server.awaitingTransmit = true ↔ Outstanding run.history
  single : (sentBytes run.history).length ≤ handledEmpty run.history + 1
  pending : isCyclicBufferEmpty run.server.transmitBuffer = false → Outstanding run.history
  next : isCyclicBufferEmpty run.server.transmitBuffer = false →
    ∀ uart : Uart, uart.Empty → ∃ data, .transmit data ∈ (run.server.notified uart).1

/-- A notification that is handled finds the buffer empty. -/
def Drains (run : Run) (message : Message) : Prop :=
  run.server.Handles message → isCyclicBufferEmpty run.server.transmitBuffer = true

section Progress

variable {run : Run} {message : Message}

theorem sentBytes_handle (run : Run) (message : Message) :
    sentBytes (run.handle message).history =
      sentBytes run.history ++ bytes (run.server.serve message.uart message.req).1 := by
  rw [sentBytes, Run.handle, List.flatMap_append, bytes_append, List.flatMap_singleton,
    sentBytes]

theorem handledEmpty_handle (run : Run) (message : Message) :
    handledEmpty (run.handle message).history =
      handledEmpty run.history + clears (run.server.serve message.uart message.req).1 := by
  rw [handledEmpty, Run.handle, List.flatMap_append, clears_append, List.flatMap_singleton,
    handledEmpty]

theorem isCyclicBufferEmpty_eq_false_iff {buffer : CyclicBuffer} :
    isCyclicBufferEmpty buffer = false ↔ buffer.numEls ≠ 0 := by
  rw [Bool.eq_false_iff, ne_eq, isCyclicBufferEmpty_iff]

/-- A waiting byte is sent when a notification is handled. -/
theorem transmit_of_nonempty (hsized : Sized run.server.transmitBuffer)
    (hnonempty : run.server.transmitBuffer.numEls ≠ 0)
    (hbusy : run.server.awaitingTransmit = true) {uart : Uart} (hempty : uart.Empty) :
    ∃ data, .transmit data ∈ (run.server.notified uart).1 := by
  have hhandles : run.server.Handles ⟨⟨ssNotifier, 0⟩, uart⟩ := ⟨rfl, hbusy, hempty⟩
  cases @moves_notified run.server ⟨⟨ssNotifier, 0⟩, uart⟩ hsized rfl with
  | still _ _ hnot => exact absurd hhandles hnot
  | drained _ hnone => exact absurd hnone hnonempty
  | sent data _ _ _ _ hbytes =>
      have hmem : data ∈ bytes (run.server.notified uart).1 := by
        rw [hbytes]
        exact List.mem_singleton_self data
      obtain ⟨output, houtput, hbyte⟩ := List.mem_filterMap.mp hmem
      cases output with
      | transmit sent =>
          obtain rfl : sent = data := Option.some.inj hbyte
          exact ⟨sent, houtput⟩
      | _ => simp [Output.byte] at hbyte
  | queued htype => exact absurd htype (by decide : ssNotifier ≠ ssTransmit)
  | started _ htype => exact absurd htype (by decide : ssNotifier ≠ ssTransmit)

/-- The part of the progress that concerns the counts. -/
structure Counts (run : Run) : Prop where
  awaiting : run.server.awaitingTransmit = true ↔ Outstanding run.history
  single : (sentBytes run.history).length ≤ handledEmpty run.history + 1
  pending : run.server.transmitBuffer.numEls ≠ 0 → Outstanding run.history

theorem Counts.progresses (h : Counts run) (hsized : Sized run.server.transmitBuffer) :
    Progresses run := by
  refine ⟨h.awaiting, h.single, ?_, ?_⟩
  · intro hnonempty
    exact h.pending (isCyclicBufferEmpty_eq_false_iff.mp hnonempty)
  · intro hnonempty uart hempty
    have hsome := isCyclicBufferEmpty_eq_false_iff.mp hnonempty
    exact transmit_of_nonempty hsized hsome (h.awaiting.mpr (h.pending hsome)) hempty

theorem Progresses.counts (h : Progresses run) : Counts run :=
  ⟨h.awaiting, h.single, fun hnonempty =>
    h.pending (isCyclicBufferEmpty_eq_false_iff.mpr hnonempty)⟩

/-- No notification is handled that was not awaited. -/
structure Counted (run : Run) : Prop where
  sized : Sized run.server.transmitBuffer
  handled : handledEmpty run.history ≤ (sentBytes run.history).length

/-- An iteration that handles no notification with bytes waiting keeps the counts. -/
theorem Counts.step (h : Counts run) (hcounted : Counted run) (hdrains : Drains run message) :
    Counted (run.handle message) ∧ Counts (run.handle message) := by
  obtain ⟨hawaiting, hsingle, hpending⟩ := h
  have hserver : (run.handle message).server =
      (run.server.serve message.uart message.req).2 := rfl
  have hle := hcounted.handled
  have hkept := (moves_serve hcounted.sized message).sized hcounted.sized
  have hsent := congrArg List.length (sentBytes_handle run message)
  have hhandled := handledEmpty_handle run message
  rw [List.length_append] at hsent
  rw [Outstanding] at hawaiting hpending
  cases moves_serve hcounted.sized message with
  | still hunmoved _ _ =>
      rw [hunmoved.bytes, List.length_nil] at hsent
      rw [hunmoved.clears] at hhandled
      refine ⟨⟨hkept, by omega⟩, ?_, by omega, ?_⟩
      · rw [hserver, hunmoved.awaitingTransmit, hawaiting, Outstanding, hsent, hhandled]
        rfl
      · rw [hserver, hunmoved.transmitBuffer, Outstanding, hsent, hhandled]
        exact hpending
  | drained hhandles hempty hbuffer hidle hbytes hclears _ =>
      have hbusy := hawaiting.mp hhandles.2.1
      rw [hbytes, List.length_nil] at hsent
      rw [hclears] at hhandled
      refine ⟨⟨hkept, by omega⟩, ?_, by omega, ?_⟩
      · rw [hserver, hidle, Outstanding, hsent, hhandled]
        exact iff_of_false (by decide) (by omega)
      · rw [hserver, hbuffer, hempty]
        exact fun hnot => absurd rfl hnot
  | sent _ hhandles hnonempty =>
      have hnone := hdrains hhandles
      rw [isCyclicBufferEmpty_iff] at hnone
      exact absurd hnone hnonempty
  | queued _ hbusy hbuffer hstill hbytes hclears _ =>
      have hout := hawaiting.mp hbusy
      rw [hbytes, List.length_nil] at hsent
      rw [hclears] at hhandled
      have houtstanding : Outstanding (run.handle message).history := by
        rw [Outstanding, hsent, hhandled]
        exact hout
      refine ⟨⟨hkept, by omega⟩, ?_, by omega, fun _ => houtstanding⟩
      rw [hserver, hstill]
      exact iff_of_true rfl houtstanding
  | started data _ hidle hbuffer hstarted hbytes hclears _ =>
      rw [hbytes, List.length_singleton] at hsent
      rw [hclears] at hhandled
      have hnone : ¬handledEmpty run.history < (sentBytes run.history).length := by
        rw [← hawaiting, hidle]
        decide
      have houtstanding : Outstanding (run.handle message).history := by
        rw [Outstanding, hsent, hhandled]
        omega
      refine ⟨⟨hkept, by omega⟩, ?_, by omega, fun _ => houtstanding⟩
      rw [hserver, hstarted]
      exact iff_of_true rfl houtstanding

/-- A notification that is handled with bytes waiting sends one and forgets it. -/
theorem Counts.drains (h : Counts run) (hcounted : Counted run)
    (hafter : Progresses (run.handle message)) : Drains run message := by
  intro hhandles
  have hsent := congrArg List.length (sentBytes_handle run message)
  have hhandled := handledEmpty_handle run message
  rw [List.length_append] at hsent
  cases moves_serve hcounted.sized message with
  | still _ _ hnot => exact absurd hhandles hnot
  | drained _ hempty => exact isCyclicBufferEmpty_iff.mpr hempty
  | sent _ _ _ _ hidle hbytes hclears _ =>
      have hout := h.awaiting.mp hhandles.2.1
      rw [Outstanding] at hout
      rw [hbytes, List.length_singleton] at hsent
      rw [hclears] at hhandled
      have houtstanding : Outstanding (run.handle message).history := by
        rw [Outstanding, hsent, hhandled]
        omega
      have hbusy : (run.server.serve message.uart message.req).2.awaitingTransmit = true :=
        hafter.awaiting.mpr houtstanding
      rw [hidle] at hbusy
      exact absurd hbusy (by decide)
  | queued htype => exact absurd htype hhandles.not_transmit
  | started _ htype => exact absurd htype hhandles.not_transmit

end Progress

theorem counted_start (tbuffer rbuffer : ℕ → Byte) : Counted (start tbuffer rbuffer) where
  sized := ⟨rfl, rfl, Nat.zero_le _⟩
  handled := Nat.le_refl 0

theorem progresses_start (tbuffer rbuffer : ℕ → Byte) :
    Progresses (start tbuffer rbuffer) := by
  have hnone : ¬Outstanding [] := Nat.lt_irrefl 0
  have hidle : ¬false = true := nofun
  apply Counts.progresses
  · exact ⟨iff_of_false hidle hnone, Nat.zero_le 1, fun hnot => absurd rfl hnot⟩
  · exact (counted_start tbuffer rbuffer).sized

/-- The transmission progresses throughout a run exactly when every notification that
is handled finds the buffer empty. -/
theorem progresses_iff_drains (tbuffer rbuffer : ℕ → Byte) (messages : List Message) :
    Throughout Run.handle Progresses (start tbuffer rbuffer) messages ↔
      EachStep Run.handle Drains (start tbuffer rbuffer) messages := by
  apply @throughout_iff _ _ Run.handle Counted Progresses (fun _ _ => True) Drains
    (start tbuffer rbuffer) messages (counted_start tbuffer rbuffer)
    (progresses_start tbuffer rbuffer)
  · intro run message hcounted hprogresses _ hdrains
    obtain ⟨hkept, hcounts⟩ := hprogresses.counts.step hcounted hdrains
    exact ⟨hkept, hcounts.progresses hkept.sized⟩
  · exact fun hcounted hprogresses _ hafter => hprogresses.counts.drains hcounted hafter
  · exact eachStep_true _ _

/-- Three bytes and one notification: the third byte waits, and no notification is
awaited. -/
theorem not_progresses :
    ¬∀ messages, Throughout Run.handle Progresses sampleStart messages := by
  intro hprogresses
  have hlast := (hprogresses [sampleByte, sampleByte, sampleByte, sampleEmpty]).last
  have hwaits : isCyclicBufferEmpty ([sampleByte, sampleByte, sampleByte, sampleEmpty].foldl
      Run.handle sampleStart).server.transmitBuffer = false := by
    decide +kernel
  have hidle : ([sampleByte, sampleByte, sampleByte, sampleEmpty].foldl
      Run.handle sampleStart).server.awaitingTransmit = false := by
    decide +kernel
  have hbusy := hlast.awaiting.mpr (hlast.pending hwaits)
  rw [hidle] at hbusy
  exact absurd hbusy (by decide)

end Rtk.SerialServer
