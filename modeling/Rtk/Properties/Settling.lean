import Rtk.Properties.Reception
import Rtk.Properties.Transmission
import Rtk.Usr.SerialTasks

/-!
# The replies that the serial server owes

The courier and the secretaries send to the server and wait for its reply.  It owes a reply
to those whose request it has taken and not replied to, and to nobody twice.
-/

namespace Rtk.SerialServer

open Rtk.ByteMemory
open Rtk.Lib
open Rtk.Messaging

/-- The tasks that send to the server. -/
inductive Peer where
  | courier
  | transmitSecretary
  | receiveSecretary
  deriving DecidableEq

def Peer.type : Peer → ℤ
  | courier => ssNotifier
  | transmitSecretary => ssTransmit
  | receiveSecretary => ssReceive

def Output.peer : Output → Option Peer
  | replyCourier => some .courier
  | replyReceive _ => some .receiveSecretary
  | replyTransmit => some .transmitSecretary
  | _ => none

def peers (outputs : List Output) : List Peer := outputs.filterMap Output.peer

/-- The last request of the task was not replied to. -/
def unreplied (history : List Iteration) : Peer → Bool
  | .courier => false
  | .transmitSecretary => transmitUnreplied history
  | .receiveSecretary => receiveUnreplied history

section Peers

variable {s : State} {run : Run} {message : Message}

@[simp]
theorem peers_append (left right : List Output) :
    peers (left ++ right) = peers left ++ peers right := List.filterMap_append

theorem type_injective : Function.Injective Peer.type := by
  intro peer peer' htype
  cases peer <;> cases peer' <;> first | rfl | exact absurd htype (by decide)

@[simp]
theorem peers_popTransmit (s : State) : peers s.popTransmit.1 = [] := by
  rw [State.popTransmit, peers, List.filterMap_map]
  simp [Function.comp_def, Output.peer]

theorem peers_received (s : State) (regs : Uart) :
    ∃ replied : Bool, peers (s.received regs).1 = if replied then [.receiveSecretary] else [] := by
  rw [State.received]
  split_ifs
  · exact ⟨true, rfl⟩
  · exact ⟨false, rfl⟩
  · exact ⟨false, rfl⟩

theorem peers_transmitted (s : State) (regs : Uart) :
    ∃ replied : Bool,
      peers (s.transmitted regs).1 = if replied then [.transmitSecretary] else [] := by
  rw [State.transmitted]
  dsimp only
  split_ifs
  · exact ⟨false, rfl⟩
  · refine ⟨true, ?_⟩
    rw [peers_append, peers_append, peers_popTransmit]
    rfl
  · refine ⟨false, ?_⟩
    rw [peers_append, peers_append, peers_popTransmit]
    rfl
  · exact ⟨false, rfl⟩

theorem peers_transmit (s : State) (data : Byte) :
    ∃ replied : Bool,
      peers (s.transmit data).1 = if replied then [.transmitSecretary] else [] := by
  rw [State.transmit]
  dsimp only
  split_ifs
  · exact ⟨false, rfl⟩
  · exact ⟨true, rfl⟩
  · refine ⟨false, ?_⟩
    rw [peers_append, peers_popTransmit]
    rfl
  · refine ⟨true, ?_⟩
    rw [peers_append, peers_popTransmit]
    rfl

theorem peers_receive (hbytes : s.receiveBuffer.Bytes) :
    ∃ replied : Bool, peers s.receive.1 = if replied then [.receiveSecretary] else [] := by
  rw [State.receive]
  split_ifs with hempty
  · exact ⟨false, rfl⟩
  · have hsome : s.receiveBuffer.numEls ≠ 0 := fun hzero =>
      hempty (isCyclicBufferEmpty_iff.mpr hzero)
    obtain ⟨data, hdata, _⟩ := contents_pop hbytes hsome
    refine ⟨true, ?_⟩
    simp only [hdata]
    rfl

/-- An iteration replies to the courier exactly when it sent the message, and to each
secretary at most once. -/
theorem peers_serve (hbytes : s.receiveBuffer.Bytes) (message : Message) :
    ∃ received transmitted : Bool, peers (s.serve message.uart message.req).1 =
      (if message.req.type = ssNotifier then [.courier] else []) ++
        ((if received then [.receiveSecretary] else []) ++
          if transmitted then [.transmitSecretary] else []) := by
  rw [State.serve]
  split_ifs with hnotifier hreceive htransmit
  · obtain ⟨received, hreceived⟩ := peers_received s message.uart
    obtain ⟨transmitted, htransmitted⟩ :=
      peers_transmitted (s.received message.uart).2 message.uart
    refine ⟨received, transmitted, ?_⟩
    rw [State.notified, peers_append, peers_append, hreceived, htransmitted]
    rfl
  · obtain ⟨received, hreceived⟩ := peers_receive hbytes
    exact ⟨received, false, by rw [hreceived]; cases received <;> rfl⟩
  · obtain ⟨transmitted, htransmitted⟩ := peers_transmit s message.req.data
    exact ⟨false, transmitted, by rw [htransmitted]; rfl⟩
  · exact ⟨false, false, rfl⟩

theorem nodup_peers_serve (hbytes : s.receiveBuffer.Bytes) (message : Message) :
    (peers (s.serve message.uart message.req).1).Nodup := by
  obtain ⟨received, transmitted, hpeers⟩ := peers_serve hbytes message
  rw [hpeers]
  cases received <;> cases transmitted <;> split_ifs <;> decide

theorem courier_mem_peers_iff (hbytes : s.receiveBuffer.Bytes) (message : Message) :
    .courier ∈ peers (s.serve message.uart message.req).1 ↔ message.req.type = ssNotifier := by
  obtain ⟨received, transmitted, hpeers⟩ := peers_serve hbytes message
  rw [hpeers]
  cases received <;> cases transmitted <;> simp

theorem transmitSecretary_mem_peers_iff {outputs : List Output} :
    .transmitSecretary ∈ peers outputs ↔ .replyTransmit ∈ outputs := by
  rw [peers, List.mem_filterMap]
  constructor
  · rintro ⟨output, hmem, hpeer⟩
    cases output <;> first | exact hmem | exact absurd hpeer (by simp [Output.peer])
  · exact fun hmem => ⟨_, hmem, rfl⟩

theorem receiveSecretary_mem_peers_iff {outputs : List Output} :
    .receiveSecretary ∈ peers outputs ↔ replies outputs ≠ [] := by
  rw [peers, List.mem_filterMap, replies, ne_eq, List.filterMap_eq_nil_iff]
  push Not
  refine exists_congr fun output => and_congr_right fun _ => ?_
  cases output <;> simp [Output.peer, Output.reply]

theorem exists_recv_of_peer {output : Output} (hpeer : output.peer = some .receiveSecretary) :
    ∃ recv, output = .replyReceive recv := by
  cases output <;> first | exact ⟨_, rfl⟩ | simp [Output.peer] at hpeer

/-- The request of a message is unreplied until the task is replied to. -/
theorem unreplied_handle (hbytes : run.server.receiveBuffer.Bytes) (message : Message)
    (peer : Peer) :
    unreplied (run.handle message).history peer = true ↔
      (unreplied run.history peer = true ∨ message.req.type = peer.type) ∧
        peer ∉ peers (run.server.serve message.uart message.req).1 := by
  cases peer with
  | courier =>
      rw [courier_mem_peers_iff hbytes]
      simp [unreplied, Peer.type]
  | transmitSecretary =>
      rw [transmitSecretary_mem_peers_iff]
      exact transmitUnreplied_handle_iff run message
  | receiveSecretary =>
      rw [receiveSecretary_mem_peers_iff, unreplied, receiveUnreplied_handle]
      simp [unreplied, Peer.type]

end Peers

/-! ## Between the calls of the server -/

section Settle

variable {outputs : List Output}

@[simp]
theorem peers_settle (outputs : List Output) : peers (settle outputs).2 = peers outputs := by
  fun_induction settle outputs with
  | case1 data rest ih => exact ih
  | case2 rest ih => exact ih
  | case3 rest ih => exact ih
  | case4 => rfl

@[simp]
theorem replies_settle (outputs : List Output) :
    replies (settle outputs).2 = replies outputs := by
  fun_induction settle outputs with
  | case1 data rest ih => exact ih
  | case2 rest ih => exact ih
  | case3 rest ih => exact ih
  | case4 => rfl

theorem bytes_settle (outputs : List Output) :
    (settle outputs).1 ++ bytes (settle outputs).2 = bytes outputs := by
  fun_induction settle outputs with
  | case1 data rest ih => exact congrArg (data :: ·) ih
  | case2 rest ih => exact ih
  | case3 rest ih => exact ih
  | case4 => rfl

/-- The server goes on to a reply. -/
theorem exists_peer_settle {output : Output} {rest : List Output}
    (hsettle : (settle outputs).2 = output :: rest) : ∃ peer, output.peer = some peer := by
  fun_induction settle outputs with
  | case1 data rest ih => exact ih hsettle
  | case2 rest ih => exact ih hsettle
  | case3 rest ih => exact ih hsettle
  | case4 outputs htransmit hreceive hclear =>
      subst hsettle
      cases output with
      | replyCourier => exact ⟨_, rfl⟩
      | replyReceive recv => exact ⟨_, rfl⟩
      | replyTransmit => exact ⟨_, rfl⟩
      | transmit data => exact absurd rfl (htransmit data rest)
      | clearReceive => exact absurd rfl (hreceive rest)
      | clearTransmit => exact absurd rfl (hclear rest)

end Settle

namespace Server

/-- The server has taken a request of the task and not replied to it. -/
def Owes (v : Server) (peer : Peer) : Prop :=
  unreplied v.run.history peer = true ∨ peer ∈ peers v.pending

/-- The server is at a call, and it replies to nobody twice. -/
structure Poised (v : Server) : Prop where
  reply : ∀ output rest, v.pending = output :: rest → ∃ peer, output.peer = some peer
  nodup : (peers v.pending).Nodup
  replied : ∀ peer ∈ peers v.pending, unreplied v.run.history peer = false
  written : v.written ++ bytes v.pending = sentBytes v.run.history

section Poised

variable {v : Server} {req : SerialRequest} {regs : Uart} {output : Output}
  {rest : List Output} {reception : Reception}

theorem owes_of_idle (hpending : v.pending = []) (peer : Peer) :
    v.Owes peer ↔ unreplied v.run.history peer = true := by
  rw [Owes, hpending]
  exact or_iff_left List.not_mem_nil

theorem owes_of_pending {peer : Peer} (hpending : v.pending = output :: rest)
    (hpeer : output.peer = some peer) : v.Owes peer := by
  refine .inr ?_
  rw [hpending, peers, List.filterMap_cons_some hpeer]
  exact List.mem_cons_self

/-- The server does not reply to a secretary that does not wait. -/
theorem unreplied_of_mem_peers (hflow : Flow v.run) (hmailbox : Mailbox reception)
    (hrun : reception.run = v.run) {peer : Peer} (hne : req.type ≠ peer.type)
    (hmem : peer ∈ peers (v.run.server.serve regs req).1) :
    unreplied v.run.history peer = true := by
  have hbytes := hmailbox.bytes
  rw [hrun] at hbytes
  cases peer with
  | courier => exact absurd ((courier_mem_peers_iff hbytes ⟨req, regs⟩).mp hmem) hne
  | transmitSecretary =>
      have hreplied := transmitSecretary_mem_peers_iff.mp hmem
      cases moves_serve hflow.sized ⟨req, regs⟩ with
      | still hunmoved => exact absurd hreplied hunmoved.reply
      | drained _ _ _ _ _ _ hreply => exact absurd hreplied hreply
      | sent _ _ _ _ _ _ _ hreply => exact hflow.full (hreply.mp hreplied)
      | queued htype => exact absurd htype hne
      | started _ htype => exact absurd htype hne
  | receiveSecretary =>
      have hreplied := receiveSecretary_mem_peers_iff.mp hmem
      cases receives_serve v.run.server ⟨req, regs⟩ with
      | still hunmoved => exact absurd hunmoved.replies hreplied
      | handed _ _ hawaiting =>
          have hflag := hmailbox.awaiting
          rw [hrun] at hflag
          exact hflag.symm.trans hawaiting
      | stored _ _ _ _ _ hreplies => exact absurd hreplies hreplied
      | waits htype => exact absurd htype hne
      | taken htype => exact absurd htype hne

/-- A request that is taken is owed a reply, and the others as before. -/
theorem owes_took (hpending : v.pending = []) (hflow : Flow v.run)
    (hmailbox : Mailbox reception) (hrun : reception.run = v.run) (peer : Peer) :
    (({ v with run := v.run.handle ⟨req, regs⟩ }.proceed (v.run.server.serve regs req).1).Owes
      peer) ↔ req.type = peer.type ∨ v.Owes peer := by
  have hbytes := hmailbox.bytes
  rw [hrun] at hbytes
  rw [owes_of_idle hpending, Owes]
  simp only [proceed, peers_settle]
  rw [unreplied_handle hbytes]
  by_cases hmem : peer ∈ peers (v.run.server.serve regs req).1
  · refine iff_of_true (.inr hmem) ?_
    by_cases htype : req.type = peer.type
    · exact .inl htype
    · exact .inr (unreplied_of_mem_peers hflow hmailbox hrun htype hmem)
  · simp only [hmem, or_false, not_false_eq_true, and_true]
    exact or_comm

theorem Poised.took (h : v.Poised) (hpending : v.pending = [])
    (hbytes : v.run.server.receiveBuffer.Bytes) :
    ({ v with run := v.run.handle ⟨req, regs⟩ }.proceed
      (v.run.server.serve regs req).1).Poised where
  reply output rest hsettle := exists_peer_settle hsettle
  nodup := by
    simp only [proceed, peers_settle]
    exact nodup_peers_serve hbytes ⟨req, regs⟩
  replied peer hmem := by
    simp only [proceed, peers_settle] at hmem
    rw [Bool.eq_false_iff]
    exact fun hunreplied => ((unreplied_handle hbytes ⟨req, regs⟩ peer).mp hunreplied).2 hmem
  written := by
    have hwritten := h.written
    rw [hpending] at hwritten
    simp only [proceed]
    rw [List.append_assoc, bytes_settle, sentBytes_handle, ← hwritten]
    simp [bytes]

/-- The reply that the server makes is owed no more. -/
theorem Poised.owes_replied (h : v.Poised) (hpending : v.pending = output :: rest)
    (peer : Peer) :
    (v.proceed rest).Owes peer ↔ v.Owes peer ∧ output.peer ≠ some peer := by
  obtain ⟨first, hfirst⟩ := h.reply output rest hpending
  have hpeers : peers v.pending = first :: peers rest := by
    rw [hpending, peers, List.filterMap_cons_some hfirst]
    rfl
  have hnodup := h.nodup
  have hreplied := h.replied peer
  rw [hpeers] at hreplied hnodup
  rw [List.nodup_cons] at hnodup
  rw [Owes, Owes, hpeers, hfirst, ne_eq, Option.some.injEq]
  simp only [proceed, peers_settle]
  by_cases hpeer : first = peer
  · subst hpeer
    have hnone := hreplied List.mem_cons_self
    simp [hnone, hnodup.1]
  · simp [hpeer, Ne.symm hpeer]

theorem Poised.replied_rest (h : v.Poised) (hpending : v.pending = output :: rest) :
    (v.proceed rest).Poised where
  reply next more hsettle := exists_peer_settle hsettle
  nodup := by
    have hnodup := h.nodup
    rw [hpending] at hnodup
    simp only [proceed, peers_settle]
    exact hnodup.sublist ((List.sublist_cons_self _ _).filterMap _)
  replied peer hmem := by
    simp only [proceed, peers_settle] at hmem
    apply h.replied
    rw [hpending]
    exact ((List.sublist_cons_self _ _).filterMap _).subset hmem
  written := by
    obtain ⟨first, hfirst⟩ := h.reply output rest hpending
    have hnone : output.byte = none := by
      cases output <;> first | rfl | simp [Output.peer] at hfirst
    have hwritten := h.written
    rw [hpending, bytes, List.filterMap_cons_none hnone] at hwritten
    simp only [proceed]
    rw [List.append_assoc, bytes_settle]
    exact hwritten

end Poised

end Server

end Rtk.SerialServer
