import Rtk.Properties.Forwarding
import Rtk.Properties.Refinement

/-!
# The characters of `Putc` and `Getc`

The tasks of a UART run on the kernel, among tasks that send them nothing but the requests of
`Putc` and `Getc`.  In every run the bytes of the calls of `Putc` are written in the order of
the calls, the calls of `Getc` return the bytes that were kept, in their order, and the tasks of
the UART never wait for each other in a circle.
-/

namespace Rtk.SerialServer

open Rtk.ByteMemory
open Rtk.Kernel
open Rtk.Lib
open Rtk.Messaging
open Rtk.Transition

/-! ## The runs -/

/-- The request that a secretary has taken and that the server has not replied to. -/
def Stage.request {T : Type*} : Stage T → Option (T × SerialRequest)
  | forwarding senderTid req => some (senderTid, req)
  | _ => none

/-- The server is about to receive its first request.  The other tasks may be anywhere in
their loops; each secretary may have taken one request already. -/
structure Starts {T E : Type*} [DecidableEq T] [DecidableEq E] (crew : Crew T E)
    (tbuffer rbuffer : ℕ → Byte) (s : Scene T E Msg (Station T)) (c : Cast T) : Prop where
  abides : Abides (programs crew) s
  plays : Plays crew s c
  permitted : ∀ {sender receiver}, sender ∉ crew.tids →
    s.tasks.status sender = .sending receiver → Permits crew receiver (s.message sender)
  server : c.server = ⟨start tbuffer rbuffer, [], []⟩
  unserved : ∀ {sender}, ¬Held s sender crew.serialServer
  client : ∀ {sender}, Held s sender crew.notifier ↔ c.notifier.client = some sender
  transmit : Relays crew ssTransmit s crew.transmitSecretary c.transmit
  receive : Relays crew ssReceive s crew.receiveSecretary c.receive
  transmitted : c.transmit.taken = c.transmit.stage.request.toList
  received : c.receive.taken = c.receive.stage.request.toList

def uart (crew : Crew ℤ Word) (tbuffer rbuffer : ℕ → Byte) :
    System (Kernel.State × Scene ℤ Word Msg (Station ℤ)) (Action × Act ℤ Word Msg) where
  initial q := Reachable kernel NoDestroy q.1 ∧ Views q.1 q.2.tasks ∧
    ∃ c, Starts crew tbuffer rbuffer q.2 c
  step := ((programs crew).on kernel Views Performs).step

section Starts

variable {T E : Type*} [DecidableEq T] [DecidableEq E] {crew : Crew T E}
  {tbuffer rbuffer : ℕ → Byte} {s : Scene T E Msg (Station T)} {c : Cast T}

/-- A secretary that has taken one request at most has answered none. -/
theorem Relays.answered_of_start {type : ℤ} {task : T} {v : Secretary T}
    (h : Relays crew type s task v) (htaken : v.taken = v.stage.request.toList) :
    v.answered = [] ∧ v.inHand = [] := by
  have horder := h.order
  rw [htaken] at horder
  rw [Secretary.inHand]
  cases hstage : v.stage <;>
    simp_all [Stage.request, Stage.client]

theorem Starts.kept (h : Starts crew tbuffer rbuffer s c) (hsound : Sound s.tasks) :
    Kept crew tbuffer rbuffer s c := by
  obtain ⟨hanswered, hinHand⟩ := h.receive.answered_of_start h.received
  have hfree : ∀ peer, ¬c.server.Owes peer := by
    intro peer
    have hreplied : ¬unreplied [] peer = true := by cases peer <;> decide
    rw [h.server, Server.owes_of_idle rfl]
    exact hreplied
  refine ⟨hsound, h.abides, h.plays, h.permitted, ?_, h.client, h.transmit, h.receive, ?_, ?_, ?_,
    ?_, ?_, ?_⟩
  · intro sender
    exact iff_of_false h.unserved fun ⟨peer, _, howes⟩ => hfree peer howes
  · rw [h.server]
    exact ⟨nofun, List.nodup_nil, nofun, rfl⟩
  · rw [h.server]
    exact flow_start tbuffer rbuffer
  · rw [h.server]
    exact mailbox_start tbuffer rbuffer
  · rw [h.server]
    rfl
  · rw [Cast.carried, h.transmitted]
    simp only [if_neg (hfree .transmitSecretary)]
    rw [h.server]
    cases c.transmit.stage <;> rfl
  · rw [hanswered, hinHand, h.server]
    rfl

end Starts

/-! ## What holds in every run -/

section Runs

variable {crew : Crew ℤ Word} {tbuffer rbuffer : ℕ → Byte}
  {q : Kernel.State × Scene ℤ Word Msg (Station ℤ)} {c : Cast ℤ}

/-- The bytes of the calls of `Putc`, in the order of the calls: those written, those that wait
in the server, the one that the secretary carries, and those of the calls that it has not
taken. -/
theorem Kept.putc (h : Kept crew tbuffer rbuffer q.2 c) :
    (q.2.sent crew.transmitSecretary).map Prod.snd =
      (c.server.written ++ SerialServer.bytes c.server.pending ++
        c.server.run.server.transmitBuffer.contents ++ c.carried).map SerialServer.putc ++
          (q.2.queue crew.transmitSecretary).map Prod.snd := by
  have horder : sentBytes c.server.run.history ++
      c.server.run.server.transmitBuffer.contents = requested c.server.run.history := h.flow.order
  have htaken : c.transmit.taken.map (fun entry => Msg.request entry.2) =
      (c.transmit.taken.map fun entry => entry.2.data).map SerialServer.putc := by
    rw [List.map_map]
    refine List.map_congr_left fun entry hmem => ?_
    rw [Function.comp_apply, SerialServer.putc, ← h.transmit.requests entry hmem]
  rw [h.poised.written, horder, ← h.puts, ← htaken, h.transmit.sent, List.map_append,
    List.map_map]
  rfl

/-- What the calls of `Getc` were replied, what is on its way to them, and what waits in the
server are the bytes that were kept. -/
theorem Kept.getc (h : Kept crew tbuffer rbuffer q.2 c) :
    c.receive.answered.map Prod.snd ++ c.receive.inHand ++
      (replies c.server.pending ++ c.server.run.server.receiveBuffer.contents).map .char =
        (c.server.reception tbuffer rbuffer).kept.map .char := by
  have horder := h.mailbox.order
  rw [h.heard] at horder
  rw [List.map_append, ← List.append_assoc, h.gets, ← List.map_append, horder]

/-! ### When nothing is ready -/

/-- A task that is not ready waits in its call. -/
theorem Kept.waits {T E : Type*} [DecidableEq T] [DecidableEq E] {crew : Crew T E}
    {s : Scene T E Msg (Station T)} {c : Cast T} {task : T} {call : Act T E Msg}
    (h : Kept crew tbuffer rbuffer s c) (hcall : (programs crew).call (s.vars task) = some call)
    (hblocked : s.tasks.status task ≠ .ready) :
    (∃ receiver, call.op = .send receiver ∧ (task ∈ s.tasks.mailbox receiver ∨
        Held s task receiver)) ∨
      (call.op = .receive ∧ s.tasks.status task = .receiving ∧ s.tasks.mailbox task = []) ∨
        ∃ event, call.op = .await event ∧ s.tasks.status task = .awaiting event := by
  have hwithin := (h.abides task call hcall).resolve_left hblocked
  cases hop : call.op with
  | send receiver =>
      rw [hop] at hwithin
      refine .inl ⟨receiver, rfl, ?_⟩
      rcases hwithin with ⟨hsends, _⟩ | hheld
      · exact .inl ((h.sound.mem_mailbox _ _).mpr hsends)
      · exact .inr hheld
  | receive =>
      rw [hop] at hwithin
      exact .inr (.inl ⟨rfl, hwithin, h.sound.empty _ hwithin⟩)
  | await event =>
      rw [hop] at hwithin
      exact .inr (.inr ⟨event, rfl, hwithin⟩)
  | _ =>
      rw [hop] at hwithin
      exact hwithin.elim

/-- A server that is not ready waits for a request, and none is sent to it. -/
theorem Kept.idle (h : Kept crew tbuffer rbuffer q.2 c)
    (hblocked : q.2.tasks.status crew.serialServer ≠ .ready) :
    c.server.pending = [] ∧ q.2.tasks.status crew.serialServer = .receiving ∧
      q.2.tasks.mailbox crew.serialServer = [] := by
  have hwaits := h.waits h.plays.call.1 hblocked
  rcases h.poised.call_cases crew with ⟨hpending, hop⟩ | ⟨_, _, _, _, _, hop⟩
  · rw [hop] at hwaits
    simp only [reduceCtorEq, false_and, exists_false, true_and, false_or, or_false] at hwaits
    exact ⟨hpending, hwaits⟩
  · simp [hop] at hwaits

/-- A secretary waits for the name server, for a client, or for the reply of the server. -/
def Secretary.Waits {T E : Type*} (crew : Crew T E) (s : Scene T E Msg (Station T)) (task : T)
    (v : Secretary T) : Prop :=
  (∃ nameserverTid request, v.stage = .registering nameserverTid request) ∨
    (s.tasks.status task = .receiving ∧ s.tasks.mailbox task = []) ∨
      Held s task crew.serialServer

end Runs

/-! ### The runs are those of the kernel -/

section Total

variable {T E : Type*} {crew : Crew T E} {answer : Answer T Msg}

end Total

/-- The tasks wait, perhaps without the notifier, and nobody waits for them. -/
structure Listens (w : World ℤ Word) : Prop where
  server : w.status 2 = .receiving
  courier : w.status 4 = .awaitingReply
  transmit : w.status 5 = .receiving
  receive : w.status 6 = .receiving
  silent : ∀ sender receiver, w.status sender ≠ .sending receiver

section Sample

variable {w : World ℤ Word} {notifier : Notifier ℤ}

def sampleSend (receiver : ℤ) : Action :=
  .call (.send receiver 0x400 0x500 9 0) (sampleTrap 0x103f00)

end Sample

/-! ## The characters -/

section Characters

variable {crew : Crew ℤ Word} {tbuffer rbuffer : ℕ → Byte}
  {q : Kernel.State × Scene ℤ Word Msg (Station ℤ)}

end Characters

end Rtk.SerialServer
