import Rtk.Properties.Settling

/-!
# The secretaries and the server

Whatever the other tasks do, as long as they send the serial tasks nothing but the requests of
`Putc` and `Getc` and reply only to those whose messages they took, the serial tasks keep
together: each secretary has one request under way, and every reply finds its task waiting.
-/

namespace Rtk.SerialServer

open Rtk.ByteMemory
open Rtk.Lib
open Rtk.Messaging
open Rtk.Transition

variable {T E : Type*}

/-! ## What the other tasks may do -/

/-- What the tasks of the UART may be sent by others. -/
def Permits (crew : Crew T E) (receiver : T) (msg : Msg) : Prop :=
  receiver ∉ [crew.serialServer, crew.courier, crew.notifier] ∧
    (receiver = crew.transmitSecretary → ∃ ch, msg = putc ch) ∧
      (receiver = crew.receiveSecretary → msg = getc)

/-- Another task sends only the requests of `Putc` and `Getc`, and replies only to those whose
messages it took. -/
def Polite (crew : Crew T E) (s : Scene T E Msg (Station T)) (act : Act T E Msg) : Prop :=
  s.tasks.running ∉ crew.tids →
    (∀ receiver, act.op = .send receiver → Permits crew receiver act.msg) ∧ Honest s act

/-! ## The variables of the tasks -/

def Peer.tid (crew : Crew T E) : Peer → T
  | courier => crew.courier
  | transmitSecretary => crew.transmitSecretary
  | receiveSecretary => crew.receiveSecretary

def Stage.client : Stage T → Option T
  | forwarding senderTid _ => some senderTid
  | replying senderTid _ => some senderTid
  | _ => none

def Notifier.client : Notifier T → Option T
  | receiving => none
  | awaiting courier => some courier
  | replying courier => some courier

structure Cast (T : Type*) where
  server : Server
  courier : Courier
  notifier : Notifier T
  transmit : Secretary T
  receive : Secretary T

structure Plays (crew : Crew T E) (s : Scene T E Msg (Station T)) (c : Cast T) : Prop where
  server : s.vars crew.serialServer = .serialServer c.server
  courier : s.vars crew.courier = .courier c.courier
  notifier : s.vars crew.notifier = .notifier c.notifier
  transmit : s.vars crew.transmitSecretary = .transmitSecretary c.transmit
  receive : s.vars crew.receiveSecretary = .receiveSecretary c.receive
  other : ∀ {task}, task ∉ crew.tids → s.vars task = .other

/-- What an operation does to the variables of a task: they change when its call returns. -/
def Evolves {V : Type*} (s : Scene T E Msg (Station T)) (act : Act T E Msg) (task : T)
    (resumes : Answer T Msg → V → V → Prop) (v v' : V) : Prop :=
  (v' = v ∧ ∀ answer, ¬Answered s act task answer) ∨
    ∃ answer, Answered s act task answer ∧ resumes answer v v'

theorem Evolves.eq_of_not_answered {V : Type*} {s : Scene T E Msg (Station T)}
    {act : Act T E Msg} {task : T} {resumes : Answer T Msg → V → V → Prop} {v v' : V}
    (h : Evolves s act task resumes v v') (hnone : ∀ answer, ¬Answered s act task answer) :
    v' = v := by
  rcases h with ⟨hsame, _⟩ | ⟨answer, hanswered, _⟩
  · exact hsame
  · exact absurd hanswered (hnone answer)

structure Changes (crew : Crew T E) (s : Scene T E Msg (Station T)) (act : Act T E Msg)
    (c c' : Cast T) : Prop where
  server : Evolves s act crew.serialServer Server.Resumes c.server c'.server
  courier : Evolves s act crew.courier (fun _ v v' => v' = v.next) c.courier c'.courier
  notifier : Evolves s act crew.notifier Notifier.Resumes c.notifier c'.notifier
  transmit : Evolves s act crew.transmitSecretary
    (Secretary.Resumes crew fun _ => .null) c.transmit c'.transmit
  receive : Evolves s act crew.receiveSecretary (Secretary.Resumes crew id) c.receive c'.receive

section Plays

variable [DecidableEq T] [DecidableEq E] {crew : Crew T E}
  {s s' : Scene T E Msg (Station T)} {act : Act T E Msg} {c c' : Cast T} {task : T}

omit [DecidableEq T] [DecidableEq E] in
theorem Crew.transmitSecretary_ne (crew : Crew T E) :
    crew.transmitSecretary ≠ crew.serialServer := by
  have hdistinct := crew.distinct
  simp only [List.nodup_cons, List.mem_cons, not_or] at hdistinct
  tauto

omit [DecidableEq T] [DecidableEq E] in
theorem Crew.receiveSecretary_ne (crew : Crew T E) :
    crew.receiveSecretary ≠ crew.serialServer := by
  have hdistinct := crew.distinct
  simp only [List.nodup_cons, List.mem_cons, not_or] at hdistinct
  tauto

omit [DecidableEq T] [DecidableEq E] in
theorem mem_tids_iff : task ∈ crew.tids ↔ task = crew.serialServer ∨ task = crew.courier ∨
    task = crew.notifier ∨ task = crew.transmitSecretary ∨ task = crew.receiveSecretary := by
  simp [Crew.tids]

/-- A task is its station before and after. -/
theorem exists_evolves {V : Type*} {v : V} {resumes : Answer T Msg → V → V → Prop}
    (station : V → Station T) (hstep : (programs crew).Step s act s')
    (hvars : s.vars task = station v)
    (hresumes : ∀ answer next, Station.Resumes crew answer (station v) next →
      ∃ v', next = station v' ∧ resumes answer v v') :
    ∃ v', s'.vars task = station v' ∧ Evolves s act task resumes v v' := by
  by_cases hanswered : ∃ answer, Answered s act task answer
  · obtain ⟨answer, hanswered⟩ := hanswered
    have hresumed := hstep.resumes hanswered
    rw [hvars] at hresumed
    obtain ⟨v', hnext, hv'⟩ := hresumes answer _ hresumed
    exact ⟨v', hnext, .inr ⟨answer, hanswered, hv'⟩⟩
  · rw [not_exists] at hanswered
    exact ⟨v, (hstep.vars hanswered).trans hvars, .inl ⟨rfl, hanswered⟩⟩

theorem Plays.step (h : Plays crew s c) (hstep : (programs crew).Step s act s') :
    ∃ c', Plays crew s' c' ∧ Changes crew s act c c' := by
  obtain ⟨server, hserver, hserver'⟩ :=
    exists_evolves Station.serialServer hstep h.server
      (fun _ _ hresumes => by
        cases hresumes with
        | serialServer hresumes => exact ⟨_, rfl, hresumes⟩)
  obtain ⟨courier, hcourier, hcourier'⟩ : ∃ v', s'.vars crew.courier = .courier v' ∧
      Evolves s act crew.courier (fun _ v v' => v' = v.next) c.courier v' :=
    exists_evolves Station.courier hstep h.courier
      (fun _ _ hresumes => by
        cases hresumes with
        | courier => exact ⟨_, rfl, rfl⟩)
  obtain ⟨notifier, hnotifier, hnotifier'⟩ :=
    exists_evolves Station.notifier hstep h.notifier
      (fun _ _ hresumes => by
        cases hresumes with
        | notifier hresumes => exact ⟨_, rfl, hresumes⟩)
  obtain ⟨transmit, htransmit, htransmit'⟩ :=
    exists_evolves Station.transmitSecretary hstep h.transmit
      (fun _ _ hresumes => by
        cases hresumes with
        | transmitSecretary hresumes => exact ⟨_, rfl, hresumes⟩)
  obtain ⟨receive, hreceive, hreceive'⟩ :=
    exists_evolves Station.receiveSecretary hstep h.receive
      (fun _ _ hresumes => by
        cases hresumes with
        | receiveSecretary hresumes => exact ⟨_, rfl, hresumes⟩)
  refine ⟨⟨server, courier, notifier, transmit, receive⟩,
    ⟨hserver, hcourier, hnotifier, htransmit, hreceive, fun {task} hother => ?_⟩,
    ⟨hserver', hcourier', hnotifier', htransmit', hreceive'⟩⟩
  by_cases hanswered : ∃ answer, Answered s act task answer
  · obtain ⟨answer, hanswered⟩ := hanswered
    have hresumed := hstep.resumes hanswered
    rw [h.other hother] at hresumed
    generalize s'.vars task = next at hresumed
    cases hresumed
    rfl
  · rw [not_exists] at hanswered
    exact (hstep.vars hanswered).trans (h.other hother)

end Plays

/-! ## A secretary -/

/-- The secretary serves one sender at a time, in the order in which they send. -/
structure Relays (crew : Crew T E) (type : ℤ) [DecidableEq T] [DecidableEq E]
    (s : Scene T E Msg (Station T)) (task : T) (v : Secretary T) : Prop where
  client : ∀ {sender}, Held s sender task ↔ v.stage.client = some sender
  outside : ∀ {nameserverTid request}, v.stage = .registering nameserverTid request →
    nameserverTid ∉ crew.tids
  typed : ∀ {sender req}, v.stage = .forwarding sender req → req.type = type
  requests : ∀ entry ∈ v.taken, entry.2.type = type
  sent : s.sent task = v.taken.map (fun entry => (entry.1, .request entry.2)) ++ s.queue task
  order : v.taken.map Prod.fst = v.answered.map Prod.fst ++ v.stage.client.toList

section Relays

variable [DecidableEq T] [DecidableEq E] {crew : Crew T E} {type : ℤ}
  {s s' : Scene T E Msg (Station T)} {act : Act T E Msg} {task : T} {v v' : Secretary T}
  {result : Msg → Msg}

/-- What a secretary that takes nothing has sent to it waits. -/
theorem Relays.sent_idle (h : Relays crew type s task v)
    (hstep : (programs crew).Step s act s') (hsound : Sound s.tasks)
    (hborn : ¬(s.tasks.status task = .unborn ∨ s.tasks.status task = .ended))
    (htook : ∀ sender msg, ¬Answered s act task (.took sender msg)) :
    s'.sent task =
      v.taken.map (fun entry => (entry.1, .request entry.2)) ++ s'.queue task := by
  rw [hstep.sent_eq, h.sent, hstep.queue_eq hsound hborn htook, List.append_assoc]

/-- A `Send` that returns leaves the secretary with the same sender. -/
theorem Relays.resume_send (h : Relays crew type s task v) (hsound : Sound s.tasks)
    (habides : Abides (programs crew) s) (hstep : (programs crew).Step s act s')
    (hhonest : Honest s act) (hcall : (programs crew).call (s.vars task) = some (v.call crew))
    {receiver : T} (hop : (v.call crew).op = .send receiver) (htaken : v'.taken = v.taken)
    (hanswered : v'.answered = v.answered) (hclient : v'.stage.client = v.stage.client)
    (houtside : ∀ {nameserverTid request}, v'.stage = .registering nameserverTid request →
      nameserverTid ∉ crew.tids)
    (htyped : ∀ {sender req}, v'.stage = .forwarding sender req → req.type = type) :
    Relays crew type s' task v' := by
  have htook := @habides.not_took _ _ _ _ _ _ _ _ _ _ _ _ hstep hcall (by simp [hop])
  have hreply := hstep.not_reply hcall (by simp [hop])
  refine ⟨?_, houtside, htyped, ?_, ?_, ?_⟩
  · intro sender
    rw [hstep.held_idle hsound hhonest htook hreply, hclient]
    exact h.client
  · rw [htaken]
    exact h.requests
  · rw [htaken]
    exact h.sent_idle hstep hsound (habides task _ hcall).alive htook
  · rw [htaken, hanswered, hclient]
    exact h.order

/-- The sender that a secretary replies to waits. -/
theorem Relays.not_refused {senderTid : T} {res : Msg} (h : Relays crew type s task v)
    (habides : Abides (programs crew) s) (hstep : (programs crew).Step s act s')
    (hcall : (programs crew).call (s.vars task) = some (v.call crew))
    (hstage : v.stage = .replying senderTid res) : ¬Answered s act task .failed := by
  intro hanswered
  have hop : (v.call crew).op = .reply senderTid := by rw [Secretary.call, hstage]
  obtain ⟨_, rfl⟩ := habides.reply_answered hstep hcall hop hanswered
  have hheld : Held s senderTid task := by
    rw [h.client, hstage]
    rfl
  cases hanswered with
  | unsent _ hsend => simp [hop] at hsend
  | refused _ hreply hstatus =>
      rw [hop, Op.reply.injEq] at hreply
      exact absurd (hreply ▸ hheld.1) hstatus

theorem Relays.step (h : Relays crew type s task v) (hsound : Sound s.tasks)
    (habides : Abides (programs crew) s) (hstep : (programs crew).Step s act s')
    (hhonest : Honest s act) (hcall : (programs crew).call (s.vars task) = some (v.call crew))
    (hrequests : ∀ sender msg, Answered s act task (.took sender msg) →
      ∃ req, msg = .request req ∧ req.type = type)
    (hevolves : Evolves s act task (Secretary.Resumes crew result) v v') :
    Relays crew type s' task v' := by
  have hborn := (habides task _ hcall).alive
  rcases hevolves with ⟨rfl, hnone⟩ | ⟨answer, hanswered, hresumes⟩
  · have hsilent := not_reply_of_not_answered hnone
    refine ⟨?_, h.outside, h.typed, h.requests,
      h.sent_idle hstep hsound hborn fun _ _ => hnone _, h.order⟩
    intro sender
    rw [hstep.held_idle hsound hhonest (fun _ _ => hnone _) hsilent]
    exact h.client
  cases hresumes with
  | again nameserverTid' request' hstage hother =>
      refine h.resume_send hsound habides hstep hhonest hcall
        (by rw [Secretary.call, hstage]) rfl rfl (by rw [hstage]; rfl) ?_ (by simp)
      rintro _ _ ⟨⟩
      exact hother
  | registered hstage =>
      exact h.resume_send hsound habides hstep hhonest hcall
        (by rw [Secretary.call, hstage]) rfl rfl (by rw [hstage]; rfl) (by simp) (by simp)
  | @took sender msg _ req hstage hreq =>
      obtain ⟨sent, rfl, htype⟩ := hrequests sender msg hanswered
      obtain rfl := hreq sent rfl
      have hnobody : v.stage.client = none := by
        rw [hstage]
        rfl
      refine ⟨?_, by simp, ?_, ?_, ?_, ?_⟩
      · intro client
        rw [hstep.held_took hsound hanswered, h.client, hnobody]
        simp [Stage.client, eq_comm]
      · rintro _ _ ⟨⟩
        exact htype
      · rw [List.forall_mem_append]
        exact ⟨h.requests, by simpa using htype⟩
      · rw [hstep.sent_eq, h.sent, List.append_assoc, hstep.queue_took hsound hanswered]
        simp
      · rw [List.map_append, h.order, hnobody]
        simp [Stage.client]
  | replied hstage =>
      exact h.resume_send hsound habides hstep hhonest hcall
        (by rw [Secretary.call, hstage]) rfl rfl (by rw [hstage]; rfl) (by simp) (by simp)
  | unsent res hstage =>
      exact h.resume_send hsound habides hstep hhonest hcall
        (by rw [Secretary.call, hstage]) rfl rfl (by rw [hstage]; rfl) (by simp) (by simp)
  | @answered _ senderTid res hstage =>
      have hop : (v.call crew).op = .reply senderTid := by rw [Secretary.call, hstage]
      obtain ⟨hrunning, rfl⟩ := habides.reply_answered hstep hcall hop hanswered
      have hclient : v.stage.client = some senderTid := by
        rw [hstage]
        rfl
      refine ⟨?_, by simp, by simp, h.requests, ?_, ?_⟩
      · intro client
        rw [hstep.held_reply hsound hop, h.client, hclient]
        simp [Stage.client, eq_comm]
      · exact h.sent_idle hstep hsound hborn (habides.not_took hstep hcall (by simp [hop]))
      · rw [h.order, hclient]
        simp [Stage.client]
  | refused hstage => exact absurd hanswered (h.not_refused habides hstep hcall hstage)

/-- A secretary sends to the name server, or it forwards a request. -/
theorem Relays.send_cases {receiver : T} (h : Relays crew type s task v)
    (hop : (v.call crew).op = .send receiver) :
    receiver ∉ crew.tids ∨ (receiver = crew.serialServer ∧ ∃ client req,
      v.stage = .forwarding client req ∧ (v.call crew).msg = .request req ∧ req.type = type) := by
  rw [Secretary.call] at hop ⊢
  cases hstage : v.stage with
  | registering nameserverTid request =>
      rw [hstage, Op.send.injEq] at hop
      exact .inl (hop ▸ h.outside hstage)
  | forwarding client req =>
      rw [hstage, Op.send.injEq] at hop
      exact .inr ⟨hop.symm, client, req, rfl, rfl, h.typed hstage⟩
  | receiving => simp [hstage] at hop
  | replying client res => simp [hstage] at hop

end Relays

/-! ## All tasks of a UART -/

/-- The server's history with the bytes that found room in its receive buffer. -/
def Server.reception (v : Server) (tbuffer rbuffer : ℕ → Byte) : Reception :=
  (v.run.history.map Iteration.message).foldl Reception.handle (startReception tbuffer rbuffer)

instance (v : Server) (peer : Peer) : Decidable (v.Owes peer) :=
  inferInstanceAs (Decidable (_ ∨ _))

/-- The byte that the transmit secretary has taken and the server has not. -/
def Cast.carried (c : Cast T) : List Byte :=
  match c.transmit.stage with
  | .forwarding _ req => if c.server.Owes .transmitSecretary then [] else [req.data]
  | _ => []

/-- The reply that the receive secretary has taken and not passed on. -/
def Secretary.inHand (v : Secretary T) : List Msg :=
  match v.stage with
  | .replying _ res => [res]
  | _ => []

/-- The tasks of a UART keep together. -/
structure Kept (crew : Crew T E) [DecidableEq T] [DecidableEq E] (tbuffer rbuffer : ℕ → Byte)
    (s : Scene T E Msg (Station T)) (c : Cast T) : Prop where
  sound : Sound s.tasks
  abides : Abides (programs crew) s
  plays : Plays crew s c
  permitted : ∀ {sender receiver}, sender ∉ crew.tids →
    s.tasks.status sender = .sending receiver → Permits crew receiver (s.message sender)
  owed : ∀ {sender}, Held s sender crew.serialServer ↔
    ∃ peer : Peer, sender = peer.tid crew ∧ c.server.Owes peer
  client : ∀ {sender}, Held s sender crew.notifier ↔ c.notifier.client = some sender
  transmit : Relays crew ssTransmit s crew.transmitSecretary c.transmit
  receive : Relays crew ssReceive s crew.receiveSecretary c.receive
  poised : c.server.Poised
  flow : Flow c.server.run
  mailbox : Mailbox (c.server.reception tbuffer rbuffer)
  heard : (c.server.reception tbuffer rbuffer).run = c.server.run
  puts : c.transmit.taken.map (fun entry => entry.2.data) =
    requested c.server.run.history ++ c.carried
  gets : c.receive.answered.map Prod.snd ++ c.receive.inHand ++
    (replies c.server.pending).map .char = (repliedBytes c.server.run.history).map .char

section Kept

variable [DecidableEq T] [DecidableEq E] {crew : Crew T E} {tbuffer rbuffer : ℕ → Byte}
  {s s' : Scene T E Msg (Station T)} {act : Act T E Msg} {c c' : Cast T} {task sender : T}
  {msg : Msg}

omit [DecidableEq T] [DecidableEq E] in
theorem Peer.tid_injective (crew : Crew T E) : Function.Injective (Peer.tid crew) := by
  have hdistinct := crew.distinct
  simp only [List.nodup_cons, List.mem_cons, not_or] at hdistinct
  intro peer peer' htid
  cases peer <;> cases peer' <;> simp_all [Peer.tid]

omit [DecidableEq T] [DecidableEq E] in
/-- The calls of the tasks. -/
theorem Plays.call (h : Plays crew s c) :
    (programs crew).call (s.vars crew.serialServer) = some (c.server.call crew) ∧
      (programs crew).call (s.vars crew.courier) = some (c.courier.call crew) ∧
      (programs crew).call (s.vars crew.notifier) = some (c.notifier.call crew) ∧
      (programs crew).call (s.vars crew.transmitSecretary) = some (c.transmit.call crew) ∧
      (programs crew).call (s.vars crew.receiveSecretary) = some (c.receive.call crew) := by
  rw [h.server, h.courier, h.notifier, h.transmit, h.receive]
  exact ⟨rfl, rfl, rfl, rfl, rfl⟩

/-- What another task sends is permitted. -/
theorem Kept.permits (h : Kept crew tbuffer rbuffer s c) (hpolite : Polite crew s act)
    (hsender : sender ∉ crew.tids) (hsends : Sends s act sender task msg) :
    Permits crew task msg := by
  rcases hsends with ⟨hstatus, rfl⟩ | ⟨rfl, hop, rfl⟩
  · exact h.permitted hsender hstatus
  · exact (hpolite hsender).1 task hop

omit [DecidableEq T] [DecidableEq E] in
/-- The server replies to the task that its next output names. -/
theorem Server.call_of_peer {v : Server} {output : Output} {rest : List Output} {peer : Peer}
    (crew : Crew T E) (hpending : v.pending = output :: rest) (hpeer : output.peer = some peer) :
    (v.call crew).op = .reply (peer.tid crew) := by
  rw [Server.call, hpending]
  cases output with
  | replyCourier =>
      cases hpeer
      rfl
  | replyReceive recv =>
      cases hpeer
      rfl
  | replyTransmit =>
      cases hpeer
      rfl
  | _ => simp [Output.peer] at hpeer

omit [DecidableEq T] [DecidableEq E] in
theorem Server.call_of_idle {v : Server} (hpending : v.pending = []) :
    (v.call crew).op = .receive := by rw [Server.call, hpending]

omit [DecidableEq T] [DecidableEq E] in
/-- The server makes no call but `Receive` and `Reply`. -/
theorem Server.Poised.call_cases {v : Server} (h : v.Poised) (crew : Crew T E) :
    (v.pending = [] ∧ (v.call crew).op = .receive) ∨
      ∃ output rest peer, v.pending = output :: rest ∧ output.peer = some peer ∧
        (v.call crew).op = .reply (peer.tid crew) := by
  cases hpending : v.pending with
  | nil => exact .inl ⟨rfl, Server.call_of_idle hpending⟩
  | cons output rest =>
      obtain ⟨peer, hpeer⟩ := h.reply output rest hpending
      exact .inr ⟨output, rest, peer, rfl, hpeer, Server.call_of_peer crew hpending hpeer⟩

/-- The tasks of the UART reply to those whose messages they took. -/
theorem Kept.held_of_reply (h : Kept crew tbuffer rbuffer s c) (htask : task ∈ crew.tids)
    {call : Act T E Msg} (hcall : (programs crew).call (s.vars task) = some call)
    (hop : call.op = .reply sender) : Held s sender task := by
  obtain ⟨hserver, hcourier, hnotifier, htransmit, hreceive⟩ := h.plays.call
  rw [mem_tids_iff] at htask
  rcases htask with rfl | rfl | rfl | rfl | rfl
  · cases hserver.symm.trans hcall
    rcases h.poised.call_cases crew with
      ⟨_, hreceives⟩ | ⟨output, rest, peer, hpending, hpeer, hreply⟩
    · simp [hreceives] at hop
    · rw [hreply, Op.reply.injEq] at hop
      exact h.owed.mpr ⟨peer, hop.symm, Server.owes_of_pending hpending hpeer⟩
  · cases hcourier.symm.trans hcall
    cases hstage : c.courier <;> simp [hstage, Courier.call] at hop
  · cases hnotifier.symm.trans hcall
    rw [h.client]
    cases hstage : c.notifier <;> simp_all [Notifier.call, Notifier.client]
  · cases htransmit.symm.trans hcall
    rw [h.transmit.client]
    cases hstage : c.transmit.stage <;> simp_all [Secretary.call, Stage.client]
  · cases hreceive.symm.trans hcall
    rw [h.receive.client]
    cases hstage : c.receive.stage <;> simp_all [Secretary.call, Stage.client]

omit [DecidableEq T] [DecidableEq E] in
theorem Plays.exists_call (h : Plays crew s c) (htask : task ∈ crew.tids) :
    ∃ call, (programs crew).call (s.vars task) = some call := by
  obtain ⟨hserver, hcourier, hnotifier, htransmit, hreceive⟩ := h.call
  rw [mem_tids_iff] at htask
  rcases htask with rfl | rfl | rfl | rfl | rfl
  · exact ⟨_, hserver⟩
  · exact ⟨_, hcourier⟩
  · exact ⟨_, hnotifier⟩
  · exact ⟨_, htransmit⟩
  · exact ⟨_, hreceive⟩

/-- No task replies to one whose message it did not take. -/
theorem Kept.honest (h : Kept crew tbuffer rbuffer s c) (hstep : (programs crew).Step s act s')
    (hpolite : Polite crew s act) : Honest s act := by
  by_cases hrunning : s.tasks.running ∈ crew.tids
  · intro sender hop _
    obtain ⟨call, hcall⟩ := h.plays.exists_call hrunning
    rw [hstep.call (by simp [hop, Op.Called]) call hcall] at hop
    exact (h.held_of_reply hrunning hcall hop).2
  · exact (hpolite hrunning).2

/-- What a task of the UART sends to another one. -/
theorem Kept.sends_cases (h : Kept crew tbuffer rbuffer s c)
    (hstep : (programs crew).Step s act s') (hsender : sender ∈ crew.tids)
    (hsends : Sends s act sender task msg) :
    task ∉ crew.tids ∨ (sender = crew.courier ∧ task = crew.notifier) ∨
      (task = crew.serialServer ∧ ∃ (peer : Peer) (req : SerialRequest), sender = peer.tid crew ∧
        msg = .request req ∧ req.type = peer.type ∧
          (peer = .transmitSecretary → ∃ client, c.transmit.stage = .forwarding client req) ∧
          (peer = .receiveSecretary → ∃ client, c.receive.stage = .forwarding client req)) := by
  obtain ⟨hserver, hcourier, hnotifier, htransmit, hreceive⟩ := h.plays.call
  rw [mem_tids_iff] at hsender
  rcases hsender with rfl | rfl | rfl | rfl | rfl
  · obtain ⟨hop, _⟩ := h.abides.sends hstep hserver hsends
    rcases h.poised.call_cases crew with ⟨_, hcalls⟩ | ⟨_, _, _, _, _, hcalls⟩
    · simp [hcalls] at hop
    · simp [hcalls] at hop
  · obtain ⟨hop, hmsg⟩ := h.abides.sends hstep hcourier hsends
    cases hstage : c.courier with
    | collecting =>
        rw [hstage, Courier.call, Op.send.injEq] at hop
        exact .inr (.inl ⟨rfl, hop.symm⟩)
    | delivering =>
        rw [hstage, Courier.call] at hop hmsg
        rw [Op.send.injEq] at hop
        exact .inr (.inr ⟨hop.symm, .courier, _, rfl, hmsg.symm, rfl, by simp, by simp⟩)
  · obtain ⟨hop, _⟩ := h.abides.sends hstep hnotifier hsends
    cases hstage : c.notifier <;> simp [hstage, Notifier.call] at hop
  · obtain ⟨hop, hmsg⟩ := h.abides.sends hstep htransmit hsends
    rcases h.transmit.send_cases hop with hother | ⟨hreceiver, client, req, hstage, heq, htype⟩
    · exact .inl hother
    · exact .inr (.inr ⟨hreceiver, .transmitSecretary, req, rfl, hmsg.symm.trans heq, htype,
        fun _ => ⟨client, hstage⟩, by simp⟩)
  · obtain ⟨hop, hmsg⟩ := h.abides.sends hstep hreceive hsends
    rcases h.receive.send_cases hop with hother | ⟨hreceiver, client, req, hstage, heq, htype⟩
    · exact .inl hother
    · exact .inr (.inr ⟨hreceiver, .receiveSecretary, req, rfl, hmsg.symm.trans heq, htype,
        by simp, fun _ => ⟨client, hstage⟩⟩)

/-- The server takes the requests of the courier and of the secretaries. -/
theorem Kept.took_server (h : Kept crew tbuffer rbuffer s c)
    (hstep : (programs crew).Step s act s') (hpolite : Polite crew s act)
    (htook : Answered s act crew.serialServer (.took sender msg)) :
    ∃ (peer : Peer) (req : SerialRequest), sender = peer.tid crew ∧
      msg = .request req ∧ req.type = peer.type ∧
        (peer = .transmitSecretary → ∃ client, c.transmit.stage = .forwarding client req) ∧
        (peer = .receiveSecretary → ∃ client, c.receive.stage = .forwarding client req) := by
  have hsends := sends_of_took h.sound htook
  by_cases hsender : sender ∈ crew.tids
  · rcases h.sends_cases hstep hsender hsends with hother | ⟨_, hnotifier⟩ | ⟨_, hpeer⟩
    · exact absurd (mem_tids_iff.mpr (.inl rfl)) hother
    · have hdistinct := crew.distinct
      simp [hnotifier] at hdistinct
    · exact hpeer
  · exact absurd List.mem_cons_self (h.permits hpolite hsender hsends).1

/-- A secretary takes nothing from the other tasks of the UART. -/
theorem Kept.permits_secretary (h : Kept crew tbuffer rbuffer s c)
    (hstep : (programs crew).Step s act s') (hpolite : Polite crew s act)
    (htask : task = crew.transmitSecretary ∨ task = crew.receiveSecretary)
    (htook : Answered s act task (.took sender msg)) : Permits crew task msg := by
  have hsends := sends_of_took h.sound htook
  have hmem : task ∈ crew.tids := mem_tids_iff.mpr (by tauto)
  have hdistinct := crew.distinct
  simp only [List.nodup_cons, List.mem_cons, not_or] at hdistinct
  refine h.permits hpolite (fun hsender => ?_) hsends
  rcases h.sends_cases hstep hsender hsends with hother | ⟨_, hnotifier⟩ | ⟨hserver, _⟩
  · exact hother hmem
  · subst hnotifier
    tauto
  · subst hserver
    tauto

inductive Serves (crew : Crew T E) (s : Scene T E Msg (Station T)) (act : Act T E Msg)
    (c : Cast T) : Server → Prop
  | still (hnone : ∀ answer, ¬Answered s act crew.serialServer answer) :
      Serves crew s act c c.server
  /-- The server takes a request. -/
  | took (peer : Peer) (req : SerialRequest) (regs : Uart)
      (htook : Answered s act crew.serialServer (.took (peer.tid crew) (.request req)))
      (hpending : c.server.pending = []) (htype : req.type = peer.type)
      (htransmit : peer = .transmitSecretary →
        ∃ client, c.transmit.stage = .forwarding client req)
      (hreceive : peer = .receiveSecretary →
        ∃ client, c.receive.stage = .forwarding client req) :
      Serves crew s act c ({ c.server with run := c.server.run.handle ⟨req, regs⟩ }.proceed
        (c.server.run.server.serve regs req).1)
  /-- The server replies. -/
  | replied (output : Output) (rest : List Output) (peer : Peer)
      (hrunning : s.tasks.running = crew.serialServer) (hcall : act = c.server.call crew)
      (hpending : c.server.pending = output :: rest) (hpeer : output.peer = some peer)
      (hop : act.op = .reply (peer.tid crew)) : Serves crew s act c (c.server.proceed rest)

theorem Kept.serves (h : Kept crew tbuffer rbuffer s c) (hstep : (programs crew).Step s act s')
    (hpolite : Polite crew s act) (hchanges : Changes crew s act c c') :
    Serves crew s act c c'.server := by
  rcases hchanges.server with ⟨hsame, hnone⟩ | ⟨answer, hanswered, hresumes⟩
  · rw [hsame]
    exact .still hnone
  generalize hv' : c'.server = v' at hresumes
  cases hresumes with
  | took regs hpending hreq =>
      obtain ⟨peer, sent, rfl, rfl, htype, htransmit, hreceive⟩ :=
        h.took_server hstep hpolite hanswered
      obtain rfl := hreq sent rfl
      exact .took peer _ regs hanswered hpending htype htransmit hreceive
  | @replied _ _ output rest hpending =>
      obtain ⟨peer, hpeer⟩ := h.poised.reply output rest hpending
      have hop := Server.call_of_peer crew hpending hpeer
      obtain ⟨hrunning, hcall⟩ := h.abides.reply_answered hstep h.plays.call.1 hop hanswered
      exact .replied output rest peer hrunning.symm hcall hpending hpeer (hcall ▸ hop)

inductive Forwards (crew : Crew T E) (s : Scene T E Msg (Station T)) (act : Act T E Msg)
    (task : T) (result : Msg → Msg) (v : Secretary T) : Secretary T → Prop
  | still (hnone : ∀ answer, ¬Answered s act task answer) : Forwards crew s act task result v v
  | again {nameserverTid : T} {request : Msg} (nameserverTid' : T) (request' : Msg)
      (hstage : v.stage = .registering nameserverTid request) :
      Forwards crew s act task result v
        { v with stage := .registering nameserverTid' request' }
  | registered {nameserverTid : T} {request : Msg}
      (hstage : v.stage = .registering nameserverTid request) :
      Forwards crew s act task result v { v with stage := .receiving }
  | took (sender : T) (req : SerialRequest) (hstage : v.stage = .receiving)
      (hfree : ¬Held s task crew.serialServer) :
      Forwards crew s act task result v
        { v with stage := .forwarding sender req, taken := v.taken ++ [(sender, req)] }
  /-- The server replies. -/
  | replied (sender : T) (req : SerialRequest) (hstage : v.stage = .forwarding sender req)
      (hrunning : s.tasks.running = crew.serialServer) (hop : act.op = .reply task) :
      Forwards crew s act task result v
        { v with stage := .replying sender (result act.msg) }
  | answered (sender : T) (res : Msg) (hstage : v.stage = .replying sender res) :
      Forwards crew s act task result v
        { v with stage := .receiving, answered := v.answered ++ [(sender, res)] }

/-- Only the server replies to a secretary that forwards, and only to one that waits. -/
theorem Relays.forwards {type : ℤ} {v v' : Secretary T} {result : Msg → Msg}
    (h : Relays crew type s task v) (hsound : Sound s.tasks)
    (habides : Abides (programs crew) s) (hstep : (programs crew).Step s act s')
    (hhonest : Honest s act) (hcall : (programs crew).call (s.vars task) = some (v.call crew))
    (halive : ¬(s.tasks.status crew.serialServer = .unborn ∨
      s.tasks.status crew.serialServer = .ended))
    (hevolves : Evolves s act task (Secretary.Resumes crew result) v v') :
    Forwards crew s act task result v v' := by
  rcases hevolves with ⟨rfl, hnone⟩ | ⟨answer, hanswered, hresumes⟩
  · exact .still hnone
  cases hresumes with
  | again nameserverTid' request' hstage hother => exact .again _ _ hstage
  | registered hstage => exact .registered hstage
  | @took sender _ _ req hstage =>
      exact .took sender req hstage (not_held_of_took hsound hanswered _)
  | @replied _ _ sender req hstage =>
      cases hanswered with
      | replied hop hstatus =>
          refine .replied sender req hstage ?_ hop
          have hwithin := habides task _ hcall
          rw [Within, hstatus, Secretary.call, hstage] at hwithin
          rw [← hhonest task hop hstatus]
          simpa using hwithin
  | unsent res hstage =>
      have hsend : (v.call crew).op = .send crew.serialServer := by rw [Secretary.call, hstage]
      have hmade : task = s.tasks.running → act.op.Called → act.op = .send crew.serialServer := by
        rintro rfl hcalled
        rw [hstep.call hcalled _ hcall, hsend]
      cases hanswered with
      | unsent hrunning hop hstatus =>
          have heq := hop.symm.trans (hmade hrunning (by simp [hop, Op.Called]))
          rw [Op.send.injEq] at heq
          exact absurd (heq ▸ hstatus) halive
      | refused hrunning hop =>
          have heq := hop.symm.trans (hmade hrunning (by simp [hop, Op.Called]))
          simp at heq
  | @answered _ sender res hstage => exact .answered sender res hstage
  | refused hstage => exact absurd hanswered (h.not_refused habides hstep hcall hstage)

/-- A secretary that awaits the reply of the server forwards a request. -/
theorem Relays.exists_forwarding {type : ℤ} {v : Secretary T} (h : Relays crew type s task v)
    (habides : Abides (programs crew) s)
    (hcall : (programs crew).call (s.vars task) = some (v.call crew))
    (hheld : Held s task crew.serialServer) : ∃ sender req, v.stage = .forwarding sender req := by
  obtain ⟨hawaits, htaker⟩ := hheld
  have hwithin := habides task _ hcall
  rw [Within, hawaits, htaker, Secretary.call] at hwithin
  cases hstage : v.stage with
  | registering nameserverTid request =>
      -- the name server is another task
      have hother := h.outside hstage
      have hserver : crew.serialServer = nameserverTid := by simpa [hstage] using hwithin
      exact absurd (mem_tids_iff.mpr (.inl hserver.symm)) hother
  | forwarding sender req => exact ⟨sender, req, rfl⟩
  | receiving => simp [hstage] at hwithin
  | replying sender res => simp [hstage] at hwithin

omit [DecidableEq T] [DecidableEq E] in
/-- The reply of the server is passed on. -/
theorem Forwards.replying_of_reply {v v' : Secretary T} {result : Msg → Msg} {client : T}
    {req : SerialRequest} {answer : Answer T Msg} (h : Forwards crew s act task result v v')
    (hstage : v.stage = .forwarding client req) (hanswered : Answered s act task answer) :
    v' = { v with stage := .replying client (result act.msg) } := by
  cases h with
  | still hnone => exact absurd hanswered (hnone _)
  | replied sender req' hstage' =>
      rw [hstage, Stage.forwarding.injEq] at hstage'
      rw [hstage'.1]
  | again _ _ hstage' => simp [hstage] at hstage'
  | registered hstage' => simp [hstage] at hstage'
  | took _ _ hstage' => simp [hstage] at hstage'
  | answered _ _ hstage' => simp [hstage] at hstage'

/-! ## A step of all tasks -/

theorem Kept.permitted_step (h : Kept crew tbuffer rbuffer s c)
    (hstep : (programs crew).Step s act s') (hpolite : Polite crew s act) {receiver : T}
    (hsender : sender ∉ crew.tids) (hsends : s'.tasks.status sender = .sending receiver) :
    Permits crew receiver (s'.message sender) := by
  rcases hstep.sending_cases h.sound hsends with ⟨hstatus, hmessage⟩ | ⟨rfl, hop, hmessage⟩
  · rw [hmessage]
    exact h.permitted hsender hstatus
  · rw [hmessage]
    exact (hpolite hsender).1 receiver hop

/-- The requests that the server takes come from tasks to which it owes no reply. -/
theorem Kept.not_owes_of_took (h : Kept crew tbuffer rbuffer s c) {peer : Peer}
    (htook : Answered s act crew.serialServer (.took (peer.tid crew) msg)) :
    ¬c.server.Owes peer := by
  intro howes
  exact not_held_of_sends h.sound (sends_of_took h.sound htook) _ (h.owed.mpr ⟨peer, rfl, howes⟩)

theorem Kept.receiveBuffer_bytes (h : Kept crew tbuffer rbuffer s c) :
    c.server.run.server.receiveBuffer.Bytes := by
  rw [← h.heard]
  exact h.mailbox.bytes

theorem Kept.owed_step (h : Kept crew tbuffer rbuffer s c)
    (hstep : (programs crew).Step s act s') (hhonest : Honest s act) {server : Server}
    (hserves : Serves crew s act c server) :
    Held s' sender crew.serialServer ↔
      ∃ peer : Peer, sender = peer.tid crew ∧ server.Owes peer := by
  cases hserves with
  | still hnone =>
      rw [hstep.held_idle h.sound hhonest (fun _ _ => hnone _)
        (not_reply_of_not_answered hnone)]
      exact h.owed
  | took peer req regs htook hpending htype =>
      rw [hstep.held_took h.sound htook, h.owed]
      simp only [Server.owes_took hpending h.flow h.mailbox h.heard, htype,
        type_injective.eq_iff]
      constructor
      · rintro (rfl | ⟨other, rfl, howes⟩)
        · exact ⟨peer, rfl, .inl rfl⟩
        · exact ⟨other, rfl, .inr howes⟩
      · rintro ⟨other, rfl, rfl | howes⟩
        · exact .inl rfl
        · exact .inr ⟨other, rfl, howes⟩
  | replied output rest peer hrunning hcall hpending hpeer hop =>
      rw [hstep.held_reply h.sound hop, h.owed]
      simp only [h.poised.owes_replied hpending, hpeer, ne_eq, Option.some.injEq]
      constructor
      · rintro ⟨⟨other, rfl, howes⟩, hne⟩
        exact ⟨other, rfl, howes, fun heq => hne (heq ▸ rfl)⟩
      · rintro ⟨other, rfl, howes, hne⟩
        exact ⟨⟨other, rfl, howes⟩, fun heq => hne (Peer.tid_injective crew heq).symm⟩

theorem Kept.client_step (h : Kept crew tbuffer rbuffer s c)
    (hstep : (programs crew).Step s act s') (hhonest : Honest s act)
    (hchanges : Changes crew s act c c') :
    Held s' sender crew.notifier ↔ c'.notifier.client = some sender := by
  have hcall := h.plays.call.2.2.1
  have hclient := @Kept.client _ _ _ _ _ _ _ _ _ h sender
  rcases hchanges.notifier with ⟨hsame, hnone⟩ | ⟨answer, hanswered, hresumes⟩
  · rw [hstep.held_idle h.sound hhonest (fun _ _ => hnone _) (not_reply_of_not_answered hnone),
      hsame]
    exact hclient
  generalize c.notifier = v at hcall hclient hresumes
  generalize c'.notifier = v' at hresumes
  cases hresumes with
  | took courier msg =>
      rw [hstep.held_took h.sound hanswered, hclient]
      simp [Notifier.client, eq_comm]
  | woken courier =>
      rw [hstep.held_idle h.sound hhonest
        (h.abides.not_took hstep hcall (by simp [Notifier.call]))
        (hstep.not_reply hcall (by simp [Notifier.call])), hclient]
      rfl
  | replied _ courier =>
      obtain ⟨_, rfl⟩ := h.abides.reply_answered hstep hcall rfl hanswered
      rw [hstep.held_reply h.sound rfl, hclient]
      simp [Notifier.client, eq_comm]

theorem Server.reception_took (v : Server) (tbuffer rbuffer : ℕ → Byte) (req : SerialRequest)
    (regs : Uart) :
    ({ v with run := v.run.handle ⟨req, regs⟩ }.proceed
      (v.run.server.serve regs req).1).reception tbuffer rbuffer =
        (v.reception tbuffer rbuffer).handle ⟨req, regs⟩ := by
  simp [Server.reception, Server.proceed, Run.handle]

/-- The server keeps its buffers, and replies to nobody twice. -/
theorem Kept.server_step (h : Kept crew tbuffer rbuffer s c) {server : Server}
    (hserves : Serves crew s act c server) :
    server.Poised ∧ Flow server.run ∧ Mailbox (server.reception tbuffer rbuffer) ∧
      (server.reception tbuffer rbuffer).run = server.run := by
  cases hserves with
  | still => exact ⟨h.poised, h.flow, h.mailbox, h.heard⟩
  | took peer req regs htook hpending htype =>
      have hfree := h.not_owes_of_took htook
      rw [Server.owes_of_idle hpending, Bool.not_eq_true] at hfree
      have htakes : Takes c.server.run ⟨req, regs⟩ := by
        intro htransmit
        obtain rfl : peer = .transmitSecretary := type_injective (htype.symm.trans htransmit)
        exact hfree
      have hasks : Asks (c.server.reception tbuffer rbuffer) ⟨req, regs⟩ := by
        intro hreceive
        obtain rfl : peer = .receiveSecretary := type_injective (htype.symm.trans hreceive)
        rw [h.heard]
        exact hfree
      rw [Server.reception_took]
      refine ⟨h.poised.took hpending h.receiveBuffer_bytes, h.flow.step htakes,
        h.mailbox.step hasks, ?_⟩
      rw [Reception.handle, h.heard]
      rfl
  | replied output rest peer hrunning hcall hpending =>
      exact ⟨h.poised.replied_rest hpending, h.flow, h.mailbox, h.heard⟩

/-- A secretary that the server serves is at its `Send`. -/
theorem Kept.not_answered_of_took (h : Kept crew tbuffer rbuffer s c) {answer : Answer T Msg}
    (htook : Answered s act crew.serialServer (.took sender msg))
    (htask : task = crew.transmitSecretary ∨ task = crew.receiveSecretary) :
    ¬Answered s act task answer := by
  intro hanswered
  have heq := htook.eq_of_took h.sound hanswered
  have hdistinct := crew.distinct
  simp only [List.nodup_cons, List.mem_cons, not_or] at hdistinct
  subst heq
  tauto

/-- A task to which the server replies next waits for that. -/
theorem Kept.held_of_pending (h : Kept crew tbuffer rbuffer s c) {peer : Peer}
    {output : Output} {rest : List Output} (hpending : c.server.pending = output :: rest)
    (hpeer : output.peer = some peer) : Held s (peer.tid crew) crew.serialServer :=
  h.owed.mpr ⟨peer, rfl, Server.owes_of_pending hpending hpeer⟩

omit [DecidableEq T] [DecidableEq E] in
/-- When the server replies, nobody else but the task that it replies to is answered. -/
theorem not_answered_of_reply {client : T} {answer : Answer T Msg}
    (hop : act.op = .reply client) (hrunning : task ≠ s.tasks.running) (hclient : task ≠ client) :
    ¬Answered s act task answer := by
  intro hanswered
  cases hanswered <;> simp_all

/-- The byte that a secretary takes is carried until the server takes it. -/
theorem Kept.puts_step (h : Kept crew tbuffer rbuffer s c)
    (hserves : Serves crew s act c c'.server) (hchanges : Changes crew s act c c')
    (hforwards : Forwards crew s act crew.transmitSecretary (fun _ => .null) c.transmit
      c'.transmit) :
    c'.transmit.taken.map (fun entry => entry.2.data) =
      requested c'.server.run.history ++ c'.carried := by
  have hputs := h.puts
  have howed := @Kept.owed _ _ _ _ _ _ _ _ _ h crew.transmitSecretary
  rw [Cast.carried] at hputs ⊢
  generalize c'.server = server at hserves ⊢
  cases hserves with
  | still hnone =>
      generalize c'.transmit = v' at hforwards ⊢
      cases hforwards with
      | still => exact hputs
      | again _ _ hstage =>
          rw [hstage] at hputs
          exact hputs
      | registered hstage =>
          rw [hstage] at hputs
          exact hputs
      | took sender req hstage hfree =>
          have howes : ¬c.server.Owes .transmitSecretary := fun howes =>
            hfree (howed.mpr ⟨.transmitSecretary, rfl, howes⟩)
          rw [hstage] at hputs
          simp [hputs, howes]
      | replied sender req hstage hrunning hop =>
          exact absurd hop (not_reply_of_not_answered hnone hrunning.symm _)
      | answered sender res hstage =>
          rw [hstage] at hputs
          exact hputs
  | took peer req regs htook hpending htype htransmit =>
      have hsame := hchanges.transmit.eq_of_not_answered fun _ =>
        h.not_answered_of_took htook (.inl rfl)
      have hfree := h.not_owes_of_took htook
      rw [hsame, hputs]
      simp only [Server.owes_took hpending h.flow h.mailbox h.heard]
      rw [Server.proceed, requested_handle, List.append_assoc]
      by_cases hpeer : peer = .transmitSecretary
      · subst hpeer
        obtain ⟨client, hstage⟩ := htransmit rfl
        simp [hstage, hfree, show req.type = ssTransmit from htype, Peer.type]
      · have hne : req.type ≠ ssTransmit := fun heq =>
          hpeer (type_injective (htype.symm.trans heq))
        simp [hne, Peer.type]
  | replied output rest peer hrunning hcall hpending hpeer hop =>
      simp only [h.poised.owes_replied hpending, hpeer]
      by_cases htransmit : peer = .transmitSecretary
      · subst htransmit
        have hheld := h.held_of_pending hpending hpeer
        obtain ⟨client, req, hstage⟩ :=
          h.transmit.exists_forwarding h.abides h.plays.call.2.2.2.1 hheld
        rw [hforwards.replying_of_reply hstage (.replied hop hheld.1)]
        rw [hstage] at hputs
        simpa [Server.proceed, Server.owes_of_pending hpending hpeer] using hputs
      · have hne : crew.transmitSecretary ≠ peer.tid crew := fun heq =>
          htransmit (Peer.tid_injective crew heq.symm)
        have hsame := hchanges.transmit.eq_of_not_answered fun _ =>
          not_answered_of_reply hop (hrunning ▸ crew.transmitSecretary_ne) hne
        simpa [Server.proceed, hsame, htransmit] using hputs

/-- The receive secretary passes on the bytes that the server replies. -/
theorem Kept.gets_step (h : Kept crew tbuffer rbuffer s c)
    (hserves : Serves crew s act c c'.server) (hchanges : Changes crew s act c c')
    (hforwards : Forwards crew s act crew.receiveSecretary id c.receive c'.receive) :
    c'.receive.answered.map Prod.snd ++ c'.receive.inHand ++
      (replies c'.server.pending).map .char =
        (repliedBytes c'.server.run.history).map .char := by
  have hgets := h.gets
  rw [Secretary.inHand] at hgets ⊢
  generalize c'.server = server at hserves ⊢
  cases hserves with
  | still hnone =>
      generalize c'.receive = v' at hforwards ⊢
      cases hforwards with
      | still => exact hgets
      | again _ _ hstage =>
          rw [hstage] at hgets
          exact hgets
      | registered hstage =>
          rw [hstage] at hgets
          exact hgets
      | took sender req hstage =>
          rw [hstage] at hgets
          exact hgets
      | replied sender req hstage hrunning hop =>
          exact absurd hop (not_reply_of_not_answered hnone hrunning.symm _)
      | answered sender res hstage =>
          rw [hstage] at hgets
          simpa using hgets
  | took peer req regs htook hpending =>
      have hsame := hchanges.receive.eq_of_not_answered fun _ =>
        h.not_answered_of_took htook (.inr rfl)
      rw [hpending] at hgets
      rw [hsame, Server.proceed, replies_settle, repliedBytes_handle, List.map_append, ← hgets]
      simp [replies]
  | replied output rest peer hrunning hcall hpending hpeer hop =>
      rw [Server.proceed, replies_settle]
      rw [hpending] at hgets
      by_cases hreceive : peer = .receiveSecretary
      · subst hreceive
        have hheld := h.held_of_pending hpending hpeer
        obtain ⟨client, req, hstage⟩ :=
          h.receive.exists_forwarding h.abides h.plays.call.2.2.2.2 hheld
        obtain ⟨recv, rfl⟩ := exists_recv_of_peer hpeer
        have hmsg : act.msg = .char recv := by rw [hcall, Server.call, hpending]
        rw [hforwards.replying_of_reply hstage (.replied hop hheld.1), hmsg]
        rw [hstage] at hgets
        simpa [replies, Output.reply] using hgets
      · have hne : crew.receiveSecretary ≠ peer.tid crew := fun heq =>
          hreceive (Peer.tid_injective crew heq.symm)
        have hsame := hchanges.receive.eq_of_not_answered fun _ =>
          not_answered_of_reply hop (hrunning ▸ crew.receiveSecretary_ne) hne
        have hnone : output.reply = none := by
          cases output <;> first | rfl | exact absurd (Option.some.inj hpeer).symm hreceive
        rw [replies, List.filterMap_cons_none hnone] at hgets
        rw [hsame]
        exact hgets

omit [DecidableEq T] [DecidableEq E] in
/-- No task of the UART exits. -/
theorem call_ne_exit (crew : Crew T E) {station : Station T} {call : Act T E Msg}
    (hcall : (programs crew).call station = some call) : call.op ≠ .exit := by
  cases station with
  | serialServer v =>
      cases hcall
      rw [Server.call]
      split <;> simp
  | courier v =>
      cases hcall
      cases v <;> simp [Courier.call]
  | notifier v =>
      cases hcall
      cases v <;> simp [Notifier.call]
  | transmitSecretary v =>
      cases hcall
      rw [Secretary.call]
      split <;> simp
  | receiveSecretary v =>
      cases hcall
      rw [Secretary.call]
      split <;> simp
  | other => cases hcall

/-- The tasks of a UART keep together. -/
theorem Kept.step (h : Kept crew tbuffer rbuffer s c) (hstep : (programs crew).Step s act s')
    (hpolite : Polite crew s act) : ∃ c', Kept crew tbuffer rbuffer s' c' := by
  obtain ⟨c', hplays, hchanges⟩ := h.plays.step hstep
  obtain ⟨hserver, _, _, htransmit, hreceive⟩ := h.plays.call
  have hhonest := h.honest hstep hpolite
  have halive := (h.abides _ _ hserver).alive
  have hserves := h.serves hstep hpolite hchanges
  obtain ⟨hpoised, hflow, hmailbox, hheard⟩ := h.server_step hserves
  have hputs := h.transmit.forwards h.sound h.abides hstep hhonest htransmit halive
    hchanges.transmit
  have hgets := h.receive.forwards h.sound h.abides hstep hhonest hreceive halive
    hchanges.receive
  refine ⟨c', ⟨h.sound.step hstep.tasks,
    h.abides.step h.sound hstep fun _ _ => call_ne_exit crew, hplays,
    h.permitted_step hstep hpolite, h.owed_step hstep hhonest hserves,
    h.client_step hstep hhonest hchanges, ?_, ?_, hpoised, hflow, hmailbox, hheard,
    h.puts_step hserves hchanges hputs, h.gets_step hserves hchanges hgets⟩⟩
  · refine h.transmit.step h.sound h.abides hstep hhonest htransmit (fun sender msg htook => ?_)
      hchanges.transmit
    obtain ⟨ch, rfl⟩ := (h.permits_secretary hstep hpolite (.inl rfl) htook).2.1 rfl
    exact ⟨_, rfl, rfl⟩
  · refine h.receive.step h.sound h.abides hstep hhonest hreceive (fun sender msg htook => ?_)
      hchanges.receive
    obtain rfl := (h.permits_secretary hstep hpolite (.inr rfl) htook).2.2 rfl
    exact ⟨_, rfl, rfl⟩

end Kept

end Rtk.SerialServer
