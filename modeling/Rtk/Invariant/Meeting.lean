import Rtk.Invariant.Rounds

/-!
# Meetings

A `Send` and the `Receive` that takes its message, and the rounds of other tasks before and
between the two calls.
-/

namespace Rtk.Kernel

open Rtk.ByteMemory
open Rtk.Lib
open Rtk.Transition

/-- A `Send` and the `Receive` that takes its message. -/
structure Meeting where
  sender : ℤ
  receiver : ℤ
  msg : ℕ
  msglen : Word
  reply : ℕ
  replylen : Word
  putTid : ℕ
  buffer : ℕ
  size : Word

namespace Meeting

def send (m : Meeting) : Call := .send m.receiver m.msg m.msglen m.reply m.replylen

def receive (m : Meeting) : Call := .receive m.putTid m.buffer m.size

/-- What the node of the sender holds until the `Reply`. -/
def node (m : Meeting) : MsgQueueNode where
  fromTid := m.sender
  toTid := m.receiver
  putTid := m.putTid
  msgBuffer := m.msg
  msgBufferSize := m.msglen
  replyBuffer := m.reply
  replyBufferSize := m.replylen
  receiveBuffer := m.buffer
  receiveBufferSize := m.size

def Copies (m : Meeting) : Prop := m.buffer ≠ nullAddress ∧ m.msg ≠ nullAddress

instance (m : Meeting) : Decidable m.Copies := inferInstanceAs (Decidable (_ ∧ _))

def length (m : Meeting) : ℕ := Min.min m.size.toNat m.msglen.toNat

/-- Memory with the tid of the sender and the truncated message in the buffers of the
receiver. -/
def delivered (m : Meeting) (memory : Memory) : Memory :=
  if m.Copies then
    memcpy (storeWord memory m.putTid (BitVec.ofInt 32 m.sender)) m.buffer m.msg m.length
  else storeWord memory m.putTid (BitVec.ofInt 32 m.sender)

/-- The address holds a byte of the sender's tid or of the truncated message. -/
def Fills (m : Meeting) (address : ℕ) : Prop :=
  InRange m.putTid 4 address ∨ m.Copies ∧ InRange m.buffer m.length address

/-- An interrupt, or a call of another task that sends the receiver no message. -/
def Leaves (m : Meeting) (s : State) : Action → Prop
  | .interrupt _ _ => True
  | .call (.destroy _) _ => False
  | .call (.send tid _ _ _ _) _ =>
      getCurrentTid s ≠ m.sender ∧ getCurrentTid s ≠ m.receiver ∧ tid ≠ m.receiver
  | .call _ _ => getCurrentTid s ≠ m.sender ∧ getCurrentTid s ≠ m.receiver

/-- Two tasks neither of which is blocked, and no message waits for the receiver. -/
structure Starts (m : Meeting) (s : State) : Prop where
  reachable : Reachable kernel NoDestroy s
  distinct : m.sender ≠ m.receiver
  senderAlive : isTaskAlive s m.sender
  receiverAlive : isTaskAlive s m.receiver
  senderRuns : (s.task (slot m.sender)).state.Running
  receiverRuns : (s.task (slot m.receiver)).state.Running
  empty : Contents s.msgQueues (slot m.receiver) []
  msglen_nonneg : 0 ≤ m.msglen.toInt
  size_nonneg : 0 ≤ m.size.toInt

end Meeting

/-- From `s` on one task makes a call and then another one its own, while the other tasks
leave the meeting alone. -/
structure Calls (m : Meeting) (s : State) (caller : ℤ) (call : Call) (caller' : ℤ)
    (call' : Call) where
  first : State
  trap : Trap
  next : State
  last : State
  trap' : Trap
  fuel : ℕ
  final : State
  before : Path kernel m.Leaves s first
  runs : getCurrentTid first = caller
  step : Step first (.call call trap) next
  between : Path kernel m.Leaves next last
  runs' : getCurrentTid last = caller'
  entry : svcEntry last fuel call' trap' = some final

namespace Meeting

abbrev SendFirst (m : Meeting) (s : State) : Type :=
  Calls m s m.sender m.send m.receiver m.receive

abbrev ReceiveFirst (m : Meeting) (s : State) : Type :=
  Calls m s m.receiver m.receive m.sender m.send

/-- The two orders leave the same: the sender waits for its reply and the receiver can run,
has got the tid and the truncated message, and has the length of the message as its result;
no other task was blocked or unblocked. -/
structure Agrees (m : Meeting) {s : State} (p : m.SendFirst s) (q : m.ReceiveFirst s) :
    Prop where
  sender : (p.final.task (slot m.sender)).state = .replyBlocked ∧
    (q.final.task (slot m.sender)).state = .replyBlocked
  receiver : (p.final.task (slot m.receiver)).state = .ready ∧
    (q.final.task (slot m.receiver)).state = .ready
  empty : Contents p.final.msgQueues (slot m.receiver) [] ∧
    Contents q.final.msgQueues (slot m.receiver) []
  buffers : ∀ address, m.Fills address →
    p.final.memory address = m.delivered p.trap'.memory address ∧
      q.final.memory address = m.delivered p.trap'.memory address
  result : loadWord p.final.memory p.trap'.sp = m.msglen ∧
    loadWord q.final.memory q.trap.sp = m.msglen
  recorded : p.final.node (slot m.sender) = m.node ∧ q.final.node (slot m.sender) = m.node
  others : ∀ index, index ≠ slot m.sender → index ≠ slot m.receiver →
    (Turns (p.first.task index).state (p.next.task index).state ∧
      (p.final.task index).state = (p.last.task index).state) ∧
    Turns (q.first.task index).state (q.next.task index).state ∧
      (q.final.task index).state = (q.last.task index).state

/-- The frames into which the calls return lie apart from each other and from the buffers
of the receiver. -/
structure Framed (m : Meeting) {s : State} (p : m.SendFirst s) (q : m.ReceiveFirst s) :
    Prop where
  receiver : ∀ address, m.Fills address →
    ¬InRange p.trap'.sp 4 address ∧ ¬InRange q.trap.sp 4 address
  sender : ∀ address, m.Fills address ∨ InRange q.trap.sp 4 address →
    ¬InRange q.trap'.sp 4 address

/-- The stack pointer that was saved at the receiver's last trap before its `Receive` is
not in its buffers, or what is stored there is what they get. -/
def Spares (m : Meeting) {s : State} (p : m.SendFirst s) : Prop :=
  ∀ address, m.Fills address →
    InRange (p.last.task (slot m.receiver)).sp 4 address →
      wordByte m.msglen (address - (p.last.task (slot m.receiver)).sp) =
        m.delivered p.trap'.memory address

end Meeting

/-! ## Rounds of the other tasks -/

/-- A task that makes no call keeps its node, its place, and its frame while it is blocked. -/
structure Rested (s s' : State) (index : ℤ) : Prop where
  tid : (s'.task index).tid = (s.task index).tid
  state : Turns (s.task index).state (s'.task index).state
  node : s'.node index = s.node index
  sp : ¬(s.task index).state.Running → (s'.task index).sp = (s.task index).sp

section Rested

variable {s s' s'' : State} {l : Layout} {m : Meeting} {action : Action} {index : ℤ}

theorem Rested.refl (s : State) (index : ℤ) : Rested s s index :=
  ⟨rfl, .refl _, rfl, fun _ => rfl⟩

theorem Turns.trans {state state' state'' : TaskState} (hleft : Turns state state')
    (hright : Turns state' state'') : Turns state state'' := by
  rcases hleft with rfl | ⟨hrunning, hrunning'⟩
  · exact hright
  · exact .inr ⟨hrunning, hright.running hrunning'⟩

theorem Turns.not_running {state state' : TaskState} (h : Turns state state')
    (hstate : ¬state.Running) : ¬state'.Running := by
  rw [h.eq_of_not_running hstate]
  exact hstate

theorem Rested.trans (hleft : Rested s s' index) (hright : Rested s' s'' index) :
    Rested s s'' index where
  tid := hright.tid.trans hleft.tid
  state := hleft.state.trans hright.state
  node := hright.node.trans hleft.node
  sp hstate := (hright.sp (hleft.state.not_running hstate)).trans (hleft.sp hstate)

/-- The task can run, or the action does not end what it waits for. -/
def Undisturbed (s : State) (l : Layout) (action : Action) (index : ℤ) : Prop :=
  (s.task index).state.Running ∨
    ((s.task index).state = .sendBlocked ∧
      ∀ n : MsgQueueNode, n.sendCall = action.call? → n.toTid ≠ (s.task index).tid) ∨
    (s.task index).state = .receiveBlocked ∧
      (action.call? ≠ none → index ∉ l.queues l.current)

theorem Undisturbed.task_eq {task : Task} (h : Undisturbed s l action index)
    (hmessages : Messages s l.queues) (hcurrent : s.current = l.current)
    (hmoved : Moved s index action task) : task = s.task index := by
  rcases h with hrunning | ⟨hstate, hsend⟩ | ⟨hstate, hqueue⟩
  · exact hmoved.eq_of_running hrunning
  · cases hmoved with
    | same => rfl
    | @received tid msg reply msglen replylen trap _ htid =>
        have hcall := hsend ⟨0, tid, 0, msg, msglen, reply, replylen, 0, 0⟩ rfl
        exact absurd htid.symm hcall
    | woken _ hblocked | created hblocked | taken hblocked | answered hblocked =>
        simp [hstate] at hblocked
  · cases hmoved with
    | same => rfl
    | taken _ hfirst =>
        rw [hcurrent, (hmessages.represents.contents _).first] at hfirst
        exact absurd (List.mem_of_head? hfirst) (hqueue (by simp [Action.call?]))
    | woken _ hblocked | created hblocked | received hblocked | answered hblocked =>
        simp [hstate] at hblocked

theorem Undisturbed.not_mem (h : Undisturbed s l action index) (hundestroyed : Undestroyed s l) :
    action.call? ≠ none → index ∉ l.queues l.current := by
  intro hcall hmem
  have hblocked := hundestroyed.state_of_mem hmem
  rcases h with hrunning | ⟨hsend, _⟩ | ⟨_, hqueue⟩
  · rw [hblocked] at hrunning
    simp [TaskState.Running] at hrunning
  · rw [hblocked] at hsend
    simp at hsend
  · exact hqueue hcall hmem

/-- A round leaves a task alone that makes no call and that it does not disturb. -/
theorem Undestroyed.rested (h : Undestroyed s l) (hno : NoDestroy s action)
    (hstep : Step s action s') (hother : action.call? ≠ none → index ≠ l.current)
    (hundisturbed : Undisturbed s l action index) : Rested s s' index := by
  obtain ⟨middle, hhandles, hresumed⟩ := h.exists_resumed hno hstep
  have htask := hundisturbed.task_eq h.messages h.dispatched.current_eq
    (h.moved hno hhandles hother)
  refine ⟨?_, ?_, h.node_eq hno hstep hother (hundisturbed.not_mem h), ?_⟩
  · rw [hresumed.quiet.keeps.tid, htask]
  · rw [← htask]
    exact hresumed.turns index
  · intro hstate
    have hne : index ≠ l.current := by
      rintro rfl
      rw [h.dispatched.running] at hstate
      exact hstate (.inr rfl)
    rw [hresumed.sp index hne, htask]

end Rested

/-! ## Runs of the other tasks -/

section Path

variable {s s' : State} {l : Layout} {m : Meeting} {action : Action} {tid : ℤ}
  {nodes : List ℤ}

theorem Meeting.Leaves.noDestroy (h : m.Leaves s action) : NoDestroy s action := by
  cases action with
  | interrupt intrCode trap => trivial
  | call call trap =>
      cases call with
      | destroy tid => exact h
      | _ => trivial

/-- The two tasks make no call. -/
theorem Meeting.Leaves.runs (h : m.Leaves s action) (hcall : action.call? ≠ none) :
    getCurrentTid s ≠ m.sender ∧ getCurrentTid s ≠ m.receiver := by
  cases action with
  | interrupt intrCode trap => simp [Action.call?] at hcall
  | call call trap =>
      cases call with
      | destroy tid => exact h.elim
      | send tid msg msglen reply replylen => exact ⟨h.1, h.2.1⟩
      | _ => exact h

theorem Meeting.Leaves.toTid_ne (h : m.Leaves s action) (n : MsgQueueNode)
    (hcall : n.sendCall = action.call?) : n.toTid ≠ m.receiver := by
  cases action with
  | interrupt intrCode trap => simp [MsgQueueNode.sendCall, Action.call?] at hcall
  | call call trap =>
      simp only [MsgQueueNode.sendCall, Action.call?, Option.some.injEq] at hcall
      subst hcall
      exact h.2.2

/-- The two tasks of a meeting, before and between their calls. -/
structure Meeting.Waits (m : Meeting) (s : State) (nodes : List ℤ) : Prop where
  reachable : Reachable kernel NoDestroy s
  sender : isTaskAlive s m.sender
  receiver : isTaskAlive s m.receiver
  contents : Contents s.msgQueues (slot m.receiver) nodes
  sends : (s.task (slot m.sender)).state.Running ∨
    (s.task (slot m.sender)).state = .receiveBlocked ∧ slot m.sender ∈ nodes
  receives : (s.task (slot m.receiver)).state.Running ∨
    (s.task (slot m.receiver)).state = .sendBlocked

theorem Rested.alive (h : Rested s s' (slot tid)) (halive : isTaskAlive s tid) :
    isTaskAlive s' tid := by
  apply alive_of_tid_eq halive h.tid
  rcases h.state with hsame | ⟨_, hrunning⟩
  · rw [hsame]
    exact (isTaskAlive_iff.mp halive).2.2.2
  · exact value_of_running hrunning

/-- A round of the other tasks leaves both where they are. -/
theorem Meeting.Waits.step (h : m.Waits s nodes) (hleaves : m.Leaves s action)
    (hstep : Step s action s') :
    m.Waits s' nodes ∧ Rested s s' (slot m.sender) ∧ Rested s s' (slot m.receiver) := by
  obtain ⟨l, hundestroyed⟩ := undestroyed_of_reachable h.reachable
  have hno := hleaves.noDestroy
  have hsenderTid := tid_of_alive h.sender
  have hreceiverTid := tid_of_alive h.receiver
  have hsender : action.call? ≠ none → slot m.sender ≠ l.current := fun hcall =>
    hundestroyed.ne_current h.sender (hleaves.runs hcall).1
  have hreceiver : action.call? ≠ none → slot m.receiver ≠ l.current := fun hcall =>
    hundestroyed.ne_current h.receiver (hleaves.runs hcall).2
  have hcontents := h.contents.unique (hundestroyed.messages.represents.contents _)
  have hsends : Rested s s' (slot m.sender) := by
    apply hundestroyed.rested hno hstep hsender
    rcases h.sends with hruns | ⟨hblocked, hmem⟩
    · exact .inl hruns
    · refine .inr (.inr ⟨hblocked, fun hcall hcurrent => hreceiver hcall ?_⟩)
      rw [hcontents] at hmem
      exact hundestroyed.messages.represents.disjoint hmem hcurrent
  have hreceives : Rested s s' (slot m.receiver) := by
    apply hundestroyed.rested hno hstep hreceiver
    rcases h.receives with hruns | hblocked
    · exact .inl hruns
    · refine .inr (.inl ⟨hblocked, fun n hcall => ?_⟩)
      rw [hreceiverTid]
      exact hleaves.toTid_ne n hcall
  refine ⟨⟨h.reachable.step hno hstep, hsends.alive h.sender, hreceives.alive h.receiver, ?_,
    ?_, ?_⟩, hsends, hreceives⟩
  · apply hundestroyed.contents_eq hno hstep hreceiver _ h.contents
    intro n hcall halive hslot
    apply hleaves.toTid_ne n hcall
    rw [← tid_of_alive halive, hslot, hreceiverTid]
  · rcases h.sends with hruns | ⟨hblocked, hmem⟩
    · exact .inl (hsends.state.running hruns)
    · refine .inr ⟨?_, hmem⟩
      rw [hsends.state.eq_of_not_running (by rw [hblocked]; decide), hblocked]
  · rcases h.receives with hruns | hblocked
    · exact .inl (hreceives.state.running hruns)
    · right
      rw [hreceives.state.eq_of_not_running (by rw [hblocked]; decide), hblocked]

/-- Rounds of the other tasks leave both where they are. -/
theorem Meeting.Waits.path (h : m.Waits s nodes) (hpath : Path kernel m.Leaves s s') :
    m.Waits s' nodes ∧ Rested s s' (slot m.sender) ∧ Rested s s' (slot m.receiver) := by
  have hstart : m.Waits s nodes ∧ Rested s s (slot m.sender) ∧
      Rested s s (slot m.receiver) := ⟨h, .refl s _, .refl s _⟩
  apply hpath.preserves _ hstart
  rintro middle action last ⟨hwaits, hsender, hreceiver⟩ hleaves hstep
  obtain ⟨hwaits', hsender', hreceiver'⟩ := hwaits.step hleaves hstep
  exact ⟨hwaits', hsender.trans hsender', hreceiver.trans hreceiver'⟩

end Path

end Rtk.Kernel
