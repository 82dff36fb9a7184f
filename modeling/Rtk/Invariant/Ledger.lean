import Rtk.Invariant.Rounds

/-!
# The ledger of the sends

A ledger follows the `Send`s of a run: which ones were accepted and not replied to yet, and
which of those had their message taken.  The states of the senders say the same.
-/

namespace Rtk.Kernel

open Function
open Rtk.ByteMemory
open Rtk.Transition

/-- A `Send` that was accepted and not replied to yet: its reply buffer, the frame to
which its result is returned, and whether its message was taken. -/
structure Outstanding where
  reply : ℕ
  replylen : Word
  sp : ℕ
  taken : Bool
  deriving DecidableEq

/-- The `Send`s after an event of the history: `CompleteReceive` takes a message. -/
def recorded (outstanding : ℤ → Option Outstanding) : Event → ℤ → Option Outstanding
  | .taken _ node =>
      update outstanding node.fromTid
        ((outstanding node.fromTid).map fun send => { send with taken := true })
  | _ => outstanding

/-- The `Send`s once the running task makes a call: a `Send` to a task that is alive is
accepted, and a `Reply` to a task whose message was taken ends its `Send`. -/
def noted (s : State) (outstanding : ℤ → Option Outstanding) :
    Action → ℤ → Option Outstanding
  | .call (.send tid _ _ reply replylen) trap =>
      if isTaskAlive s tid then
        update outstanding (getCurrentTid s) (some ⟨reply, replylen, trap.sp, false⟩)
      else outstanding
  | .call (.reply tid _ _) _ =>
      if (outstanding tid).any Outstanding.taken then update outstanding tid none
      else outstanding
  | _ => outstanding

/-- The kernel with the outstanding `Send` of each tid. -/
structure Ledger where
  state : State
  outstanding : ℤ → Option Outstanding

/-- The runs of the kernel with their `Send`s. -/
def ledger : System Ledger Action where
  initial g := Booted g.state ∧ g.outstanding = fun _ => none
  step g action g' :=
    Step g.state action g'.state ∧
      ∃ events, g'.state.log = g.state.log ++ events ∧
        g'.outstanding = events.foldl recorded (noted g.state g.outstanding action)

def LedgerNoDestroy (g : Ledger) (action : Action) : Prop := NoDestroy g.state action

/-- The outstanding `Send` of a tid, read off the state. -/
def owed (s : State) (tid : ℤ) : Option Outstanding :=
  if isValidTid tid then
    match getTaskState s tid with
    | .receiveBlocked =>
        some ⟨(s.node (slot tid)).replyBuffer, (s.node (slot tid)).replyBufferSize,
          (s.task (slot tid)).sp, false⟩
    | .replyBlocked =>
        some ⟨(s.node (slot tid)).replyBuffer, (s.node (slot tid)).replyBufferSize,
          (s.task (slot tid)).sp, true⟩
    | _ => none
  else none

section Owed

variable {s s' : State} {tid : ℤ} {index : ℤ} {events : List Event}
  {outstanding : ℤ → Option Outstanding}

/-- The task waits for a receiver or for a reply. -/
def TaskState.Sending (state : TaskState) : Prop :=
  state = .receiveBlocked ∨ state = .replyBlocked

instance (state : TaskState) : Decidable state.Sending :=
  inferInstanceAs (Decidable (_ ∨ _))

theorem owed_of_not_valid (hvalid : ¬isValidTid tid) : owed s tid = none := by
  rw [owed, if_neg hvalid]

theorem owed_of_tid_ne (htid : (s.task (slot tid)).tid ≠ tid) : owed s tid = none := by
  rw [owed, getTaskState, if_pos htid]
  split_ifs <;> rfl

theorem owed_of_not_sending (hstate : ¬(s.task (slot tid)).state.Sending) :
    owed s tid = none := by
  by_cases htid : (s.task (slot tid)).tid = tid
  · rw [owed, getTaskState, if_neg (not_not.mpr htid)]
    split_ifs
    · cases hcase : (s.task (slot tid)).state <;> simp_all [TaskState.Sending]
    · rfl
  · exact owed_of_tid_ne htid

theorem owed_of_receiveBlocked (hvalid : isValidTid tid)
    (htid : (s.task (slot tid)).tid = tid)
    (hstate : (s.task (slot tid)).state = .receiveBlocked) :
    owed s tid = some ⟨(s.node (slot tid)).replyBuffer,
      (s.node (slot tid)).replyBufferSize, (s.task (slot tid)).sp, false⟩ := by
  rw [owed, if_pos hvalid, getTaskState, if_neg (not_not.mpr htid), hstate]

theorem owed_of_replyBlocked (hvalid : isValidTid tid)
    (htid : (s.task (slot tid)).tid = tid)
    (hstate : (s.task (slot tid)).state = .replyBlocked) :
    owed s tid = some ⟨(s.node (slot tid)).replyBuffer,
      (s.node (slot tid)).replyBufferSize, (s.task (slot tid)).sp, true⟩ := by
  rw [owed, if_pos hvalid, getTaskState, if_neg (not_not.mpr htid), hstate]

/-- What an outstanding `Send` says about the sender. -/
theorem owed_eq_some {send : Outstanding} (howed : owed s tid = some send) :
    isValidTid tid ∧ (s.task (slot tid)).tid = tid ∧
      (s.task (slot tid)).state =
        (if send.taken then .replyBlocked else .receiveBlocked) ∧
      send.reply = (s.node (slot tid)).replyBuffer ∧
      send.replylen = (s.node (slot tid)).replyBufferSize ∧
      send.sp = (s.task (slot tid)).sp := by
  have hvalid : isValidTid tid := by
    by_contra hnot
    rw [owed_of_not_valid hnot] at howed
    simp at howed
  have htid : (s.task (slot tid)).tid = tid := by
    by_contra hnot
    rw [owed_of_tid_ne hnot] at howed
    simp at howed
  have hsending : (s.task (slot tid)).state.Sending := by
    by_contra hnot
    rw [owed_of_not_sending hnot] at howed
    simp at howed
  rcases hsending with hstate | hstate
  · rw [owed_of_receiveBlocked hvalid htid hstate, Option.some.injEq] at howed
    subst send
    exact ⟨hvalid, htid, hstate, rfl, rfl, rfl⟩
  · rw [owed_of_replyBlocked hvalid htid hstate, Option.some.injEq] at howed
    subst send
    exact ⟨hvalid, htid, hstate, rfl, rfl, rfl⟩

/-- The tasks that can be answered are those whose message was taken. -/
theorem awaiting_iff_taken : Awaiting s tid ↔ (owed s tid).any Outstanding.taken := by
  rw [awaiting_iff]
  constructor
  · rintro ⟨hvalid, htid, hstate⟩
    rw [owed_of_replyBlocked hvalid htid hstate]
    rfl
  · intro htaken
    cases howed : owed s tid with
    | none => simp [howed] at htaken
    | some send =>
        rw [howed, Option.any_some] at htaken
        obtain ⟨hvalid, htid, hstate, _⟩ := owed_eq_some howed
        rw [if_pos htaken] at hstate
        exact ⟨hvalid, htid, hstate⟩

/-- What a `Send` leaves for the `Reply` is the same in both states. -/
structure Alike (s s' : State) (index : ℤ) : Prop where
  tid : (s'.task index).tid = (s.task index).tid
  state : (s'.task index).state = (s.task index).state
  sp : (s'.task index).sp = (s.task index).sp
  reply : (s'.node index).replyBuffer = (s.node index).replyBuffer
  replylen : (s'.node index).replyBufferSize = (s.node index).replyBufferSize

def InSameSend (s s' : State) (index : ℤ) : Prop :=
  Alike s s' index ∨ ¬(s.task index).state.Sending ∧ ¬(s'.task index).state.Sending

theorem Alike.of_task_eq (htask : s'.task index = s.task index)
    (hmessage : (s'.node index).message = (s.node index).message) : Alike s s' index where
  tid := by rw [htask]
  state := by rw [htask]
  sp := by rw [htask]
  reply := by
    have hreply := congrArg MsgQueueNode.replyBuffer hmessage
    exact hreply
  replylen := by
    have hreplylen := congrArg MsgQueueNode.replyBufferSize hmessage
    exact hreplylen

theorem InSameSend.trans {s'' : State} (hleft : InSameSend s s' index)
    (hright : InSameSend s' s'' index) : InSameSend s s'' index := by
  rcases hleft with hsame | ⟨hnot, hnot'⟩
  · rcases hright with hsame' | ⟨hnot', hnot''⟩
    · exact .inl ⟨hsame'.tid.trans hsame.tid, hsame'.state.trans hsame.state,
        hsame'.sp.trans hsame.sp, hsame'.reply.trans hsame.reply,
        hsame'.replylen.trans hsame.replylen⟩
    · rw [hsame.state] at hnot'
      exact .inr ⟨hnot', hnot''⟩
  · rcases hright with hsame' | ⟨_, hnot''⟩
    · right
      rw [hsame'.state]
      exact ⟨hnot, hnot'⟩
    · exact .inr ⟨hnot, hnot''⟩

theorem InSameSend.owed_eq (h : InSameSend s s' (slot tid)) : owed s' tid = owed s tid := by
  rcases h with hsame | ⟨hnot, hnot'⟩
  · rw [owed, owed, getTaskState, getTaskState, hsame.tid, hsame.state, hsame.sp, hsame.reply,
      hsame.replylen]
  · rw [owed_of_not_sending hnot, owed_of_not_sending hnot']

theorem InSameSend.of_entered {trap : Trap} (h : InSameSend (entered s trap) s' index) :
    InSameSend s s' index := by
  rcases h with hsame | hnot
  · exact .inl ⟨hsame.tid, hsame.state, hsame.sp, hsame.reply, hsame.replylen⟩
  · exact .inr hnot

theorem owed_eq_of_same (h : ∀ index, InSameSend s s' index) : owed s' = owed s := by
  funext tid
  exact (h (slot tid)).owed_eq

/-- When one task only enters, goes on in or leaves a `Send`, only its tid is concerned. -/
theorem owed_eq_update (h : ∀ other, other ≠ index → InSameSend s s' other)
    (htid : (s'.task index).tid = (s.task index).tid) :
    owed s' = update (owed s) (s.task index).tid (owed s' (s.task index).tid) := by
  funext tid
  by_cases hown : tid = (s.task index).tid
  · rw [hown, update_self]
  · rw [update_of_ne hown]
    by_cases hindex : slot tid = index
    · rw [owed_of_tid_ne, owed_of_tid_ne]
      · rw [hindex]
        exact Ne.symm hown
      · rw [hindex, htid]
        exact Ne.symm hown
    · exact (h _ hindex).owed_eq

theorem recorded_sent (n : MsgQueueNode) : recorded outstanding (.sent n) = outstanding := rfl

theorem recorded_quiet {event : Event} (hquiet : ¬event.IsMessage) :
    recorded outstanding event = outstanding := by
  cases event <;> simp_all [recorded, Event.IsMessage]

theorem foldl_recorded_quiet (hquiet : ∀ event ∈ events, ¬event.IsMessage) :
    events.foldl recorded outstanding = outstanding := by
  induction events with
  | nil => rfl
  | cons event events ih =>
      rw [List.forall_mem_cons] at hquiet
      rw [List.foldl_cons, recorded_quiet hquiet.1]
      exact ih hquiet.2

end Owed

section Resumed

variable {middle s' : State} {c : ℤ} {sp : ℕ}

/-- What follows a handler leaves every other task in its `Send`. -/
theorem Resumed.inSameSend (h : Resumed middle c sp s') {index : ℤ}
    (hindex : index = c → ¬(middle.task c).state.Sending) : InSameSend middle s' index := by
  by_cases hsending : (middle.task index).state.Sending
  · have hne : index ≠ c := by
      rintro rfl
      exact hindex rfl hsending
    have hrunning : ¬(middle.task index).state.Running := by
      rcases hsending with hstate | hstate <;> rw [hstate] <;> decide
    left
    exact ⟨h.quiet.keeps.tid index, (h.turns index).eq_of_not_running hrunning, h.sp index hne,
      by rw [h.quiet.node], by rw [h.quiet.node]⟩
  · right
    refine ⟨hsending, ?_⟩
    rcases h.turns index with hsame | ⟨_, hrunning⟩
    · rwa [hsame]
    · rcases hrunning with hstate | hstate <;> rw [hstate] <;> decide

end Resumed

end Rtk.Kernel
