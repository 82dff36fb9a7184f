import Rtk.Invariant.Waiting

/-!
# The calls of a run

What the tasks ask for is recorded from the arguments of their calls, beside the history
that the kernel keeps.  The two agree: the kernel notes a send exactly when one is
accepted, and a blocked task waits in the last call of its slot.
-/

namespace Rtk.Kernel

open Function
open Rtk.ByteMemory
open Rtk.Lib
open Rtk.Transition

/-- The sends that were accepted, in order, and the last call of each slot. -/
structure CallHistory where
  sends : List MsgQueueNode
  last : ℤ → Option Call

def CallHistory.empty : CallHistory := ⟨[], fun _ => none⟩

/-- The message that a call of the running task makes: that of a `Send` to a task that is
alive. -/
def acceptedSend (s : State) : Option Call → Option MsgQueueNode
  | some (.send tid msg msglen reply replylen) =>
      if isTaskAlive s tid then
        some ⟨getCurrentTid s, tid, nullAddress, msg, msglen, reply, replylen, nullAddress, 0⟩
      else none
  | _ => none

def CallHistory.record (calls : CallHistory) (s : State) (call : Option Call) : CallHistory where
  sends := calls.sends ++ (acceptedSend s call).toList
  last :=
    match call with
    | some made => update calls.last s.current (some made)
    | none => calls.last

def calling : System (State × CallHistory) Action :=
  kernel.recording (fun _ => .empty) fun s action _ calls => calls.record s action.call?

def CallHistory.sendsTo (calls : CallHistory) (tid : ℤ) : List MsgQueueNode :=
  calls.sends.filter fun message => message.toTid = tid

/-! ## Sends -/

def Event.sentMessage : Event → Option MsgQueueNode
  | .sent node => some node.message
  | _ => none

theorem sentMessage_quiet (event : Event) (hevent : ¬event.IsMessage) :
    event.sentMessage = none := by
  cases event <;> simp_all [Event.sentMessage, Event.IsMessage]

/-- The messages to a tid, among all that were sent. -/
theorem sentMessages_eq_filter (log : List Event) (tid : ℤ) :
    sentMessages log tid =
      (log.filterMap Event.sentMessage).filter fun message => message.toTid = tid := by
  rw [sentMessages, List.filter_filterMap]
  congr 1
  funext event
  cases event with
  | sent node =>
      by_cases htid : node.toTid = tid <;>
        simp [Event.sentTo, Event.sentMessage, Option.filter_some, htid]
  | _ => rfl

section Sent

variable {s s' : State} {l : Layout} {queues : Lists ℤ ℤ} {call : Option Call}

/-- The history from `s` to `s'` has the message of the call. -/
def SendsMade (s : State) (call : Option Call) (s' : State) : Prop :=
  s'.log.filterMap Event.sentMessage =
    s.log.filterMap Event.sentMessage ++ (acceptedSend s call).toList

theorem filterMap_of_quiet (hlog : ∃ events, s'.log = s.log ++ events ∧
    ∀ event ∈ events, ¬event.IsMessage) :
    s'.log.filterMap Event.sentMessage = s.log.filterMap Event.sentMessage := by
  obtain ⟨events, hlog, hquiet⟩ := hlog
  rw [hlog, filterMap_quiet sentMessage_quiet hquiet]

theorem Completed.sentMessages_eq {c tid head : ℤ} (hdone : Completed s c tid head s') :
    s'.log.filterMap Event.sentMessage = s.log.filterMap Event.sentMessage := by
  obtain ⟨events, hlog, hquiet⟩ := hdone.log
  rw [hlog, List.append_cons, filterMap_quiet sentMessage_quiet hquiet, List.filterMap_append]
  simp [Event.sentMessage]

/-- The message of an accepted `Send` is made of its arguments. -/
theorem Coherent.sendsMade_sendProxy (h : Coherent s l) {tid : ℤ}
    (hunlinked : isTaskAlive s tid → ∀ queue, l.current ∉ l.queues queue)
    (uninit : MsgQueueNode) (msg : ℕ) (msglen : Word) (reply : ℕ) (replylen : Word) :
    SendsMade s (some (.send tid msg msglen reply replylen))
      (sendProxy s uninit tid msg msglen reply replylen).2 := by
  rw [SendsMade, acceptedSend, h.dispatched.getCurrentTid_eq]
  by_cases halive : isTaskAlive s tid
  · obtain ⟨n, hn⟩ : ∃ n, n =
        sendNode uninit (s.task l.current).tid tid msg msglen reply replylen := ⟨_, rfl⟩
    have hsends : Sends s l n := by
      rw [hn]
      exact ⟨rfl, halive, hunlinked halive⟩
    have hqueued : (s.log ++ [Event.sent n]).filterMap Event.sentMessage =
        s.log.filterMap Event.sentMessage ++ [⟨(s.task l.current).tid, tid, nullAddress,
          msg, msglen, reply, replylen, nullAddress, 0⟩] := by
      rw [List.filterMap_append, hn]
      rfl
    rw [if_pos halive, h.dispatched.sendProxy_eq halive]
    split_ifs with hwaits
    · have hto : n.toTid = tid := by rw [hn]; rfl
      rw [← hto] at hwaits
      have hdone := h.completed_handOver hsends hwaits
      rw [hn] at hdone
      refine (hdone.sentMessages_eq).trans ?_
      rw [hn] at hqueued
      exact hqueued
    · rw [hn] at hqueued
      exact hqueued
  · rw [if_neg halive, sendProxy_of_not_alive halive]
    exact (List.append_nil _).symm

/-- The other calls send nothing. -/
theorem Effect.sendsMade (heffect : Effect s l call queues s')
    (hsend : ∀ tid msg msglen reply replylen,
      call ≠ some (.send tid msg msglen reply replylen)) : SendsMade s call s' := by
  have hnone : acceptedSend s call = none := by
    rcases call with _ | made
    · rfl
    · cases made <;> first | rfl | exact absurd rfl (hsend _ _ _ _ _)
  rw [SendsMade, hnone, Option.toList_none, List.append_nil]
  cases heffect with
  | quiet hquiet hrunning => exact filterMap_of_quiet hquiet.quiet.log
  | create hqueue =>
      exact filterMap_of_quiet ⟨[.storedWord _ _], rfl, by simp [Event.IsMessage]⟩
  | @destroy _ parent _ _ hreaped =>
      have hlog := (Silent.useDescriptor s parent).log
      rw [← hreaped.untouched.log] at hlog
      exact filterMap_of_quiet hlog
  | send hsends hbusy => exact absurd rfl (hsend _ _ _ _ _)
  | handOver hsends hwaits hdone => exact absurd rfl (hsend _ _ _ _ _)
  | wait hempty hunlinked =>
      rw [waitingReceive, List.filterMap_append]
      simp [Event.sentMessage]
  | take hqueue hindex hlive hdone => exact hdone.sentMessages_eq

end Sent

/-! ## Every round -/

/-- The history and the blocked tasks agree with the calls that were made. -/
structure Recorded (s : State) (calls : CallHistory) : Prop where
  sends : s.log.filterMap Event.sentMessage = calls.sends
  last : ∀ {index made}, InTable index → pendingCall s index = some made →
    calls.last index = some made

section Rounds

variable {s s' : State} {l : Layout} {calls : CallHistory} {action : Action}

/-- What a round does to the calls, once its handler has had its effect. -/
theorem Recorded.finish (h : Recorded s calls) (hcoherent : Coherent s l) {trap : Trap}
    {call : Option Call} {queues : Lists ℤ ℤ} {middle : State}
    (hdestroy : ∀ tid, call ≠ some (.destroy tid))
    (heffect : Effect (entered s trap) l call queues middle)
    (hsent : SendsMade (entered s trap) call middle) (hquiet : Quiet middle s') :
    Recorded s' (calls.record s call) where
  sends := by
    have hsends : (calls.record s call).sends =
        calls.sends ++ (acceptedSend (entered s trap) call).toList := by
      cases call <;> rfl
    rw [filterMap_of_quiet hquiet.log, hsent, hsends, ← h.sends]
    rfl
  last := by
    intro index made hindex hpending
    have hentered := hcoherent.enter trap
    rcases heffect.pendingCall hentered hdestroy (hquiet.pendingCall hpending) with
      ⟨hne, hbefore⟩ | ⟨rfl, rfl⟩
    · have hkept := h.last hindex hbefore
      cases call with
      | none => exact hkept
      | some other =>
          rw [← hcoherent.dispatched.current_eq] at hne
          exact (update_of_ne hne _ _).trans hkept
    · rw [← hcoherent.dispatched.current_eq]
      exact update_self _ _ _

theorem Recorded.step (h : Recorded s calls) (hundestroyed : Undestroyed s l)
    (hno : NoDestroy s action) (hstep : Step s action s') :
    Recorded s' (calls.record s action.call?) := by
  have hcoherent := hundestroyed.toCoherent
  have hentered := hcoherent.enter action.trap
  cases action with
  | call made trap =>
      obtain ⟨fuel, result, middle, queues, hhandle, heffect, hsaves, hactivate⟩ :=
        hcoherent.round_call (hundestroyed.safe hno) hstep
      have hunlinked := (hundestroyed.addressed.quiet
        (silent_entered s trap).quiet).unlinked hentered
      have hsent : SendsMade (entered s trap) (some made) middle := by
        cases made with
        | send tid msg msglen reply replylen =>
            obtain rfl := eq_of_handle hhandle
            exact hentered.sendsMade_sendProxy (fun _ => hunlinked) _ _ _ _ _
        | _ => exact heffect.sendsMade (by simp)
      exact h.finish hcoherent (fun tid heq => hno.call tid heq) heffect hsent
        (heffect.finish hentered hsaves hactivate).1
  | interrupt intrCode trap =>
      obtain ⟨fuel, time, middle, _, heffect, hsaves, hactivate⟩ :=
        hcoherent.round_interrupt hstep
      exact h.finish hcoherent nofun heffect (heffect.sendsMade nofun)
        (heffect.finish hentered hsaves hactivate).1

end Rounds

/-- Without `Destroy` the kernel records the calls that were made. -/
theorem recorded_of_reachable {s : State} {calls : CallHistory}
    (hreachable : Reachable calling (fun p => NoDestroy p.1) (s, calls)) :
    (∃ l, Undestroyed s l) ∧ Recorded s calls := by
  apply @Reachable.recorded_invariant _ _ kernel NoDestroy _ _ _
    (fun s calls => (∃ l, Undestroyed s l) ∧ Recorded s calls) _ _ hreachable
  · intro s hbooted
    refine ⟨hbooted.undestroyed, ?_, ?_⟩
    · rw [← List.nil_append s.log, filterMap_quiet sentMessage_quiet hbooted.log_quiet]
      rfl
    · intro index made hindex hpending
      rw [pendingCall_of_not_exchanging] at hpending
      · simp at hpending
      · rcases hbooted.state_cases hindex with hstate | hstate | hstate <;> rw [hstate] <;>
          decide
  · rintro s action s' calls ⟨⟨l, h⟩, hrecorded⟩ hno hstep
    exact ⟨h.step hno hstep, hrecorded.step h hno hstep⟩

end Rtk.Kernel
