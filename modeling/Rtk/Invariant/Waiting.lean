import Rtk.Invariant.Run
import Rtk.Invariant.Writes

/-!
# Tasks that wait

The node of a blocked task describes the call in which it waits.  It does so from
the call on until the task runs again, whatever the other tasks do.
-/

namespace Rtk.Kernel

open Function
open Rtk.ByteMemory
open Rtk.Lib

def MsgQueueNode.receiveCall (n : MsgQueueNode) : Call :=
  .receive n.putTid n.receiveBuffer n.receiveBufferSize

/-- The call in which a blocked task waits, as its node describes it. -/
def pendingCall (s : State) (index : ℤ) : Option Call :=
  match (s.task index).state with
  | .sendBlocked => some (s.node index).receiveCall
  | .receiveBlocked => (s.node index).sendCall
  | .replyBlocked => (s.node index).sendCall
  | _ => none

section Pending

variable {s s' : State} {l : Layout} {queues : Lists ℤ ℤ} {call : Option Call}
  {index : ℤ} {made : Call}

theorem pendingCall_congr (hstate : (s'.task index).state = (s.task index).state)
    (hnode : s'.node index = s.node index) :
    pendingCall s' index = pendingCall s index := by
  rw [pendingCall, hstate, hnode, pendingCall]

theorem pendingCall_of_not_exchanging (hstate : ¬(s.task index).state.Exchanging) :
    pendingCall s index = none := by
  rw [pendingCall]
  cases hcase : (s.task index).state <;> simp_all [TaskState.Exchanging]

/-- The pointers of a `Receive` do not show in the `Send` that a node describes. -/
theorem sendCall_of_message {n n' : MsgQueueNode} (hmessage : n.message = n'.message) :
    n.sendCall = n'.sendCall := by
  have hsame : n.message.sendCall = n'.message.sendCall := by rw [hmessage]
  exact hsame

theorem Quiet.pendingCall (h : Quiet s s') (hpending : pendingCall s' index = some made) :
    Kernel.pendingCall s index = some made := by
  rcases h.state index with hsame | ⟨_, hnot⟩
  · rw [← pendingCall_congr hsame (congrFun h.node index)]
    exact hpending
  · rw [pendingCall_of_not_exchanging hnot] at hpending
    simp at hpending

/-- The running task waits in no call. -/
theorem Coherent.ne_current_of_pending (h : Coherent s l)
    (hpending : pendingCall s index = some made) : index ≠ l.current := by
  rintro rfl
  rw [pendingCall, h.dispatched.running] at hpending
  simp at hpending

/-- After a rendezvous the sender waits in the call that its node describes, the
receiver in none, and the others as before. -/
theorem Completed.pendingCall {c tid head : ℤ} (hposted : Posted s queues)
    (hdone : Completed s c tid head s') (hmem : head ∈ queues (slot tid))
    (hlive : NotDestroyed s (s.node head).fromTid)
    (hreceiver : (s.task (slot tid)).state ≠ .receiveBlocked)
    (hpending : pendingCall s' index = some made) :
    Kernel.pendingCall s index = some made := by
  rcases hposted.completed_cases hmem hlive hreceiver hdone index with
    ⟨rfl, hblocked, hreply⟩ | ⟨rfl, hready⟩ | ⟨hsame, _⟩
  · rw [Kernel.pendingCall, hreply, hdone.node] at hpending
    rw [Kernel.pendingCall, hblocked]
    exact hpending
  · rw [pendingCall_of_not_exchanging (by rw [hready]; decide)] at hpending
    simp at hpending
  · rw [← pendingCall_congr (by rw [hsame]) (congrFun hdone.node index)]
    exact hpending

/-- The `Send` that is queued is the one in which the running task waits. -/
theorem pendingCall_queuedSend (n : MsgQueueNode) :
    Kernel.pendingCall (queuedSend s l.current n) l.current = n.sendCall := by
  simp [pendingCall, queuedSend]

theorem pendingCall_queuedSend_of_ne (n : MsgQueueNode) (hne : index ≠ l.current) :
    Kernel.pendingCall (queuedSend s l.current n) index = pendingCall s index := by
  apply pendingCall_congr
  · rw [(blocks_queuedSend s l.current n).others _ hne]
  · exact (blocks_queuedSend s l.current n).nodes _ hne

/-- The running task waits in the `Receive` whose pointers are in its node. -/
theorem pendingCall_waitingReceive (uninit : MsgQueueNode) (putTid msg : ℕ) (msglen : Word)
    (links : QueueNode ℤ) :
    Kernel.pendingCall (waitingReceive s l.current (uninit.withReceive putTid msg msglen) links)
      l.current = some (.receive putTid msg msglen) := by
  simp [pendingCall, waitingReceive, MsgQueueNode.withReceive, MsgQueueNode.receiveCall]

theorem pendingCall_waitingReceive_of_ne (n : MsgQueueNode) (links : QueueNode ℤ)
    (hne : index ≠ l.current) :
    Kernel.pendingCall (waitingReceive s l.current n links) index = pendingCall s index := by
  apply pendingCall_congr
  · rw [(blocks_waitingReceive s l.current n links).others _ hne]
  · exact (blocks_waitingReceive s l.current n links).nodes _ hne

/-- The pointers of a `Receive` go into the node of a task that waits in no other
`Receive`. -/
theorem pendingCall_withPointers {other : ℤ} (putTid msg : ℕ) (msglen : Word)
    (hwaits : (s.task other).state ≠ .sendBlocked) :
    pendingCall (withPointers s other putTid msg msglen) index = pendingCall s index := by
  have hmessage := (fields_withPointers s other putTid msg msglen index).2.2
  have hsend := sendCall_of_message hmessage
  by_cases hindex : index = other
  · subst index
    have hstate : ((withPointers s other putTid msg msglen).task other).state =
        (s.task other).state := rfl
    rw [pendingCall, pendingCall, hstate, hsend]
    cases hcase : (s.task other).state <;> simp_all
  · apply pendingCall_congr
    · rfl
    · exact update_of_ne hindex _ _

theorem pendingCall_created_of_ne {new : ℤ} (priority : Priority) (code : Word)
    (hindex : index ≠ new) :
    pendingCall (created s new priority code) index = pendingCall s index := by
  apply pendingCall_congr
  · rw [task_created_of_ne priority code hindex]
  · rfl

/-- A handler leaves a blocked task in its call, and the running task waits in none
but the one it makes. -/
theorem Effect.pendingCall (h : Coherent s l) (heffect : Effect s l call queues s')
    (hcall : ∀ tid, call ≠ some (.destroy tid))
    (hpending : pendingCall s' index = some made) :
    index ≠ l.current ∧ Kernel.pendingCall s index = some made ∨
      index = l.current ∧ call = some made := by
  have hold : Kernel.pendingCall s index = some made →
      index ≠ l.current ∧ Kernel.pendingCall s index = some made ∨
        index = l.current ∧ call = some made :=
    fun hbefore => .inl ⟨h.ne_current_of_pending hbefore, hbefore⟩
  cases heffect with
  | quiet hquiet hrunning => exact hold (hquiet.quiet.pendingCall hpending)
  | @create new _ _ priority code hqueue =>
      by_cases hindex : index = new
      · subst index
        rw [pendingCall_of_not_exchanging] at hpending
        · simp at hpending
        · rw [task_created_self]
          exact (by decide : ¬TaskState.ready.Exchanging)
      · rw [pendingCall_created_of_ne priority code hindex] at hpending
        exact hold hpending
  | destroy hreaped => exact absurd rfl (hcall _)
  | @send n hsends hbusy =>
      by_cases hindex : index = l.current
      · subst index
        rw [pendingCall_queuedSend] at hpending
        exact .inr ⟨rfl, hpending⟩
      · rw [pendingCall_queuedSend_of_ne n hindex] at hpending
        exact hold hpending
  | @handOver n _ hsends hwaits hdone =>
      have hposted := h.posted_handedOver hsends
      have hmem : l.current ∈ (l.queues.append (slot n.toTid) l.current) (slot n.toTid) := by
        rw [h.queue_handedOver hsends hwaits]
        exact List.mem_singleton_self _
      have hbefore := hdone.pendingCall hposted hmem (h.notDestroyed_handedOver hsends)
        (by
          rw [task_handedOver_of_ne n (h.ne_current hwaits), hwaits]
          decide) hpending
      rw [handedOver, pendingCall_withPointers _ _ _ (by simp [queuedSend])] at hbefore
      by_cases hindex : index = l.current
      · subst index
        rw [pendingCall_queuedSend] at hbefore
        exact .inr ⟨rfl, hbefore⟩
      · rw [pendingCall_queuedSend_of_ne n hindex] at hbefore
        exact hold hbefore
  | @wait uninit links putTid msg msglen hempty hunlinked =>
      by_cases hindex : index = l.current
      · subst index
        rw [pendingCall_waitingReceive] at hpending
        exact .inr ⟨rfl, hpending⟩
      · rw [pendingCall_waitingReceive_of_ne _ links hindex] at hpending
        exact hold hpending
  | @take head other rest putTid msg msglen _ hqueue hother hlive hdone =>
      have hslot := h.dispatched.slot_tid
      have hposted := h.messages.toPosted.withPointers other putTid msg msglen
      have hmem : head ∈ l.queues (slot (s.task l.current).tid) := by
        rw [hslot, hqueue]
        exact List.mem_cons_self
      have hbefore := hdone.pendingCall hposted hmem
        (by
          rw [(fields_withPointers s other putTid msg msglen head).1]
          exact hlive)
        (by
          rw [hslot]
          have hrunning : ((withPointers s other putTid msg msglen).task
              l.current).state = .active := h.dispatched.running
          rw [hrunning]
          decide) hpending
      rw [pendingCall_withPointers] at hbefore
      · exact hold hbefore
      · intro hwaits
        -- a linked node belongs to no waiting task
        rw [← hqueue] at hother
        have hindex := (h.messages.linked hother).index_inTable
        exact (h.messages.sendBlocked hindex hwaits).2.1 _ hother

end Pending

end Rtk.Kernel
