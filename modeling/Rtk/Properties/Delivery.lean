import Rtk.Properties.Calls

/-!
# Delivery of messages

In runs without `Destroy` every accepted message is taken once, by the task it
was sent to, in the order of the sends; and the node of a blocked task says what
it waits for.
-/

namespace Rtk.Kernel

open Function
open Rtk.ByteMemory
open Rtk.Lib
open Rtk.Lib.QueueHeap
open Rtk.Transition

/-! ## Order of delivery -/

/-- The senders of the messages sent to `tid`, in the order of the sends. -/
def sentSenders (log : List Event) (tid : ℤ) : List ℤ :=
  (sentMessages log tid).map MsgQueueNode.fromTid

def takenSenders (log : List Event) (tid : ℤ) : List ℤ :=
  (takenMessages log tid).map MsgQueueNode.fromTid

/-- All messages in the queue of a slot name its task. -/
theorem Addressed.pendingMessages_eq {s : State} {queues : Lists ℤ ℤ}
    (h : Addressed s queues) {tid : ℤ} (htid : (s.task (slot tid)).tid = tid) :
    pendingMessages s queues tid =
      (queues (slot tid)).map fun index => (s.node index).message := by
  rw [pendingMessages, List.filter_eq_self]
  intro message hmessage
  obtain ⟨index, hmem, rfl⟩ := List.mem_map.mp hmessage
  rw [decide_eq_true_eq, toTid_message, h.to_eq hmem, htid]

/-- The messages taken for a task are the first of those that the accepted sends to it are
made of, and the rest of them are the content of its queue. -/
theorem delivered_of_reachable {s : State} {calls : CallHistory}
    (hreachable : Reachable calling (fun p => NoDestroy p.1) (s, calls)) {index : ℤ}
    (hindex : InTable index) (halloc : Allocated s index) :
    ∃ nodes, Contents s.msgQueues index nodes ∧
      calls.sendsTo (s.task index).tid = sentMessages s.log (s.task index).tid ∧
      sentMessages s.log (s.task index).tid =
        takenMessages s.log (s.task index).tid ++
          nodes.map (fun node => (s.node node).message) ∧
      sentSenders s.log (s.task index).tid =
        takenSenders s.log (s.task index).tid ++
          nodes.map fun node => (s.node node).fromTid := by
  obtain ⟨⟨l, h⟩, hrecorded⟩ := recorded_of_reachable hreachable
  have hslot := h.dispatched.named.slot_tid hindex halloc
  have hmessages := h.delivered (s.task index).tid
  rw [h.addressed.pendingMessages_eq (by rw [hslot]), hslot] at hmessages
  refine ⟨l.queues index, h.messages.represents.contents index, ?_, hmessages, ?_⟩
  · rw [CallHistory.sendsTo, ← hrecorded.sends, sentMessages_eq_filter]
  rw [sentSenders, takenSenders, hmessages, List.map_append, List.map_map]
  rfl

/-- Two messages of the second task, of which the first is taken. -/
def sampleSends : List Action :=
  [.call (.create 3 0x9000) (sampleTrap 0x103f00),
    .call (.send 1 0x200 5 0x300 6) (sampleTrap 0x105f00),
    .call (.receive 0x400 0x500 9) (sampleTrap 0x103f00),
    .call (.reply 2 0x600 4) (sampleTrap 0x103f00),
    .call (.send 1 0x210 7 0x310 8) (sampleTrap 0x105f00)]

theorem delivered_sample :
    ∃ (s : State) (calls : CallHistory), sampleRun sampleSends = some s ∧
      takenSenders s.log 1 = [2] ∧ (calls.sendsTo 1).map MsgQueueNode.fromTid = [2, 2] ∧
      ∃ nodes, Contents s.msgQueues 1 nodes ∧
        [2, 2] = takenSenders s.log 1 ++ nodes.map fun node => (s.node node).fromTid := by
  have hobserved : (sampleRun sampleSends).map (fun s => ((s.task 1).tid,
      decide (Allocated s 1), takenSenders s.log 1, sentSenders s.log 1)) =
        some (1, true, [2], [2, 2]) := by decide +kernel
  obtain ⟨s, hrun, hvalues⟩ := Option.map_eq_some_iff.mp hobserved
  simp only [Prod.mk.injEq, decide_eq_true_eq] at hvalues
  obtain ⟨htid, halloc, htaken, hsent⟩ := hvalues
  have hbefore : Reachable kernel NoDestroy s := by
    apply reachable_of_rounds hrun
    simp [sampleSends, NoDestroy]
  obtain ⟨calls, hreachable⟩ := hbefore.recording (fun _ => CallHistory.empty)
    fun s action _ calls => calls.record s action.call?
  obtain ⟨nodes, hcontents, hcalls, _, hsenders⟩ :=
    delivered_of_reachable hreachable (by decide) halloc
  rw [htid] at hcalls hsenders
  have hmade : (calls.sendsTo 1).map MsgQueueNode.fromTid = [2, 2] := by
    rw [hcalls, ← sentSenders, hsent]
  rw [hsent] at hsenders
  exact ⟨s, calls, hrun, htaken, hmade, nodes, hcontents, hsenders⟩

/-! ## Nodes and states -/

/-- The states, nodes and message queues of the tasks agree, and with them the calls that
the tasks have made last. -/
structure NodesAgree (s : State) (calls : CallHistory) : Prop where
  receiveBlocked_iff : ∀ {index}, InTable index →
    ((s.task index).state = .receiveBlocked ↔ ∃ queue, InMsgQueue s queue index)
  receiveBlocked : ∀ {index}, InTable index →
    (s.task index).state = .receiveBlocked →
    (s.node index).fromTid = (s.task index).tid ∧
      (s.task (slot (s.node index).toTid)).tid = (s.node index).toTid ∧
      ∀ queue nodes, Contents s.msgQueues queue nodes →
        nodes.count index = if queue = slot (s.node index).toTid then 1 else 0
  sendBlocked : ∀ {index}, InTable index → (s.task index).state = .sendBlocked →
    Contents s.msgQueues index [] ∧
      calls.last index = some (.receive (s.node index).putTid (s.node index).receiveBuffer
        (s.node index).receiveBufferSize) ∧
      lastWaiting s.log (s.task index).tid =
        some ((s.node index).putTid, (s.node index).receiveBuffer,
          (s.node index).receiveBufferSize)
  replyBlocked : ∀ {index}, InTable index → (s.task index).state = .replyBlocked →
    (∀ queue, ¬InMsgQueue s queue index) ∧
      (s.node index).fromTid = (s.task index).tid ∧
      (∃ tid msg msglen, calls.last index = some (.send tid msg msglen
        (s.node index).replyBuffer (s.node index).replyBufferSize)) ∧
      ∃ sent, lastSent s.log (s.task index).tid = some sent ∧
        (s.node index).replyBuffer = sent.replyBuffer ∧
        (s.node index).replyBufferSize = sent.replyBufferSize

theorem Undestroyed.nodesAgree {s : State} {l : Layout} {calls : CallHistory}
    (h : Undestroyed s l) (hrecorded : Recorded s calls) : NodesAgree s calls where
  receiveBlocked_iff := by
    intro index hindex
    simp only [h.messages.inMsgQueue_iff]
    constructor
    · exact fun hstate => (h.messages.receiveBlocked hindex hstate).1
    · rintro ⟨queue, hmem⟩
      exact h.messages.state_of_linked hmem (h.occupied.sender hmem)
        (h.addressed.from_eq hmem)
  receiveBlocked := by
    intro index hindex hstate
    obtain ⟨⟨queue, hmem⟩, hfrom, _⟩ := h.messages.receiveBlocked hindex hstate
    have hqueue := (h.messages.linked hmem).slot_to
    refine ⟨hfrom, ?_, ?_⟩
    · rw [hqueue]
      exact (h.addressed.to_eq hmem).symm
    · intro other nodes hcontents
      rw [hcontents.unique (h.messages.represents.contents other), hqueue]
      split_ifs with hother
      · subst other
        exact List.count_eq_one_of_mem (h.messages.represents.nodup queue) hmem
      · rw [List.count_eq_zero]
        exact fun hlinked => hother (h.messages.represents.disjoint hlinked hmem)
  sendBlocked := by
    intro index hindex hstate
    obtain ⟨hempty, _, hlast⟩ := h.messages.sendBlocked hindex hstate
    have hcontents := h.messages.represents.contents index
    rw [hempty] at hcontents
    have hpending : pendingCall s index = some (s.node index).receiveCall := by
      rw [pendingCall, hstate]
    exact ⟨hcontents, hrecorded.last hindex hpending, hlast⟩
  replyBlocked := by
    intro index hindex hstate
    obtain ⟨hunlinked, hfrom, hlast⟩ := h.messages.replyBlocked hindex hstate
    have hpending : pendingCall s index = (s.node index).sendCall := by
      rw [pendingCall, hstate]
    refine ⟨?_, hfrom, ⟨_, _, _, hrecorded.last hindex hpending⟩, _, hlast, rfl, rfl⟩
    intro queue
    rw [h.messages.inMsgQueue_iff]
    exact hunlinked queue

/-- Without `Destroy` they do so between any two rounds. -/
theorem nodesAgree_of_reachable {s : State} {calls : CallHistory}
    (hreachable : Reachable calling (fun p => NoDestroy p.1) (s, calls)) :
    NodesAgree s calls := by
  obtain ⟨⟨l, h⟩, hrecorded⟩ := recorded_of_reachable hreachable
  exact h.nodesAgree hrecorded

/-- After a `Send` that found nobody waiting the sender's node is linked. -/
theorem nodesAgree_sample :
    ∃ (s : State) (calls : CallHistory), sampleRun sampleSends = some s ∧ NodesAgree s calls ∧
      ∃ queue, InMsgQueue s queue 2 := by
  have hobserved : (sampleRun sampleSends).map (fun s => (s.task 2).state) =
      some .receiveBlocked := by decide +kernel
  obtain ⟨s, hrun, hstate⟩ := Option.map_eq_some_iff.mp hobserved
  have hbefore : Reachable kernel NoDestroy s := by
    apply reachable_of_rounds hrun
    simp [sampleSends, NoDestroy]
  obtain ⟨calls, hreachable⟩ := hbefore.recording (fun _ => CallHistory.empty)
    fun s action _ calls => calls.record s action.call?
  have hagree := nodesAgree_of_reachable hreachable
  exact ⟨s, calls, hrun, hagree, (hagree.receiveBlocked_iff (by decide)).mp hstate⟩

end Rtk.Kernel
