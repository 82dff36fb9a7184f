import Rtk.Invariant.Run
import Rtk.Invariant.Writes
import Rtk.Properties.Delivery

/-!
# What `Receive` does with several messages queued

`ReceiveProxy` puts the pointers of the caller into the newest queued node, and
`CompleteReceive` takes the oldest one.  With a single message they are the same
node; with more the message goes wherever the oldest node happens to point.
-/

namespace Rtk.Kernel

open Function
open Rtk.ByteMemory
open Rtk.DoublyLinked
open Rtk.Lib
open Rtk.Lib.QueueHeap
open Rtk.Transition

/-- The copy of `num` bytes, if it is made at all and moves any. -/
def transfer (dest src num : ℕ) : List Event :=
  if dest ≠ nullAddress ∧ src ≠ nullAddress ∧ num ≠ 0 then [.copied dest src num]
  else []

/-- The event records a store that changes memory. -/
def Event.stores : Event → Bool
  | .storedWord _ _ => true
  | .copied _ _ num => num ≠ 0
  | _ => false

/-- A `Receive` with the given arguments takes the oldest message: it stores the
sender and the message where the caller wants them, returns the length of the
message, stores nothing else, and leaves the other messages queued. -/
structure Receives (s : State) (oldest : ℤ) (rest : List ℤ) (tid msg : ℕ)
    (msglen : Word) (outcome : ℤ × State) : Prop where
  result : outcome.1 = (s.node oldest).msgBufferSize.toInt
  taken : ∃ n events, Records s (.taken (getCurrentTid s) n :: events) outcome.2 ∧
    n.message = (s.node oldest).message ∧
    events.filter Event.stores =
      .storedWord tid (BitVec.ofInt 32 (s.node oldest).fromTid) ::
        (transfer msg (s.node oldest).msgBuffer
            (Min.min msglen.toNat (s.node oldest).msgBufferSize.toNat) ++
          [.storedWord (s.task s.current).sp (s.node oldest).msgBufferSize])
  queued : Contents outcome.2.msgQueues s.current rest
  kept : ∀ index ∈ rest, (outcome.2.node index).message = (s.node index).message

/-- The oldest message is the only one, or its node points from earlier on to where
the caller wants the message. -/
def Directed (s : State) (oldest : ℤ) (rest : List ℤ) (tid msg : ℕ) (msglen : Word) :
    Prop :=
  rest = [] ∨ (s.node oldest).putTid = tid ∧
    transfer (s.node oldest).receiveBuffer (s.node oldest).msgBuffer
        (min (s.node oldest).receiveBufferSize (s.node oldest).msgBufferSize).toNat =
      transfer msg (s.node oldest).msgBuffer
        (Min.min msglen.toNat (s.node oldest).msgBufferSize.toNat)

theorem stores_deliveryEvents (n : MsgQueueNode) :
    (deliveryEvents n).filter Event.stores =
      .storedWord n.putTid (BitVec.ofInt 32 n.fromTid) ::
        transfer n.receiveBuffer n.msgBuffer
          (min n.receiveBufferSize n.msgBufferSize).toNat := by
  rw [deliveryEvents, copyEvents, transfer]
  by_cases hcopied : n.receiveBuffer ≠ nullAddress ∧ n.msgBuffer ≠ nullAddress
  · by_cases hmoves : (min n.receiveBufferSize n.msgBufferSize).toNat = 0
    · simp [hcopied, hmoves, List.filter_cons, Event.stores]
    · simp [hcopied, hmoves, List.filter_cons, Event.stores]
  · rw [if_neg hcopied, if_neg (fun hmade => hcopied ⟨hmade.1, hmade.2.1⟩)]
    rfl

section Receive

variable {s : State} {l : Layout} {oldest : ℤ} {rest : List ℤ} {tid msg : ℕ}
  {msglen : Word}

/-- The return value of the running task goes to its stack. -/
theorem Coherent.returnEvents_current (h : Coherent s l) (ret : ℤ) :
    returnEvents s (s.task l.current).tid ret =
      [.storedWord (s.task l.current).sp (BitVec.ofInt 32 ret)] := by
  have hnonneg := h.dispatched.named.tid_nonneg h.dispatched.inTable h.dispatched.allocated
  have hle := h.dispatched.named.tid_le h.dispatched.inTable h.dispatched.allocated
  have hslot := h.dispatched.slot_tid
  have hnamed : IsNamed s (s.task l.current).tid := ⟨hnonneg, hle, by rw [hslot]⟩
  rw [returnEvents, if_pos hnamed, hslot]

/-- The stores of a `Receive`, from the node that it takes. -/
theorem Coherent.stores_completeEvents (h : Coherent s l) {n : MsgQueueNode}
    (hto : n.toTid = (s.task l.current).tid) :
    ((deliveryEvents n ++ returnEvents s n.toTid n.msgBufferSize.toInt).filter
        Event.stores) =
      .storedWord n.putTid (BitVec.ofInt 32 n.fromTid) ::
        (transfer n.receiveBuffer n.msgBuffer
            (min n.receiveBufferSize n.msgBufferSize).toNat ++
          [.storedWord (s.task l.current).sp n.msgBufferSize]) := by
  rw [List.filter_append, stores_deliveryEvents, hto, h.returnEvents_current,
    BitVec.ofInt_toInt]
  rfl

/-- The stores of the taken node are those that the caller asks for exactly when the
node is directed to it. -/
theorem stores_takenNode_iff (hnodup : (oldest :: rest).Nodup)
    (hmsglen : 0 ≤ msglen.toInt) (hlength : 0 ≤ (s.node oldest).msgBufferSize.toInt) :
    ((takenNode s oldest rest tid msg msglen).putTid = tid ∧
        transfer (takenNode s oldest rest tid msg msglen).receiveBuffer
            (s.node oldest).msgBuffer
            (min (takenNode s oldest rest tid msg msglen).receiveBufferSize
              (s.node oldest).msgBufferSize).toNat =
          transfer msg (s.node oldest).msgBuffer
            (Min.min msglen.toNat (s.node oldest).msgBufferSize.toNat)) ↔
      Directed s oldest rest tid msg msglen := by
  by_cases hrest : rest = []
  · subst hrest
    rw [takenNode_of_nil]
    simp [Directed, MsgQueueNode.withReceive, toNat_min hmsglen hlength]
  · rw [takenNode_of_ne_nil hnodup hrest, Directed]
    simp [hrest]

theorem Coherent.receives_iff (h : Coherent s l) (haddressed : Addressed s l.queues)
    (hlive : NotDestroyed s (s.node oldest).fromTid)
    (hqueue : l.queues l.current = oldest :: rest) (hmsglen : 0 ≤ msglen.toInt)
    (hlength : 0 ≤ (s.node oldest).msgBufferSize.toInt) (uninit : MsgQueueNode)
    (links : QueueNode ℤ) :
    Receives s oldest rest tid msg msglen (receiveProxy s uninit links tid msg msglen) ↔
      Directed s oldest rest tid msg msglen := by
  have hnodup := h.messages.represents.nodup l.current
  rw [hqueue] at hnodup
  have hmessage := message_takenNode s oldest rest tid msg msglen
  obtain ⟨hfrom, hto, hbuffer, hsize⟩ := fields_of_message hmessage
  have hnamed : (s.node oldest).toTid = (s.task l.current).tid :=
    haddressed.to_eq (by rw [hqueue]; exact List.mem_cons_self)
  have hrecords := h.records_receiveProxy hqueue uninit links tid msg msglen
  have hstores : ((deliveryEvents (takenNode s oldest rest tid msg msglen) ++
      returnEvents s (takenNode s oldest rest tid msg msglen).toTid
        (takenNode s oldest rest tid msg msglen).msgBufferSize.toInt).filter
          Event.stores) = _ := h.stores_completeEvents (hto.trans hnamed)
  rw [← stores_takenNode_iff hnodup hmsglen hlength]
  constructor
  · intro hreceives
    obtain ⟨n, events, hmade, _, hwanted⟩ := hreceives.taken
    have hsame := List.append_cancel_left (hmade.log.symm.trans hrecords.log)
    obtain rfl := (List.cons.inj hsame).2
    rw [hstores, h.dispatched.current_eq, hfrom, hbuffer, hsize] at hwanted
    obtain ⟨hword, hothers⟩ := List.cons.inj hwanted
    exact ⟨(Event.storedWord.inj hword).1, List.append_cancel_right hothers⟩
  · rintro ⟨hputTid, htransfer⟩
    have hdone := h.completed_take hqueue hlive
      ((oldest :: rest).getLast (by simp)) tid msg msglen
    rw [← h.dispatched.getCurrentTid_eq] at hrecords
    refine ⟨?_, ⟨_, _, hrecords, hmessage, ?_⟩, ?_, ?_⟩
    · rw [h.result_receiveProxy hqueue, hsize]
    · rw [hstores, h.dispatched.current_eq, hfrom, hputTid, hbuffer, hsize, htransfer]
    · rw [h.dispatched.receiveProxy_of_cons h.messages.represents hqueue,
        hdone.msgQueues, h.dispatched.current_eq, h.dispatched.slot_tid]
      have hcontents :=
        (h.messages.represents.dequeueQueue hqueue).2.contents l.current
      rwa [Lists.erase, hqueue, List.erase_cons_head] at hcontents
    · intro index _
      rw [h.dispatched.receiveProxy_of_cons h.messages.represents hqueue, hdone.node]
      exact (fields_withPointers s _ tid msg msglen index).2.2

theorem Undestroyed.receives_iff_entered (h : Undestroyed s l)
    (hcontents : Contents s.msgQueues s.current (oldest :: rest)) (trap : Trap)
    (tid msg : ℕ) (hmsglen : 0 ≤ msglen.toInt)
    (hlength : 0 ≤ (s.node oldest).msgBufferSize.toInt) :
    Receives (entered s trap) oldest rest tid msg msglen
        (receiveProxy (entered s trap) trap.uninit trap.uninitLinks tid msg msglen) ↔
      Directed s oldest rest tid msg msglen := by
  rw [h.dispatched.current_eq] at hcontents
  have hqueue := (h.messages.represents.contents l.current).unique hcontents
  have hmem : oldest ∈ l.queues l.current := by simp [hqueue]
  have hlive : NotDestroyed s (s.node oldest).fromTid := by
    intro _
    rw [(h.messages.linked hmem).slot_from]
    exact h.occupied.sender hmem
  have hentered := h.toCoherent.enter trap
  have haddressed := h.addressed.quiet (silent_entered s trap).quiet
  exact hentered.receives_iff haddressed hlive hqueue hmsglen hlength _ _

end Receive

/-- With messages queued a `Receive` does what it should exactly when there is one
message or the oldest node happens to point to the buffers of the caller. -/
theorem receives_iff_of_reachable {s : State}
    (hreachable : Reachable kernel NoDestroy s) (trap : Trap) {oldest : ℤ}
    {rest : List ℤ} (hcontents : Contents s.msgQueues s.current (oldest :: rest))
    (tid msg : ℕ) {msglen : Word} (hmsglen : 0 ≤ msglen.toInt)
    (hlength : 0 ≤ (s.node oldest).msgBufferSize.toInt) :
    Receives (entered s trap) oldest rest tid msg msglen
        (receiveProxy (entered s trap) trap.uninit trap.uninitLinks tid msg msglen) ↔
      Directed s oldest rest tid msg msglen := by
  obtain ⟨l, h⟩ := undestroyed_of_reachable hreachable
  exact h.receives_iff_entered hcontents trap tid msg hmsglen hlength

/-- The second message of a task is alone in the queue. -/
theorem receives_sample :
    ∃ s, sampleRun sampleSends = some s ∧
      Receives (entered s (sampleTrap 0x103f00)) 2 [] 0x400 0x500 9
        (receiveProxy (entered s (sampleTrap 0x103f00)) MsgQueueNode.zero QueueNode.null
          0x400 0x500 9) := by
  have hobserved : (sampleRun sampleSends).map (fun s => (s.current,
      s.msgQueues.queue 1, s.msgQueues.node 2, (s.node 2).msgBufferSize)) =
        some (1, ⟨some 2, some 2⟩, QueueNode.null, 7) := by decide +kernel
  obtain ⟨s, hrun, hvalues⟩ := Option.map_eq_some_iff.mp hobserved
  simp only [Prod.mk.injEq] at hvalues
  obtain ⟨hcurrent, hqueue, hnode, hsize⟩ := hvalues
  have hreachable : Reachable kernel NoDestroy s := by
    apply reachable_of_rounds hrun
    simp [sampleSends, NoDestroy]
  have hcontents : Contents s.msgQueues s.current [2] := by
    constructor <;> simp [hcurrent, hqueue, hnode, QueueNode.null, Chained]
  have hlength : 0 ≤ (s.node 2).msgBufferSize.toInt := by
    rw [hsize]
    decide
  exact ⟨s, hrun, (receives_iff_of_reachable hreachable (sampleTrap 0x103f00) hcontents
    0x400 0x500 (by decide) hlength).mpr (.inl rfl)⟩

/-- The second and the third task each send a message to the first. -/
def sampleBacklog : List Action :=
  [.call (.create 3 0x9000) (sampleTrap 0x103f00),
    .call (.send 1 0x200 5 0x300 6) (sampleTrap 0x105f00),
    .call (.create 3 0x9100) (sampleTrap 0x103f00),
    .call (.send 1 0x210 7 0x310 8) (sampleTrap 0x107f00)]

/-- A `Receive` with two messages queued does not store the tid of the oldest sender
where the caller wants it. -/
theorem not_receives_of_reachable :
    ¬∀ (s : State) (trap : Trap) (oldest : ℤ) (rest : List ℤ) (tid msg : ℕ)
      (msglen : Word), Reachable kernel NoDestroy s →
      Contents s.msgQueues s.current (oldest :: rest) → 0 ≤ msglen.toInt →
      0 ≤ (s.node oldest).msgBufferSize.toInt →
      Receives (entered s trap) oldest rest tid msg msglen
        (receiveProxy (entered s trap) trap.uninit trap.uninitLinks tid msg msglen) := by
  intro hclaim
  have hobserved : (sampleRun sampleBacklog).map (fun s =>
      ((s.msgQueues.queue 1, s.msgQueues.node 2, s.msgQueues.node 3),
        s.current, (s.node 2).msgBufferSize, (s.node 2).putTid)) =
      some ((⟨some 2, some 3⟩, ⟨some 3, none⟩, ⟨none, some 2⟩), 1, 5, 0) := by
    decide +kernel
  obtain ⟨s, hrun, hvalues⟩ := Option.map_eq_some_iff.mp hobserved
  simp only [Prod.mk.injEq] at hvalues
  obtain ⟨⟨hqueue, hfirst, hsecond⟩, hcurrent, hsize, hputTid⟩ := hvalues
  have hreachable : Reachable kernel NoDestroy s := by
    apply reachable_of_rounds hrun
    simp [sampleBacklog, NoDestroy]
  have hcontents : Contents s.msgQueues s.current [2, 3] := by
    constructor <;> simp [hcurrent, hqueue, hfirst, hsecond, Chained]
  have hlength : 0 ≤ (s.node 2).msgBufferSize.toInt := by
    rw [hsize]
    decide
  obtain ⟨l, h⟩ := undestroyed_of_reachable hreachable
  have hreceives := hclaim s (sampleTrap 0x103f00) 2 [3] 0x400 0x500 9 hreachable hcontents
    (by decide) hlength
  have hdirected := (h.receives_iff_entered hcontents _ _ _ (by decide) hlength).mp hreceives
  rw [Directed, hputTid] at hdirected
  simp at hdirected

end Rtk.Kernel
