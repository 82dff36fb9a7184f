import Rtk.Invariant.Step

/-!
# Delivery

Accepted messages to a tid are taken in the order of their sends, and those not
taken yet are the nodes in the queue of its slot that name it.  This holds as
long as every linked node still names the task in its queue's slot, for which it
is enough that no slot is used again while it takes part in an exchange.
-/

namespace Rtk.Kernel

open Rtk.ByteMemory
open Rtk.Lib

/-- A linked node names the tids of its sender's and its receiver's slots. -/
structure Addressed (s : State) (queues : Lists ℤ ℤ) : Prop where
  from_eq : ∀ {queue index}, index ∈ queues queue →
    (s.node index).fromTid = (s.task index).tid
  to_eq : ∀ {queue index}, index ∈ queues queue →
    (s.node index).toTid = (s.task queue).tid

/-- The tasks of a linked node are in use. -/
structure Occupied (s : State) (queues : Lists ℤ ℤ) : Prop where
  sender : ∀ {queue index}, index ∈ queues queue → Allocated s index
  receiver : ∀ {queue index}, index ∈ queues queue → Allocated s queue

/-- The messages in the queue of the slot of `tid` that name it. -/
def pendingMessages (s : State) (queues : Lists ℤ ℤ) (tid : ℤ) :
    List MsgQueueNode :=
  ((queues (slot tid)).map fun index => (s.node index).message).filter
    fun message => message.toTid = tid

/-- The messages sent to a tid are those its receives have taken, followed by
those still in its queue. -/
def Delivered (s : State) (queues : Lists ℤ ℤ) : Prop :=
  ∀ tid, sentMessages s.log tid =
    takenMessages s.log tid ++ pendingMessages s queues tid

@[simp]
theorem toTid_message (node : MsgQueueNode) : node.message.toTid = node.toTid := rfl

@[simp]
theorem fromTid_message (node : MsgQueueNode) : node.message.fromTid = node.fromTid :=
  rfl

/-! ## Sends and receives -/

section Steps

variable {s s' : State} {l : Layout} {queues queues' : Lists ℤ ℤ}

theorem pendingMessages_congr
    (hqueues : ∀ queue, queues' queue = queues queue)
    (hmessage : ∀ {queue index}, index ∈ queues queue →
      (s'.node index).message = (s.node index).message) (tid : ℤ) :
    pendingMessages s' queues' tid = pendingMessages s queues tid := by
  rw [pendingMessages, pendingMessages, hqueues]
  congr 1
  apply List.map_congr_left
  exact fun index hindex => hmessage hindex

/-- A step that neither sends nor takes a message delivers nothing. -/
theorem Delivered.congr (h : Delivered s queues)
    (hsent : ∀ tid, sentMessages s'.log tid = sentMessages s.log tid)
    (htaken : ∀ tid, takenMessages s'.log tid = takenMessages s.log tid)
    (hmessage : ∀ {queue index}, index ∈ queues queue →
      (s'.node index).message = (s.node index).message) :
    Delivered s' queues := by
  intro tid
  rw [hsent, htaken, h tid, pendingMessages_congr (fun _ => rfl) hmessage]

theorem Delivered.of_log_quiet (h : Delivered s queues) (hnode : s'.node = s.node)
    (hlog : ∃ events, s'.log = s.log ++ events ∧
      ∀ event ∈ events, ¬event.IsMessage) : Delivered s' queues := by
  obtain ⟨events, hlog, hquiet⟩ := hlog
  apply h.congr
  · intro tid
    rw [sentMessages, hlog, filterMap_quiet (sentTo_quiet tid) hquiet, sentMessages]
  · intro tid
    rw [takenMessages, hlog, filterMap_quiet (takenBy_quiet tid) hquiet, takenMessages]
  · intro queue index _
    rw [hnode]

/-- An accepted `Send` adds its message to those sent and to those pending. -/
theorem Delivered.queuedSend (h : Delivered s queues) {c : ℤ} {n : MsgQueueNode}
    (hunlinked : ∀ queue, c ∉ queues queue) :
    Delivered (queuedSend s c n) (queues.append (slot n.toTid) c) := by
  have hblocks := blocks_queuedSend s c n
  have hold : ∀ queue, ((queues queue).map fun index =>
      ((Kernel.queuedSend s c n).node index).message) =
        (queues queue).map fun index => (s.node index).message := by
    intro queue
    apply List.map_congr_left
    intro index hindex
    have hne : index ≠ c := ne_of_mem_of_not_mem hindex (hunlinked queue)
    rw [hblocks.nodes _ hne]
  have hsent : ∀ tid, sentMessages (Kernel.queuedSend s c n).log tid =
      sentMessages s.log tid ++ if n.toTid = tid then [n.message] else [] := by
    intro tid
    rw [sentMessages, Kernel.queuedSend, List.filterMap_append, sentMessages]
    split_ifs with htid <;> simp [Event.sentTo, htid]
  have htaken : ∀ tid, takenMessages (Kernel.queuedSend s c n).log tid =
      takenMessages s.log tid := by
    intro tid
    rw [takenMessages, Kernel.queuedSend, List.filterMap_append, takenMessages]
    simp [Event.takenBy]
  intro tid
  rw [hsent, htaken, h tid, List.append_assoc]
  congr 1
  rw [pendingMessages, pendingMessages]
  by_cases hslot : slot tid = slot n.toTid
  · rw [hslot, Lists.append_self, List.map_append, hold, List.filter_append]
    congr 1
    rw [List.map_singleton, hblocks.node]
    by_cases htid : n.toTid = tid <;> simp [htid]
  · have hne : n.toTid ≠ tid := by
      rintro rfl
      exact hslot rfl
    rw [Lists.append_of_ne _ _ hslot, hold, if_neg hne, List.append_nil]

theorem Delivered.withPointers (h : Delivered s queues) (index : ℤ)
    (putTid msg : ℕ) (msglen : Word) :
    Delivered (withPointers s index putTid msg msglen) queues :=
  h.congr (fun _ => rfl) (fun _ => rfl)
    (fun _ => (fields_withPointers s index putTid msg msglen _).2.2)

theorem Delivered.waitingReceive (h : Delivered s queues) {c : ℤ}
    (hunlinked : ∀ queue, c ∉ queues queue) (n : MsgQueueNode)
    (links : QueueNode ℤ) : Delivered (waitingReceive s c n links) queues := by
  apply h.congr
  · intro tid
    rw [sentMessages, Kernel.waitingReceive, List.filterMap_append, sentMessages]
    simp [Event.sentTo]
  · intro tid
    rw [takenMessages, Kernel.waitingReceive, List.filterMap_append, takenMessages]
    simp [Event.takenBy]
  · intro queue index hindex
    have hne : index ≠ c := ne_of_mem_of_not_mem hindex (hunlinked queue)
    rw [(blocks_waitingReceive s c n links).nodes _ hne]

/-- A rendezvous moves the oldest message from those pending to those taken. -/
theorem Delivered.completed (h : Delivered s queues) {c tid head : ℤ}
    {rest : List ℤ} (hrep : Represents s.msgQueues queues)
    (hqueue : queues (slot tid) = head :: rest)
    (hto : (s.node head).toTid = tid) (hdone : Completed s c tid head s') :
    Delivered s' (queues.erase head) := by
  obtain ⟨events, hlog, hquiet⟩ := hdone.log
  have hsent : ∀ receiver, sentMessages s'.log receiver =
      sentMessages s.log receiver := by
    intro receiver
    rw [sentMessages, hlog, List.append_cons,
      filterMap_quiet (sentTo_quiet receiver) hquiet, List.filterMap_append,
      sentMessages]
    simp [Event.sentTo]
  have htaken : ∀ receiver, takenMessages s'.log receiver =
      takenMessages s.log receiver ++
        if tid = receiver then [(s.node head).message] else [] := by
    intro receiver
    rw [takenMessages, hlog, List.append_cons,
      filterMap_quiet (takenBy_quiet receiver) hquiet, List.filterMap_append,
      takenMessages]
    split_ifs with hreceiver <;> simp [Event.takenBy, hreceiver]
  intro receiver
  rw [hsent, htaken, h receiver, List.append_assoc]
  congr 1
  rw [pendingMessages, pendingMessages, hdone.node]
  by_cases hslot : slot receiver = slot tid
  · have herase : queues.erase head (slot tid) = rest := by
      rw [Lists.erase, hqueue, List.erase_cons_head]
    rw [hslot, herase, hqueue, List.map_cons, List.filter_cons]
    by_cases hreceiver : tid = receiver <;> simp [hto, hreceiver]
  · have hne : tid ≠ receiver := by
      rintro rfl
      exact hslot rfl
    have hfresh : head ∉ queues (slot receiver) := by
      intro hmem
      exact hslot (hrep.disjoint hmem (by simp [hqueue]))
    rw [Lists.erase_of_not_mem hfresh, if_neg hne, List.nil_append]

end Steps

/-! ## Every effect -/

section Effects

variable {s s' : State} {l : Layout} {queues : Lists ℤ ℤ} {call : Option Call}

/-- A linked node of a task in use belongs to a blocked task, so the running task
has none. -/
theorem Addressed.unlinked (h : Addressed s l.queues) (hcoherent : Coherent s l)
    (queue : ℤ) : l.current ∉ l.queues queue := by
  intro hmem
  have hblocked := hcoherent.messages.state_of_linked hmem
    hcoherent.dispatched.allocated (h.from_eq hmem)
  rw [hcoherent.dispatched.running] at hblocked
  simp at hblocked

/-- What an effect leaves of the nodes that stay linked. -/
theorem Effect.linked_cases (h : Coherent s l) (heffect : Effect s l call queues s')
    {queue index : ℤ} (hmem : index ∈ queues queue) :
    index ∈ l.queues queue ∧ (s'.node index).fromTid = (s.node index).fromTid ∧
        (s'.node index).toTid = (s.node index).toTid ∨
      index = l.current ∧ queue = slot (s'.node index).toTid ∧
        (s'.node index).fromTid = (s.task l.current).tid ∧
        isTaskAlive s (s'.node index).toTid := by
  cases heffect with
  | quiet hquiet hrunning =>
      rw [hquiet.quiet.node]
      exact .inl ⟨hmem, rfl, rfl⟩
  | create hqueue => exact .inl ⟨hmem, rfl, rfl⟩
  | @destroy _ parent _ _ hreaped =>
      rw [hreaped.untouched.node, (Silent.useDescriptor s parent).node]
      exact .inl ⟨hmem, rfl, rfl⟩
  | @send n hsends hbusy =>
      rcases Lists.mem_append_iff.mp hmem with hold | ⟨rfl, rfl⟩
      · have hne : index ≠ l.current := ne_of_mem_of_not_mem hold (hsends.unlinked queue)
        rw [(blocks_queuedSend s l.current n).nodes _ hne]
        exact .inl ⟨hold, rfl, rfl⟩
      · rw [(blocks_queuedSend s l.current n).node]
        exact .inr ⟨rfl, rfl, hsends.fromTid, hsends.alive⟩
  | @handOver n _ hsends hwaits hdone =>
      have hne : index ≠ l.current := ne_of_mem_of_not_mem hmem (hsends.unlinked queue)
      have hqueued := (blocks_queuedSend s l.current n).nodes _ hne
      have hfields := fields_withPointers (queuedSend s l.current n) l.current
        (s.node (slot n.toTid)).putTid (s.node (slot n.toTid)).receiveBuffer
        (s.node (slot n.toTid)).receiveBufferSize index
      rw [hqueued] at hfields
      rw [hdone.node]
      exact .inl ⟨hmem, hfields.1, hfields.2.1⟩
  | @wait uninit links putTid msg msglen hempty hunlinked =>
      have hne : index ≠ l.current := ne_of_mem_of_not_mem hmem (hunlinked queue)
      rw [(blocks_waitingReceive s l.current _ links).nodes _ hne]
      exact .inl ⟨hmem, rfl, rfl⟩
  | @take head last rest putTid msg msglen _ hqueue hindex hlive hdone =>
      have hfields := fields_withPointers s last putTid msg msglen index
      rw [hdone.node]
      exact .inl ⟨(h.messages.represents.mem_erase_iff.mp hmem).1, hfields.1,
        hfields.2.1⟩

theorem taken_of_log_quiet (hlog : ∃ events, s'.log = s.log ++ events ∧
      ∀ event ∈ events, ¬event.IsMessage) {tid : ℤ} {n : MsgQueueNode}
    (htaken : .taken tid n ∈ s'.log) : .taken tid n ∈ s.log := by
  obtain ⟨events, hlog, hquiet⟩ := hlog
  rw [hlog] at htaken
  apply (List.mem_append.mp htaken).resolve_right
  exact fun hmem => hquiet _ hmem trivial

/-- What a rendezvous takes is the message of the node at the head. -/
theorem Completed.taken_cases {c tid head : ℤ} (hdone : Completed s c tid head s')
    {receiver : ℤ} {n : MsgQueueNode} (htaken : .taken receiver n ∈ s'.log) :
    .taken receiver n ∈ s.log ∨ n = s.node head := by
  obtain ⟨events, hlog, hquiet⟩ := hdone.log
  rw [hlog, List.mem_append, List.mem_cons] at htaken
  rcases htaken with hold | hself | hlater
  · exact .inl hold
  · exact .inr (Event.taken.inj hself).2
  · exact absurd trivial (hquiet _ hlater)

/-- What an effect takes was sent by the running task or was linked. -/
theorem Effect.taken_cases (heffect : Effect s l call queues s') {tid : ℤ} {n : MsgQueueNode}
    (htaken : .taken tid n ∈ s'.log) :
    .taken tid n ∈ s.log ∨ n.fromTid = (s.task l.current).tid ∨
      ∃ queue index, index ∈ l.queues queue ∧ n.fromTid = (s.node index).fromTid := by
  cases heffect with
  | quiet hquiet hrunning =>
      exact .inl (taken_of_log_quiet hquiet.quiet.log htaken)
  | create hqueue =>
      exact .inl (taken_of_log_quiet ⟨[.storedWord _ _], rfl, by simp [Event.IsMessage]⟩ htaken)
  | @destroy _ parent _ _ hreaped =>
      have hlog := (Silent.useDescriptor s parent).log
      rw [← hreaped.untouched.log] at hlog
      exact .inl (taken_of_log_quiet hlog htaken)
  | send hsends hbusy =>
      rw [queuedSend, List.mem_append] at htaken
      left
      apply htaken.resolve_right
      simp
  | @handOver n' _ hsends hwaits hdone =>
      rcases hdone.taken_cases htaken with hold | rfl
      · have hsent : (handedOver s l.current n').log = s.log ++ [.sent n'] := rfl
        rw [hsent, List.mem_append] at hold
        left
        apply hold.resolve_right
        simp
      · exact .inr (.inl hsends.fromTid_handedOver)
  | wait hempty hunlinked =>
      rw [waitingReceive, List.mem_append] at htaken
      left
      apply htaken.resolve_right
      simp
  | @take head index rest putTid msg msglen _ hqueue hindex hlive hdone =>
      rcases hdone.taken_cases htaken with hold | rfl
      · exact .inl hold
      · exact .inr (.inr ⟨l.current, head, hqueue ▸ List.mem_cons_self,
          (fields_withPointers s index putTid msg msglen head).1⟩)

/-- `Create` does not use a slot that takes part in an exchange. -/
def Separates (l : Layout) (call : Option Call) : Prop :=
  ∀ requested code index rest, call = some (.create requested code) →
    l.lists .available = index :: rest →
    l.queues index = [] ∧ ∀ queue, index ∉ l.queues queue

/-- An effect that separates keeps the tids of the slots of linked nodes. -/
theorem Effect.tid_linked (h : Coherent s l) (heffect : Effect s l call queues s')
    (hseparates : Separates l call) {queue index : ℤ}
    (hmem : index ∈ l.queues queue) :
    (s'.task index).tid = (s.task index).tid ∧
      (s'.task queue).tid = (s.task queue).tid := by
  rcases heffect.cases_handled h with hhandled |
    ⟨new, rest, requested, priority, code, hcall, hqueue, rfl⟩ |
    ⟨tid, parent, order, _, hreaped⟩
  · exact ⟨hhandled.keeps.tid index, hhandled.keeps.tid queue⟩
  · obtain ⟨hempty, hfresh⟩ := hseparates requested code new rest hcall hqueue
    have hindex : index ≠ new := ne_of_mem_of_not_mem hmem (hfresh queue)
    have hother : queue ≠ new := by
      rintro rfl
      rw [hempty] at hmem
      simp at hmem
    rw [task_created_of_ne priority code hindex, task_created_of_ne priority code hother]
    exact ⟨rfl, rfl⟩
  · rw [hreaped.task, tid_reapedTasks, tid_reapedTasks,
      (Silent.useDescriptor s parent).task]
    exact ⟨rfl, rfl⟩

/-- The tid of a live task stays through a `Send`. -/
theorem Effect.tid_sent (h : Coherent s l) (heffect : Effect s l call queues s')
    {index : ℤ} (halloc : Allocated s index) :
    (s'.task index).tid = (s.task index).tid := by
  rcases heffect.cases_handled h with hhandled |
    ⟨new, rest, requested, priority, code, hcall, hqueue, rfl⟩ |
    ⟨tid, parent, order, _, hreaped⟩
  · exact hhandled.keeps.tid index
  · have hne : index ≠ new := by
      rintro rfl
      exact not_allocated_of_free (h.free_of_available hqueue).2 halloc
    rw [task_created_of_ne priority code hne]
  · rw [hreaped.task, tid_reapedTasks, (Silent.useDescriptor s parent).task]

/-- Linked nodes go on naming the tasks of their slots. -/
theorem Effect.addressed (h : Coherent s l) (haddressed : Addressed s l.queues)
    (heffect : Effect s l call queues s') (hseparates : Separates l call) :
    Addressed s' queues := by
  constructor <;> intro queue index hmem <;>
    rcases heffect.linked_cases h hmem with ⟨hold, hfrom, hto⟩ | ⟨rfl, hqueue, hfrom, halive⟩
  · rw [hfrom, haddressed.from_eq hold]
    exact (heffect.tid_linked h hseparates hold).1.symm
  · rw [hfrom, heffect.tid_sent h h.dispatched.allocated]
  · rw [hto, haddressed.to_eq hold]
    exact (heffect.tid_linked h hseparates hold).2.symm
  · rw [hqueue, heffect.tid_sent h (allocated_of_alive halive)]
    exact (tid_of_alive halive).symm

/-- Without `Destroy` the tasks of a linked node stay in use. -/
theorem Effect.occupied (h : Coherent s l) (hoccupied : Occupied s l.queues)
    (heffect : Effect s l call queues s')
    (hcall : ∀ tid, call ≠ some (.destroy tid)) : Occupied s' queues := by
  have hlasting := heffect.lasting h hcall
  constructor <;> intro queue index hmem <;>
    rcases heffect.linked_cases h hmem with ⟨hold, _⟩ | ⟨rfl, rfl, _, halive⟩
  · exact (hlasting index (hoccupied.sender hold)).1
  · exact (hlasting _ h.dispatched.allocated).1
  · exact (hlasting queue (hoccupied.receiver hold)).1
  · exact (hlasting _ (allocated_of_alive halive)).1

/-- A free slot takes part in no exchange while every linked node's tasks are in
use. -/
theorem Occupied.separates (hoccupied : Occupied s l.queues) (h : Coherent s l)
    (call : Option Call) : Separates l call := by
  intro requested code index rest _ hqueue
  have hnot := not_allocated_of_free (h.free_of_available hqueue).2
  constructor
  · rw [List.eq_nil_iff_forall_not_mem]
    exact fun other hmem => hnot (hoccupied.receiver hmem)
  · exact fun queue hmem => hnot (hoccupied.sender hmem)

/-- No effect loses, duplicates or reorders a message, as long as the linked
nodes name the tasks of their slots. -/
theorem Effect.delivered (h : Coherent s l) (haddressed : Addressed s l.queues)
    (hdelivered : Delivered s l.queues) (heffect : Effect s l call queues s') :
    Delivered s' queues := by
  cases heffect with
  | quiet hquiet hrunning => exact hdelivered.of_log_quiet hquiet.quiet.node hquiet.quiet.log
  | create hqueue =>
      have hnode : ∀ index priority code,
          (created s index priority code).node = s.node := fun _ _ _ => rfl
      exact hdelivered.of_log_quiet (hnode _ _ _)
        ⟨[.storedWord _ _], rfl, by simp [Event.IsMessage]⟩
  | @destroy _ parent _ _ hreaped =>
      have hstart := Silent.useDescriptor s parent
      apply hdelivered.of_log_quiet
      · rw [hreaped.untouched.node, hstart.node]
      · rw [hreaped.untouched.log]
        exact hstart.log
  | send hsends hbusy => exact hdelivered.queuedSend hsends.unlinked
  | @handOver n _ hsends hwaits hdone =>
      have hqueued : Delivered (handedOver s l.current n)
          (l.queues.append (slot n.toTid) l.current) := by
        apply Delivered.withPointers
        exact hdelivered.queuedSend hsends.unlinked
      have hdone' := hqueued.completed (h.posted_handedOver hsends).represents
        (h.queue_handedOver hsends hwaits) (toTid_handedOver s l.current n) hdone
      rwa [Lists.erase_append hsends.unlinked] at hdone'
  | wait hempty hunlinked => exact hdelivered.waitingReceive hunlinked _ _
  | @take head index rest putTid msg msglen _ hqueue hindex hlive hdone =>
      have hslot := h.dispatched.slot_tid
      have hfields := fields_withPointers s index putTid msg msglen head
      have hto : ((withPointers s index putTid msg msglen).node head).toTid =
          (s.task l.current).tid := by
        rw [hfields.2.1]
        exact haddressed.to_eq (hqueue ▸ List.mem_cons_self)
      have hfront : l.queues (slot (s.task l.current).tid) = head :: rest := by
        rw [hslot]
        exact hqueue
      exact (hdelivered.withPointers index putTid msg msglen).completed
        (h.messages.toPosted.withPointers index putTid msg msglen).represents
        hfront hto hdone

end Effects

/-! ## What follows an effect -/

section Quiet

variable {s s' : State} {queues : Lists ℤ ℤ}

theorem Addressed.quiet (h : Addressed s queues) (hquiet : Quiet s s') :
    Addressed s' queues where
  from_eq hmem := by
    rw [hquiet.node, hquiet.keeps.tid]
    exact h.from_eq hmem
  to_eq hmem := by
    rw [hquiet.node, hquiet.keeps.tid]
    exact h.to_eq hmem

theorem Occupied.quiet (h : Occupied s queues) (hquiet : Quiet s s') :
    Occupied s' queues where
  sender hmem := (hquiet.keeps.allocated_iff _).mpr (h.sender hmem)
  receiver hmem := (hquiet.keeps.allocated_iff _).mpr (h.receiver hmem)

theorem Delivered.quiet (h : Delivered s queues) (hquiet : Quiet s s') :
    Delivered s' queues := h.of_log_quiet hquiet.node hquiet.log

end Quiet

end Rtk.Kernel
