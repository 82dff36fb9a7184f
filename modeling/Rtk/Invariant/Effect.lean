import Rtk.Invariant.Destroy
import Rtk.Invariant.SendReceive

/-!
# What a handler can do

`Effect` lists what the handler of one system call or interrupt does to the
kernel, with everything the invariants need to know about it.  A handler that
is neither of `Create`, `Destroy`, `Send` nor `Receive` is quiet.
-/

namespace Rtk.Kernel

open Function
open Rtk.ByteMemory
open Rtk.Lib
open Rtk.Lib.QueueHeap

/-- The lists that the links of a state represent, and how deep each task is in
the family tree. -/
structure Layout where
  current : ℤ
  lists : Lists TaskQueue ℤ
  children : Lists ℤ ℤ
  depth : ℤ → ℕ
  queues : Lists ℤ ℤ

/-- The state between two traps. -/
structure Coherent (s : State) (l : Layout) : Prop where
  dispatched : Dispatched s l.current l.lists
  numbered : Numbered s
  family : Family s Whole l.children l.depth
  messages : Messages s l.queues

/-- The running task sends `n` to a task that is alive, while its own node is in
no queue. -/
structure Sends (s : State) (l : Layout) (n : MsgQueueNode) : Prop where
  fromTid : n.fromTid = (s.task l.current).tid
  alive : isTaskAlive s n.toTid
  unlinked : ∀ queue, l.current ∉ l.queues queue

def MsgQueueNode.sendCall (n : MsgQueueNode) : Option Call :=
  some (.send n.toTid n.msgBuffer n.msgBufferSize n.replyBuffer n.replyBufferSize)

/-- `s` with the message `n` queued and the pointers of the waiting receiver put
into it. -/
def handedOver (s : State) (c : ℤ) (n : MsgQueueNode) : State :=
  withPointers (queuedSend s c n) c (s.node (slot n.toTid)).putTid
    (s.node (slot n.toTid)).receiveBuffer (s.node (slot n.toTid)).receiveBufferSize

/-- From `s` the handler of a system call, or of an interrupt, of the running
task can lead to a state with the message queues as given. -/
inductive Effect (s : State) (l : Layout) :
    Option Call → Lists ℤ ℤ → State → Prop
  | quiet {call : Option Call} {s' : State}
      (hquiet : HandledQuietly s l.current s')
      (hrunning : call = none → (s'.task l.current).state = .active) :
      Effect s l call l.queues s'
  | create {index requested : ℤ} {rest : List ℤ} {priority : Priority} {code : Word}
      (hqueue : l.lists .available = index :: rest) :
      Effect s l (some (.create requested code)) l.queues
        (created s index priority code)
  | destroy {tid parent : ℤ} {order : List ℤ} {s' : State}
      (hreaped : Reaped (s.useDescriptor parent) l.current l.lists Whole l.children
        l.depth order s') :
      Effect s l (some (.destroy tid)) l.queues s'
  | send {n : MsgQueueNode} (hsends : Sends s l n)
      (hbusy : (s.task (slot n.toTid)).state ≠ .sendBlocked) :
      Effect s l n.sendCall (l.queues.append (slot n.toTid) l.current)
        (queuedSend s l.current n)
  | handOver {n : MsgQueueNode} {s' : State} (hsends : Sends s l n)
      (hwaits : (s.task (slot n.toTid)).state = .sendBlocked)
      (hdone : Completed (handedOver s l.current n) l.current n.toTid l.current s') :
      Effect s l n.sendCall l.queues s'
  | wait {uninit : MsgQueueNode} {links : QueueNode ℤ} {putTid msg : ℕ}
      {msglen : Word} (hempty : l.queues l.current = [])
      (hunlinked : ∀ queue, l.current ∉ l.queues queue) :
      Effect s l (some (.receive putTid msg msglen)) l.queues
        (waitingReceive s l.current (uninit.withReceive putTid msg msglen) links)
  | take {head index : ℤ} {rest : List ℤ} {putTid msg : ℕ} {msglen : Word}
      {s' : State} (hqueue : l.queues l.current = head :: rest)
      (hindex : index ∈ head :: rest)
      (hlive : NotDestroyed s (s.node head).fromTid)
      (hdone : Completed (withPointers s index putTid msg msglen) l.current
        (s.task l.current).tid head s') :
      Effect s l (some (.receive putTid msg msglen)) (l.queues.erase head) s'

/-! ## The handlers -/

section Handlers

variable {s : State} {l : Layout}

theorem Coherent.silent {s' : State} (h : Coherent s l) (hsilent : Silent s s') :
    Coherent s' l where
  dispatched := h.dispatched.silent hsilent
  numbered := h.numbered.congr (.of_task_eq hsilent.task)
  family := h.family.congr (.of_task_eq hsilent.task) hsilent.siblings
  messages := h.messages.quiet hsilent.quiet

theorem Coherent.handled_queuedSend (h : Coherent s l) (n : MsgQueueNode) :
    Handled s l.current (queuedSend s l.current n) :=
  h.dispatched.handled_blocked .receiveBlocked (by decide) rfl rfl rfl rfl

/-- `CreateTaskSafe` refuses, or takes the first free descriptor. -/
theorem Coherent.effect_createTaskSafe (h : Coherent s l) (priority : ℤ)
    (code : Word) :
    Effect s l (some (.create priority code)) l.queues
      (createTaskSafe s priority code).2 := by
  rw [createTaskSafe]
  split_ifs
  · exact .quiet (.refl h.dispatched.toInKernel) nofun
  · cases hqueue : l.lists .available with
    | nil =>
        rw [createTask_of_empty h.dispatched.partition hqueue]
        exact .quiet (.refl h.dispatched.toInKernel) nofun
    | cons index rest =>
        rw [createTask_eq h.dispatched.partition h.family hqueue]
        exact .create hqueue

/-- `DestroyHandler` of a tid that is not that of a destroyed task. -/
theorem Coherent.effect_destroyHandler (h : Coherent s l) {tid : ℤ}
    (hlive : isValidTid tid → NotDestroyed s tid) {fuel : ℕ} {result : ℤ}
    {s' : State} (hdestroy : destroyHandler s tid fuel = some (result, s')) :
    Effect s l (some (.destroy tid)) l.queues s' := by
  by_cases hnamed : isValidTid tid ∧ (s.task (slot tid)).tid = tid
  · obtain ⟨hvalid, htid⟩ := hnamed
    have hslot := inTable_slot (isValidTid_iff.mp hvalid).1
    obtain ⟨enough, s'', order, hsome, hreaped, _⟩ :=
      exists_destroyHandler h.dispatched.toInKernel h.family hslot (hlive hvalid htid)
    rw [htid] at hsome
    obtain ⟨rfl, rfl⟩ := Prod.mk.inj (destroyHandler_unique hdestroy hsome)
    exact .destroy hreaped
  · have hrefused : isValidTid tid → (s.task (slot tid)).tid ≠ tid :=
      fun hvalid htid => hnamed ⟨hvalid, htid⟩
    obtain ⟨error, _, hsame⟩ := @destroyHandler_refused s tid 0 hrefused
    obtain ⟨rfl, rfl⟩ := Prod.mk.inj (destroyHandler_unique hdestroy hsame)
    exact .quiet (.refl h.dispatched.toInKernel) nofun

theorem Coherent.handled_handedOver (h : Coherent s l) (n : MsgQueueNode) :
    Handled s l.current (handedOver s l.current n) := by
  apply (h.handled_queuedSend n).bind
  intro lists hkernel
  exact hkernel.handled_of_task_eq rfl rfl rfl rfl

theorem Sends.slot_inTable {n : MsgQueueNode} (hsends : Sends s l n) :
    InTable (slot n.toTid) :=
  inTable_slot (nonneg_of_alive hsends.alive)

section HandOver

variable {n : MsgQueueNode}

/-- A waiting task is not the running one. -/
theorem Coherent.ne_current (h : Coherent s l) {index : ℤ}
    (hwaits : (s.task index).state = .sendBlocked) : index ≠ l.current := by
  rintro rfl
  rw [h.dispatched.running] at hwaits
  simp at hwaits

theorem Coherent.posted_handedOver (h : Coherent s l) (hsends : Sends s l n) :
    Posted (handedOver s l.current n)
      (l.queues.append (slot n.toTid) l.current) := by
  apply Posted.withPointers
  exact Posted.queuedSend h.dispatched h.messages.toPosted hsends.unlinked
    hsends.fromTid (nonneg_of_alive hsends.alive)

/-- The message is the only one for the waiting task. -/
theorem Coherent.queue_handedOver (h : Coherent s l) (hsends : Sends s l n)
    (hwaits : (s.task (slot n.toTid)).state = .sendBlocked) :
    (l.queues.append (slot n.toTid) l.current) (slot n.toTid) = [l.current] := by
  obtain ⟨hempty, _⟩ := h.messages.sendBlocked hsends.slot_inTable hwaits
  rw [Lists.append_self, hempty, List.nil_append]

theorem Sends.fromTid_handedOver (hsends : Sends s l n) :
    ((handedOver s l.current n).node l.current).fromTid =
      (s.task l.current).tid := by
  simp [handedOver, withPointers, queuedSend, State.setMsgNode,
    MsgQueueNode.withReceive, hsends.fromTid]

theorem toTid_handedOver (s : State) (c : ℤ) (n : MsgQueueNode) :
    ((handedOver s c n).node c).toTid = n.toTid := by
  simp [handedOver, withPointers, queuedSend, State.setMsgNode,
    MsgQueueNode.withReceive]

theorem task_handedOver_self (s : State) (c : ℤ) (n : MsgQueueNode) :
    (handedOver s c n).task c = { s.task c with state := .receiveBlocked } :=
  update_self _ _ _

theorem task_handedOver_of_ne {c index : ℤ} (n : MsgQueueNode)
    (hindex : index ≠ c) : (handedOver s c n).task index = s.task index :=
  update_of_ne hindex _ _

/-- The sender of a message that is handed over is not destroyed. -/
theorem Coherent.notDestroyed_handedOver (h : Coherent s l)
    (hsends : Sends s l n) :
    NotDestroyed (handedOver s l.current n)
      ((handedOver s l.current n).node l.current).fromTid := by
  intro _
  rw [hsends.fromTid_handedOver, h.dispatched.slot_tid, Allocated,
    task_handedOver_self]
  exact (by decide : 0 ≤ TaskState.receiveBlocked.value)

/-- The sender and the waiting receiver may be moved. -/
theorem Coherent.movable_handOver (h : Coherent s l) (hsends : Sends s l n)
    (hwaits : (s.task (slot n.toTid)).state = .sendBlocked) :
    Movable (handedOver s l.current n) l.current
        ((handedOver s l.current n).node l.current).fromTid ∧
      Movable (handedOver s l.current n) l.current
        ((handedOver s l.current n).node l.current).toTid := by
  have hother := @task_handedOver_of_ne s _ _ n (h.ne_current hwaits)
  constructor
  · refine ⟨?_, h.notDestroyed_handedOver hsends, ?_⟩
    · rw [hsends.fromTid_handedOver, h.dispatched.slot_tid]
      exact h.dispatched.inTable
    · rw [hsends.fromTid_handedOver, h.dispatched.slot_tid]
      exact fun _ hnot => absurd rfl hnot
  · rw [toTid_handedOver]
    refine ⟨hsends.slot_inTable, ?_, ?_⟩
    · intro _
      rw [Allocated, hother, hwaits]
      decide
    · intro _ _
      rw [hother, hwaits]
      decide

/-- The message that is handed over is dequeued at once. -/
theorem Coherent.dequeued_handedOver (h : Coherent s l) (hsends : Sends s l n)
    (hwaits : (s.task (slot n.toTid)).state = .sendBlocked) :
    ((handedOver s l.current n).msgQueues.dequeueQueue (slot n.toTid)).1 =
      some l.current :=
  ((h.posted_handedOver hsends).represents.dequeueQueue
    (h.queue_handedOver hsends hwaits)).1

/-- The rendezvous of a `Send` with a waiting receiver. -/
theorem Coherent.completed_handOver (h : Coherent s l) (hsends : Sends s l n)
    (hwaits : (s.task (slot n.toTid)).state = .sendBlocked) :
    Completed (handedOver s l.current n) l.current n.toTid l.current
      (completeReceive (handedOver s l.current n) n.toTid).2 := by
  obtain ⟨lists, hkernel⟩ := (h.handled_handedOver n).inKernel
  obtain ⟨hfrom, hto⟩ := h.movable_handOver hsends hwaits
  exact hkernel.completed (h.dequeued_handedOver hsends hwaits) hfrom hto

/-- A rendezvous of a `Send` leaves the message queues as they were. -/
theorem Coherent.messages_handOver (h : Coherent s l) {s' : State}
    (hsends : Sends s l n) (hwaits : (s.task (slot n.toTid)).state = .sendBlocked)
    (hdone : Completed (handedOver s l.current n) l.current n.toTid l.current s') :
    Messages s' l.queues := by
  have hne := h.ne_current hwaits
  have hother := @task_handedOver_of_ne s _ _ n hne
  have hmessages := (h.posted_handedOver hsends).completed
    (h.queue_handedOver hsends hwaits) (h.notDestroyed_handedOver hsends)
    (by rw [hother, hwaits]; decide)
    (fun _ => by
      rw [hother, toTid_handedOver]
      exact (tid_of_alive hsends.alive))
    (fun index hindex hstate hindexNe => by
      have hqueued : ((queuedSend s l.current n).task index).state = .sendBlocked :=
        hstate
      have hindexCurrent : index ≠ l.current := by
        rintro rfl
        simp [queuedSend] at hqueued
      exact (Awaits.queuedSend h.messages hindex hqueued hindexNe).withPointers
        hindexCurrent _ _ _)
    hdone
  rwa [Lists.erase_append hsends.unlinked] at hmessages

end HandOver

/-- What `SendProxy` does, when the caller's node is in no queue: it refuses, hands the
message over or queues it. -/
theorem Coherent.sendProxy_cases (h : Coherent s l) {tid : ℤ}
    (hunlinked : isTaskAlive s tid → ∀ queue, l.current ∉ l.queues queue)
    (uninit : MsgQueueNode) (msg : ℕ) (msglen : Word) (reply : ℕ) (replylen : Word) :
    (sendProxy s uninit tid msg msglen reply replylen).2 = s ∨
      ∃ n, Sends s l n ∧ n.sendCall = some (.send tid msg msglen reply replylen) ∧
        ((s.task (slot n.toTid)).state = .sendBlocked ∧
            (sendProxy s uninit tid msg msglen reply replylen).2 =
              (completeReceive (handedOver s l.current n) n.toTid).2 ∨
          (s.task (slot n.toTid)).state ≠ .sendBlocked ∧
            (sendProxy s uninit tid msg msglen reply replylen).2 =
              queuedSend s l.current n) := by
  by_cases halive : isTaskAlive s tid
  · have hsends : Sends s l
        (sendNode uninit (s.task l.current).tid tid msg msglen reply replylen) :=
      ⟨rfl, halive, hunlinked halive⟩
    refine .inr ⟨_, hsends, rfl, ?_⟩
    rw [h.dispatched.sendProxy_eq halive]
    by_cases hwaits : (s.task (slot tid)).state = .sendBlocked
    · rw [if_pos hwaits]
      exact .inl ⟨hwaits, rfl⟩
    · rw [if_neg hwaits]
      exact .inr ⟨hwaits, rfl⟩
  · rw [sendProxy_of_not_alive halive]
    exact .inl rfl

/-- `SendProxy`, when the caller's node is in no queue. -/
theorem Coherent.effect_sendProxy (h : Coherent s l) {tid : ℤ}
    (hunlinked : isTaskAlive s tid → ∀ queue, l.current ∉ l.queues queue)
    (uninit : MsgQueueNode) (msg : ℕ) (msglen : Word) (reply : ℕ)
    (replylen : Word) :
    ∃ queues,
      Effect s l (some (.send tid msg msglen reply replylen)) queues
        (sendProxy s uninit tid msg msglen reply replylen).2 := by
  rcases h.sendProxy_cases hunlinked uninit msg msglen reply replylen with
    heq | ⟨n, hsends, hcall, ⟨hwaits, heq⟩ | ⟨hbusy, heq⟩⟩
  · rw [heq]
    exact ⟨_, .quiet (.refl h.dispatched.toInKernel) nofun⟩
  · rw [heq, ← hcall]
    exact ⟨_, .handOver hsends hwaits (h.completed_handOver hsends hwaits)⟩
  · rw [heq, ← hcall]
    exact ⟨_, .send hsends hbusy⟩

section Take

variable {head index : ℤ} {rest : List ℤ} {putTid msg : ℕ} {msglen : Word}

theorem Coherent.dequeued (h : Coherent s l)
    (hqueue : l.queues l.current = head :: rest) :
    (s.msgQueues.dequeueQueue (slot (s.task l.current).tid)).1 = some head := by
  rw [h.dispatched.slot_tid]
  exact (h.messages.represents.dequeueQueue hqueue).1

/-- The sender of the oldest message and the running task may be moved. -/
theorem Coherent.movable_take (h : Coherent s l)
    (hqueue : l.queues l.current = head :: rest)
    (hlive : NotDestroyed s (s.node head).fromTid) (index : ℤ) (putTid msg : ℕ)
    (msglen : Word) :
    Movable (withPointers s index putTid msg msglen) l.current
        ((withPointers s index putTid msg msglen).node head).fromTid ∧
      Movable (withPointers s index putTid msg msglen) l.current
        ((withPointers s index putTid msg msglen).node head).toTid := by
  have hmem : head ∈ l.queues l.current := by simp [hqueue]
  have hposted := h.messages.toPosted.withPointers index putTid msg msglen
  have hlinked := hposted.linked hmem
  have hfrom := (fields_withPointers s index putTid msg msglen head).1
  constructor
  · have hslotFrom := hlinked.slot_from
    rw [hfrom] at hslotFrom ⊢
    refine ⟨?_, hlive, ?_⟩
    · rw [hslotFrom]
      exact hlinked.index_inTable
    · intro hown _
      -- the sender is blocked as long as it has the tid in its node
      have halloc := hlive hown
      rw [hslotFrom] at hown halloc ⊢
      have hblocked := h.messages.state_of_linked hmem halloc hown.symm
      have hkept : ((withPointers s index putTid msg msglen).task head).state =
          .receiveBlocked := hblocked
      rw [hkept]
      decide
  · refine ⟨?_, ?_, ?_⟩
    · rw [hlinked.slot_to]
      exact h.dispatched.inTable
    · intro _
      rw [hlinked.slot_to]
      exact h.dispatched.allocated
    · rw [hlinked.slot_to]
      exact fun _ hnot => absurd rfl hnot

/-- The rendezvous of a `Receive` with the oldest message. -/
theorem Coherent.completed_take (h : Coherent s l)
    (hqueue : l.queues l.current = head :: rest)
    (hlive : NotDestroyed s (s.node head).fromTid) (index : ℤ) (putTid msg : ℕ)
    (msglen : Word) :
    Completed (withPointers s index putTid msg msglen) l.current
      (s.task l.current).tid head
      (completeReceive (withPointers s index putTid msg msglen)
        (s.task l.current).tid).2 := by
  have hkernel : InKernel (withPointers s index putTid msg msglen) l.current
      l.lists := h.dispatched.toInKernel.congr rfl rfl rfl
  obtain ⟨hfrom, hto⟩ := h.movable_take hqueue hlive index putTid msg msglen
  exact hkernel.completed (h.dequeued hqueue) hfrom hto

/-- A `Receive` takes the oldest message out of its queue. -/
theorem Coherent.messages_take (h : Coherent s l) {s' : State}
    (hqueue : l.queues l.current = head :: rest) (hindex : index ∈ head :: rest)
    (hlive : NotDestroyed s (s.node head).fromTid)
    (hdone : Completed (withPointers s index putTid msg msglen) l.current
      (s.task l.current).tid head s') :
    Messages s' (l.queues.erase head) := by
  have hposted := h.messages.toPosted.withPointers index putTid msg msglen
  have hslot := h.dispatched.slot_tid
  have hrunning : ((withPointers s index putTid msg msglen).task
      (slot (s.task l.current).tid)).state = .active := by
    rw [hslot]
    exact h.dispatched.running
  apply hposted.completed
  · rw [hslot]
    exact hqueue
  · rw [(fields_withPointers s index putTid msg msglen head).1]
    exact hlive
  · rw [hrunning]
    decide
  · rw [hrunning]
    exact fun hwaits => absurd hwaits (by decide)
  · intro other hother hstate _
    have hawaits := h.messages.sendBlocked hother hstate
    -- the node that gets the pointers is linked, so no task waits with it
    have hne : other ≠ index := by
      rintro rfl
      rw [← hqueue] at hindex
      exact hawaits.2.1 _ hindex
    exact hawaits.withPointers hne _ _ _
  · exact hdone

end Take

/-- `ReceiveProxy`, when the caller's node is in no queue, or the sender of the
oldest message is not destroyed. -/
theorem Coherent.effect_receiveProxy (h : Coherent s l)
    (hunlinked : l.queues l.current = [] → ∀ queue, l.current ∉ l.queues queue)
    (hlive : ∀ head rest, l.queues l.current = head :: rest →
      NotDestroyed s (s.node head).fromTid)
    (uninit : MsgQueueNode) (links : QueueNode ℤ) (tid msg : ℕ) (msglen : Word) :
    ∃ queues,
      Effect s l (some (.receive tid msg msglen)) queues
        (receiveProxy s uninit links tid msg msglen).2 := by
  cases hqueue : l.queues l.current with
  | nil =>
      rw [h.dispatched.receiveProxy_of_empty h.messages.represents hqueue]
      exact ⟨_, .wait hqueue (hunlinked hqueue)⟩
  | cons head rest =>
      have hsender := hlive head rest hqueue
      rw [h.dispatched.receiveProxy_of_cons h.messages.represents hqueue]
      exact ⟨_, .take hqueue (List.getLast_mem _) hsender
        (h.completed_take hqueue hsender _ _ _ _)⟩

/-- The node of a task that waits for a reply names it as the sender. -/
theorem Coherent.fromTid_of_awaiting (h : Coherent s l) {tid : ℤ}
    (hawaits : Awaiting s tid) : (s.node (slot tid)).fromTid = tid := by
  obtain ⟨hvalid, htid, hstate⟩ := awaiting_iff.mp hawaits
  have hslot := inTable_slot (isValidTid_iff.mp hvalid).1
  rw [(h.messages.replyBlocked hslot hstate).2.1, htid]

/-- `ReplyProxy` moves a task from `REPLY_BLOCKED` to `READY`. -/
theorem Coherent.handled_replyProxy (h : Coherent s l) (tid : ℤ) (reply : ℕ)
    (replylen : Word) :
    HandledQuietly s l.current (replyProxy s tid reply replylen).2 := by
  by_cases hawaits : Awaiting s tid
  · obtain ⟨hvalid, htid, hstate⟩ := awaiting_iff.mp hawaits
    have hslot := inTable_slot (isValidTid_iff.mp hvalid).1
    have hcopied := Silent.replied s (s.node (slot tid)) reply replylen
    rw [hawaits.replyProxy_eq, h.fromTid_of_awaiting hawaits]
    apply (h.dispatched.toInKernel.handled_of_silent hcopied).bind
    intro lists hkernel
    have hkept : ((replied s (s.node (slot tid)) reply replylen).task (slot tid)).state =
        .replyBlocked := by
      rw [hcopied.task, hstate]
    have hready : HandledQuietly (replied s (s.node (slot tid)) reply replylen) l.current
        (setTaskState (replied s (s.node (slot tid)) reply replylen) tid .ready) := by
      apply hkernel.handled_setTaskState hslot
      · intro _
        exact allocated_of_state hkept (by decide)
      · decide
      · decide
      · rw [hkept]
        exact fun _ => .inr ⟨by decide, by decide⟩
      · rw [hkept]
        exact fun _ _ => by decide
    apply hready.bind
    intro lists' hkernel'
    exact hkernel'.handled_of_silent (.setTaskReturnValue _ _ _)
  · obtain ⟨error, _, hrefused⟩ := replyProxy_refused hawaits reply replylen
    rw [hrefused]
    exact .refl h.dispatched.toInKernel

end Handlers

end Rtk.Kernel
