import Rtk.Core.Messaging
import Rtk.Invariant.Fates
import Rtk.Invariant.Rounds

/-!
# The tasks as they exchange messages

What the descriptors, the nodes and the message queues say about the tasks, by their tids, and
what a handler makes of it.
-/

namespace Rtk.Kernel

open Function
open Rtk.ByteMemory
open Rtk.Lib
open Rtk.Messaging

/-! ## What the kernel says about a task -/

/-- What a descriptor says about its task, whose node names `receiver`. -/
def Task.status (task : Task) (receiver : ℤ) : Status ℤ Word :=
  match task.state with
  | .free | .destroyed => .unborn
  | .zombie => .ended
  | .active | .ready => .ready
  | .sendBlocked => .receiving
  | .receiveBlocked => .sending receiver
  | .replyBlocked => .awaitingReply
  | .eventBlocked => .awaiting task.awaitingEventId

def statusAt (s : State) (index : ℤ) : Status ℤ Word :=
  (s.task index).status (s.node index).toTid

/-- What `f` says about the descriptor of a tid. -/
def byTid {A : Type*} (s : State) (absent : A) (f : ℤ → A) (tid : ℤ) : A :=
  if 0 ≤ tid ∧ (s.task (slot tid)).tid = tid then f (slot tid) else absent

def statusOf (s : State) : ℤ → Status ℤ Word := byTid s .unborn (statusAt s)

def senders (s : State) (queues : Lists ℤ ℤ) (index : ℤ) : List ℤ :=
  (queues index).map fun sender => (s.task sender).tid

/-- The tids of the tasks in the message queue of a tid. -/
def mailboxOf (s : State) (queues : Lists ℤ ℤ) : ℤ → List ℤ := byTid s [] (senders s queues)

/-- The tasks of a kernel whose message queues are `queues`. -/
def view (s : State) (queues : Lists ℤ ℤ) : World ℤ Word where
  status := statusOf s
  mailbox := mailboxOf s queues
  running := getCurrentTid s

/-- `w` is what the kernel says about its tasks. -/
def Views (s : State) (w : World ℤ Word) : Prop :=
  ∃ queues, Represents s.msgQueues queues ∧ w = view s queues

/-- What an action does, in terms of the exchange.  A creation may fail, and an interrupt
wakes some task if one waits for it. -/
def Performs (_ : State) : Action → Op ℤ Word → Prop
  | .call (.create _ _) _, op => ∃ new, op = .create new
  | .call .exit _, op => op = .exit
  | .call (.send tid _ _ _ _) _, op => op = .send tid
  | .call (.receive _ _ _) _, op => op = .receive
  | .call (.reply tid _ _) _, op => op = .reply tid
  | .call (.awaitEvent event) _, op => op = .await event
  | .call (.destroy _) _, _ => False
  | .call _ _, op => op = .other
  | .interrupt intrCode _, op =>
      if intrCode < 0 then ∃ woken, op = .interrupt ((1 : Word) <<< (-intrCode).toNat) woken
      else op = .other

@[simp]
theorem status_view (s : State) (queues : Lists ℤ ℤ) : (view s queues).status = statusOf s := rfl

@[simp]
theorem mailbox_view (s : State) (queues : Lists ℤ ℤ) :
    (view s queues).mailbox = mailboxOf s queues := rfl

@[simp]
theorem running_view (s : State) (queues : Lists ℤ ℤ) :
    (view s queues).running = getCurrentTid s := rfl

section Tids

variable {A : Type*} {s s' : State} {absent : A} {f : ℤ → A} {index : ℤ}

theorem byTid_congr (htid : ∀ index, (s'.task index).tid = (s.task index).tid) :
    byTid s' absent f = byTid s absent f := by
  funext tid
  rw [byTid, htid, byTid]

theorem byTid_tid (hslot : slot (s.task index).tid = index) (hnonneg : 0 ≤ (s.task index).tid) :
    byTid s absent f (s.task index).tid = f index := by
  rw [byTid, hslot, if_pos ⟨hnonneg, rfl⟩]

/-- What is said about one descriptor is said about its tid. -/
theorem byTid_update (hslot : slot (s.task index).tid = index)
    (hnonneg : 0 ≤ (s.task index).tid) (value : A) :
    byTid s absent (update f index value) =
      update (byTid s absent f) (s.task index).tid value := by
  funext tid
  rw [byTid, update_apply, update_apply]
  by_cases htid : tid = (s.task index).tid
  · subst htid
    rw [hslot, if_pos ⟨hnonneg, rfl⟩, if_pos rfl, if_pos rfl]
  · rw [if_neg htid, byTid]
    split_ifs with hnamed hindex
    · rw [hindex] at hnamed
      exact absurd hnamed.2.symm htid
    · rfl
    · rfl

theorem isTaskAlive_iff_status {tid : ℤ} (hnamed : Named s) :
    isTaskAlive s tid ↔ ¬(statusOf s tid = .unborn ∨ statusOf s tid = .ended) := by
  rw [isTaskAlive_iff, statusOf, byTid, not_or]
  constructor
  · rintro ⟨hnonneg, _, htid, hvalue⟩
    rw [if_pos ⟨hnonneg, htid⟩, statusAt, Task.status]
    cases hstate : (s.task (slot tid)).state <;> simp_all [TaskState.value]
  · rintro ⟨hborn, hended⟩
    split_ifs at hborn hended with hown
    · obtain ⟨hnonneg, htid⟩ := hown
      have hvalue : 0 < (s.task (slot tid)).state.value := by
        rw [statusAt, Task.status] at hborn hended
        cases hstate : (s.task (slot tid)).state <;> simp_all [TaskState.value]
      have hle := hnamed.tid_le (inTable_slot hnonneg) (Int.le_of_lt hvalue)
      rw [htid] at hle
      exact ⟨hnonneg, hle, htid, hvalue⟩
    · exact absurd rfl hborn

end Tids

/-! ## What a handler makes of it -/

/-- The tasks keep their tids, and each one is as `status` says. -/
structure Leaves (s : State) (status : ℤ → Status ℤ Word) (middle : State) : Prop where
  tid : ∀ index, (middle.task index).tid = (s.task index).tid
  status : statusAt middle = status
  current : middle.currentTask = s.currentTask

section Leaves

variable {s middle : State} {l : Layout} {c : ℤ} {status : ℤ → Status ℤ Word}
  {queues : Lists ℤ ℤ}

theorem Leaves.view_eq (h : Leaves s status middle) (queues : Lists ℤ ℤ) :
    view middle queues = { view s queues with status := byTid s .unborn status } := by
  have hrunning : getCurrentTid middle = getCurrentTid s := by
    rw [getCurrentTid, getCurrentTid, h.current]
    cases s.currentTask with
    | none => rfl
    | some index => exact h.tid index
  have hsenders : senders middle queues = senders s queues := by
    funext index
    rw [senders, senders]
    exact List.map_congr_left fun sender _ => h.tid sender
  rw [view, view, statusOf, mailboxOf, mailboxOf, byTid_congr h.tid, byTid_congr h.tid,
    h.status, hsenders, hrunning]

theorem Leaves.views (h : Leaves s status middle) {w : World ℤ Word}
    (hrep : Represents middle.msgQueues queues)
    (hw : w = { view s queues with status := byTid s .unborn status }) : Views middle w :=
  ⟨queues, hrep, hw.trans (h.view_eq queues).symm⟩

/-- The task of a descriptor in use moves. -/
theorem Coherent.move_byTid (h : Coherent s l) {index : ℤ} (hindex : InTable index)
    (halloc : Allocated s index) (w : World ℤ Word) (f : ℤ → Status ℤ Word)
    (status : Status ℤ Word) :
    World.move { w with status := byTid s .unborn f } (s.task index).tid status =
      { w with status := byTid s .unborn (update f index status) } := by
  rw [byTid_update (h.dispatched.named.slot_tid hindex halloc)
    (h.dispatched.named.tid_nonneg hindex halloc)]
  rfl

theorem Coherent.move_running (h : Coherent s l) (w : World ℤ Word)
    (f : ℤ → Status ℤ Word) (status : Status ℤ Word) :
    World.move { w with status := byTid s .unborn f } (getCurrentTid s) status =
      { w with status := byTid s .unborn (update f l.current status) } := by
  rw [h.dispatched.getCurrentTid_eq]
  exact h.move_byTid h.dispatched.inTable h.dispatched.allocated w f status

/-- The calling task blocks, and the others stay as they are. -/
theorem Blocks.leaves {state : TaskState} {n : MsgQueueNode} (h : Blocks s c state n middle)
    (hcurrent : middle.currentTask = s.currentTask) :
    Leaves s (update (statusAt s) c (Task.status { s.task c with state := state } n.toTid))
      middle where
  tid index := by
    by_cases hindex : index = c
    · rw [hindex, h.task]
    · rw [h.others index hindex]
  status := by
    funext index
    rw [update_apply]
    split_ifs with hindex
    · rw [hindex, statusAt, h.task, h.node]
    · rw [statusAt, h.others index hindex, h.nodes index hindex, statusAt]
  current := hcurrent

theorem Rendezvous.leaves {sender receiver : ℤ} {node : MsgQueueNode} {made : List Event}
    (h : Rendezvous s sender receiver node made middle)
    (hcurrent : middle.currentTask = s.currentTask) :
    Leaves s (update (update (statusAt s) sender .awaitingReply) receiver .ready) middle where
  tid index := by
    by_cases hreceiver : index = receiver
    · rw [hreceiver, h.woken]
    by_cases hsender : index = sender
    · rw [hsender, h.blocked]
    · rw [h.others index hsender hreceiver]
  status := by
    funext index
    rw [update_apply, update_apply]
    split_ifs with hreceiver hsender
    · rw [hreceiver, statusAt, h.woken, Task.status]
    · rw [hsender, statusAt, h.blocked, Task.status]
    · obtain ⟨_, hto, _⟩ := fields_of_message (h.nodes index hsender)
      rw [statusAt, h.others index hsender hreceiver, hto, statusAt]
  current := hcurrent

end Leaves

section Handlers

variable {s : State} {l : Layout}

theorem statusAt_eq_receiving_iff {index : ℤ} :
    statusAt s index = .receiving ↔ (s.task index).state = .sendBlocked := by
  rw [statusAt, Task.status]
  cases (s.task index).state <;> simp

theorem statusOf_of_alive {tid : ℤ} (halive : isTaskAlive s tid) :
    statusOf s tid = statusAt s (slot tid) :=
  if_pos ⟨nonneg_of_alive halive, tid_of_alive halive⟩

/-- A sender joins the mailbox of the task it sends to. -/
theorem Coherent.mailboxOf_append (h : Coherent s l) {tid : ℤ} (halive : isTaskAlive s tid) :
    mailboxOf s (l.queues.append (slot tid) l.current) =
      update (mailboxOf s l.queues) tid (mailboxOf s l.queues tid ++ [getCurrentTid s]) := by
  have htid : (s.task (slot tid)).tid = tid := tid_of_alive halive
  have hnonneg := nonneg_of_alive halive
  have hsenders : senders s (l.queues.append (slot tid) l.current) =
      update (senders s l.queues) (slot tid)
        (senders s l.queues (slot tid) ++ [getCurrentTid s]) := by
    funext index
    rw [update_apply, senders, h.dispatched.getCurrentTid_eq]
    split_ifs with hindex
    · rw [hindex, Lists.append_self, List.map_append]
      rfl
    · rw [Lists.append_of_ne _ _ hindex]
      rfl
  have hupdate := @byTid_update _ s [] (senders s l.queues) (slot tid) (by rw [htid])
    (htid.symm ▸ hnonneg) (senders s l.queues (slot tid) ++ [getCurrentTid s])
  rw [mailboxOf, hsenders, hupdate, htid, mailboxOf]
  congr 2
  exact (if_pos ⟨hnonneg, htid⟩).symm

/-- `SendProxy` refuses, hands the message over or has the caller wait in the mailbox. -/
theorem Coherent.views_sendProxy (h : Coherent s l)
    (hunlinked : ∀ queue, l.current ∉ l.queues queue) (uninit : MsgQueueNode) (tid : ℤ)
    (msg : ℕ) (msglen : Word) (reply : ℕ) (replylen : Word) :
    Views (sendProxy s uninit tid msg msglen reply replylen).2
      ((Op.send tid).apply (view s l.queues)) := by
  have hcurrent := h.dispatched.current
  rw [Op.apply, status_view, mailbox_view, running_view]
  by_cases halive : isTaskAlive s tid
  · have hbody := (isTaskAlive_iff_status h.dispatched.named).mp halive
    have hsends : Sends s l
        (sendNode uninit (s.task l.current).tid tid msg msglen reply replylen) :=
      ⟨rfl, halive, hunlinked⟩
    have hindex : InTable (slot tid) := hsends.slot_inTable
    have hstatus : statusOf s tid = .receiving ↔ (s.task (slot tid)).state = .sendBlocked := by
      rw [← statusAt_eq_receiving_iff, ← statusOf_of_alive halive]
    have htid : (s.task (slot tid)).tid = tid := tid_of_alive halive
    rw [if_neg hbody, h.dispatched.sendProxy_eq halive]
    by_cases hwaits : (s.task (slot tid)).state = .sendBlocked
    · have hdone := h.completed_handOver hsends hwaits
      obtain ⟨lists, hkernel⟩ := (Effect.handOver hsends hwaits hdone).inKernel h
      have hleaves := (h.rendezvous_handOver hsends hwaits).leaves
        (hkernel.current.trans hcurrent.symm)
      rw [if_pos hwaits, if_pos (hstatus.mpr hwaits)]
      apply hleaves.views (h.messages_handOver hsends hwaits hdone).represents
      have hsender := h.move_running (view s l.queues) (statusAt s) .awaitingReply
      have hreceiver := h.move_byTid hindex (allocated_of_alive halive) (view s l.queues)
        (update (statusAt s) l.current .awaitingReply) .ready
      rw [htid] at hreceiver
      exact (congrArg (fun w => w.move tid .ready) hsender).trans hreceiver
    · have hleaves := (blocks_queuedSend s l.current
        (sendNode uninit (s.task l.current).tid tid msg msglen reply replylen)).leaves rfl
      have hmessages := (Effect.send hsends hwaits).messages h
      rw [if_neg hwaits, if_neg (mt hstatus.mp hwaits)]
      apply hleaves.views hmessages.represents
      have hsender := h.move_running (view s l.queues) (statusAt s) (.sending tid)
      rw [← h.mailboxOf_append halive]
      exact congrArg (fun w : World ℤ Word => { w with
        mailbox := mailboxOf s (l.queues.append (slot tid) l.current) }) hsender
  · have hnobody := not_not.mp (mt (isTaskAlive_iff_status h.dispatched.named).mpr halive)
    rw [if_pos hnobody, sendProxy_of_not_alive halive]
    exact ⟨l.queues, h.messages.represents, rfl⟩

/-- The running task's own mailbox. -/
theorem Coherent.mailboxOf_current (h : Coherent s l) (queues : Lists ℤ ℤ) :
    mailboxOf s queues (getCurrentTid s) = senders s queues l.current := by
  rw [h.dispatched.getCurrentTid_eq, mailboxOf]
  exact byTid_tid h.dispatched.slot_tid
    (h.dispatched.named.tid_nonneg h.dispatched.inTable h.dispatched.allocated)

/-- The first sender leaves the mailbox of the running task. -/
theorem Coherent.mailboxOf_erase (h : Coherent s l) {head : ℤ} {rest : List ℤ}
    (hqueue : l.queues l.current = head :: rest) :
    mailboxOf s (l.queues.erase head) =
      update (mailboxOf s l.queues) (getCurrentTid s)
        (rest.map fun sender => (s.task sender).tid) := by
  have hmem : head ∈ l.queues l.current := by simp [hqueue]
  have hsenders : senders s (l.queues.erase head) =
      update (senders s l.queues) l.current (rest.map fun sender => (s.task sender).tid) := by
    funext index
    rw [update_apply, senders]
    split_ifs with hindex
    · rw [hindex, Lists.erase, hqueue, List.erase_cons_head]
    · have hother : head ∉ l.queues index := fun hhead =>
        hindex (h.messages.represents.disjoint hhead hmem)
      rw [Lists.erase_of_not_mem hother, senders]
  rw [mailboxOf, hsenders, byTid_update h.dispatched.slot_tid
    (h.dispatched.named.tid_nonneg h.dispatched.inTable h.dispatched.allocated),
    h.dispatched.getCurrentTid_eq, mailboxOf]

/-- `ReceiveProxy` waits, or takes the message of the first sender. -/
theorem Coherent.views_receiveProxy (h : Coherent s l) (haddressed : Addressed s l.queues)
    (hoccupied : Occupied s l.queues) (uninit : MsgQueueNode) (links : QueueNode ℤ)
    (tid msg : ℕ) (msglen : Word) :
    Views (receiveProxy s uninit links tid msg msglen).2
      (Op.receive.apply (view s l.queues)) := by
  have hcurrent := h.dispatched.current
  have hmailbox := h.mailboxOf_current l.queues
  cases hqueue : l.queues l.current with
  | nil =>
      rw [senders, hqueue, List.map_nil] at hmailbox
      rw [h.dispatched.receiveProxy_of_empty h.messages.represents hqueue,
        Op.apply_receive_of_nil hmailbox]
      have hleaves := (blocks_waitingReceive s l.current (uninit.withReceive tid msg msglen)
        links).leaves rfl
      have hmessages := h.messages.waitingReceive h.dispatched (haddressed.unlinked h) hqueue
        (uninit.withReceive tid msg msglen) links
      apply hleaves.views hmessages.represents
      exact h.move_running (view s l.queues) (statusAt s) .receiving
  | cons head rest =>
      have hmem : head ∈ l.queues l.current := by simp [hqueue]
      have halloc := hoccupied.sender hmem
      have hindex := (h.messages.linked hmem).index_inTable
      rw [senders, hqueue, List.map_cons] at hmailbox
      rw [h.dispatched.receiveProxy_of_cons h.messages.represents hqueue,
        Op.apply_receive_of_cons hmailbox]
      have hlast : (head :: rest).getLast (by simp) ∈ head :: rest := List.getLast_mem _
      have hlive : NotDestroyed s (s.node head).fromTid := by
        intro _
        rw [(h.messages.linked hmem).slot_from]
        exact halloc
      have hdone := h.completed_take hqueue hlive ((head :: rest).getLast (by simp)) tid msg
        msglen
      obtain ⟨lists, hkernel⟩ := (Effect.take hqueue hlast hlive hdone).inKernel h
      have hleaves := (h.rendezvous_take haddressed hoccupied hqueue
        ((head :: rest).getLast (by simp)) tid msg msglen).leaves
        (hkernel.current.trans hcurrent.symm)
      -- the receiver was running, so that it is as ready as before
      have hready : statusAt s l.current = .ready := by
        rw [statusAt, Task.status, h.dispatched.running]
      have hsame : update (update (statusAt s) head .awaitingReply) l.current .ready =
          update (statusAt s) head .awaitingReply := by
        have hne : head ≠ l.current := ne_of_mem_of_not_mem hmem (haddressed.unlinked h _)
        rw [update_comm hne, ← hready, update_eq_self]
      rw [hsame] at hleaves
      apply hleaves.views (h.messages_take hqueue hlast hlive hdone).represents
      rw [mailbox_view, running_view, ← h.mailboxOf_erase hqueue]
      exact congrArg (fun w : World ℤ Word => { w with
        mailbox := mailboxOf s (l.queues.erase head) })
        (h.move_byTid hindex halloc (view s l.queues) (statusAt s) .awaitingReply)

theorem awaiting_iff_status {tid : ℤ} (hnamed : Named s) :
    Awaiting s tid ↔ statusOf s tid = .awaitingReply := by
  rw [awaiting_iff, isValidTid_iff, statusOf, byTid]
  constructor
  · rintro ⟨⟨hnonneg, _⟩, htid, hstate⟩
    rw [if_pos ⟨hnonneg, htid⟩, statusAt, Task.status, hstate]
  · intro hstatus
    split_ifs at hstatus with hown
    obtain ⟨hnonneg, htid⟩ := hown
    have hstate : (s.task (slot tid)).state = .replyBlocked := by
      rw [statusAt, Task.status] at hstatus
      cases hstate : (s.task (slot tid)).state <;> simp_all
    have hle := hnamed.tid_le (inTable_slot hnonneg) (allocated_of_state hstate (by decide))
    rw [htid] at hle
    exact ⟨⟨hnonneg, hle⟩, htid, hstate⟩

/-- One descriptor changes, and no node. -/
theorem leaves_of_update {middle : State} {index : ℤ} {task : Task}
    (htask : middle.task = update s.task index task)
    (htid : task.tid = (s.task index).tid) (hnode : middle.node = s.node)
    (hcurrent : middle.currentTask = s.currentTask) :
    Leaves s (update (statusAt s) index (task.status (s.node index).toTid)) middle where
  tid other := by
    rw [htask, update_apply]
    split_ifs with hother
    · rw [htid, hother]
    · rfl
  status := by
    funext other
    rw [update_apply, statusAt, htask, hnode, update_apply]
    split_ifs with hother
    · rw [hother]
    · rfl
  current := hcurrent

/-- `ReplyProxy` wakes a task that waits for a reply, and does nothing otherwise. -/
theorem Coherent.views_replyProxy (h : Coherent s l) (tid : ℤ) (reply : ℕ) (replylen : Word) :
    Views (replyProxy s tid reply replylen).2 ((Op.reply tid).apply (view s l.queues)) := by
  have hstatus := @awaiting_iff_status s tid h.dispatched.named
  rw [Op.apply, status_view]
  by_cases hawaits : Awaiting s tid
  · obtain ⟨queues, heq⟩ := h.exists_replyProxy hawaits reply replylen
    obtain ⟨hvalid, htid, hstate⟩ := awaiting_iff.mp hawaits
    have hindex := inTable_slot (isValidTid_iff.mp hvalid).1
    have hhandled := h.handled_replyProxy tid reply replylen
    obtain ⟨lists, hkernel⟩ := hhandled.inKernel
    have htask : (replyProxy s tid reply replylen).2.task =
        update s.task (slot tid) { s.task (slot tid) with state := .ready } := by
      rw [heq]
      rfl
    have hleaves := leaves_of_update htask rfl hhandled.quiet.node
      (hkernel.current.trans h.dispatched.current.symm)
    have hrep : Represents (replyProxy s tid reply replylen).2.msgQueues l.queues := by
      rw [hhandled.quiet.msgQueues]
      exact h.messages.represents
    rw [if_pos (hstatus.mp hawaits)]
    apply hleaves.views hrep
    have hmoved := h.move_byTid hindex (allocated_of_state hstate (by decide))
      (view s l.queues) (statusAt s) .ready
    rw [htid] at hmoved
    exact hmoved
  · obtain ⟨error, _, hrefused⟩ := replyProxy_refused hawaits reply replylen
    rw [if_neg (mt hstatus.mpr hawaits), hrefused]
    exact ⟨l.queues, h.messages.represents, rfl⟩

/-- The running task changes, and no message. -/
theorem Coherent.views_of_update (h : Coherent s l) {middle : State} {task : Task}
    {status : Status ℤ Word} (htask : middle.task = update s.task l.current task)
    (htid : task.tid = (s.task l.current).tid)
    (hstatus : task.status (s.node l.current).toTid = status) (hnode : middle.node = s.node)
    (hqueues : middle.msgQueues = s.msgQueues) (hcurrent : middle.currentTask = s.currentTask) :
    Views middle ((view s l.queues).move (getCurrentTid s) status) := by
  have hleaves := leaves_of_update htask htid hnode hcurrent
  have hrep : Represents middle.msgQueues l.queues := by
    rw [hqueues]
    exact h.messages.represents
  rw [hstatus] at hleaves
  exact hleaves.views hrep (h.move_running (view s l.queues) (statusAt s) status)

theorem Coherent.views_exitTask (h : Coherent s l) :
    Views (exitTask s) (Op.exit.apply (view s l.queues)) := by
  have hcurrent := h.dispatched.current_eq
  have htask : (exitTask s).task =
      update s.task l.current { s.task l.current with state := .zombie } := by
    rw [← hcurrent]
    rfl
  exact h.views_of_update htask rfl rfl rfl rfl rfl

theorem Coherent.views_awaitEventHandler (h : Coherent s l) (event : Word) :
    Views (awaitEventHandler s event).2 ((Op.await event).apply (view s l.queues)) := by
  have hcurrent := h.dispatched.current_eq
  have htask : (awaitEventHandler s event).2.task =
      update s.task l.current
        { s.task l.current with awaitingEventId := event, state := .eventBlocked } := by
    rw [← hcurrent]
    simp [awaitEventHandler, setCurrentTaskState, enableInterrupt, State.setTask, State.current]
  exact h.views_of_update htask rfl rfl rfl rfl rfl

theorem status_of_running {task : Task} {receiver : ℤ} (hrunning : task.state.Running) :
    task.status receiver = .ready := by
  rcases hrunning with hstate | hstate <;> rw [Task.status, hstate]

theorem running_of_stirs {task task' : Task} (hstirs : Stirs task task')
    (hunaffected : Unaffected task.state task'.state) (hactive : task.state = .active) :
    task'.state.Running := by
  rcases hunaffected with hsame | ⟨_, hnot⟩
  · exact .inr (hsame.trans hactive)
  · rcases hstirs.state with hsame | ⟨_, hvalue, hevent⟩
    · exact .inr (hsame.trans hactive)
    · cases hstate : task'.state <;>
        simp_all [TaskState.Running, TaskState.Exchanging, TaskState.value]

/-- A local call other than `Exit` and `AwaitEvent` changes nothing. -/
theorem Coherent.views_of_local (h : Coherent s l) {middle : State} {call : Call} {fuel : ℕ}
    {trap : Trap} {result : ℤ} (hhandle : handle s fuel trap call = some (result, middle))
    (hlocal : call.Local) (hexit : call ≠ .exit)
    (hawait : ∀ eventid, call ≠ .awaitEvent eventid) :
    Views middle (view s l.queues) := by
  have hhandled := h.handledQuietly_of_local hlocal hhandle
  obtain ⟨lists, hkernel⟩ := hhandled.inKernel
  have hstatus : statusAt middle = statusAt s := by
    funext index
    rw [statusAt, statusAt, hhandled.quiet.node]
    by_cases hindex : index = l.current
    · have hrunning : (middle.task l.current).state.Running :=
        running_of_stirs (h.stirs_of_local hhandle hlocal hexit hawait l.current)
          (hhandled.quiet.state l.current) h.dispatched.running
      rw [hindex, status_of_running hrunning, status_of_running (.inr h.dispatched.running)]
    · rw [h.task_of_local hlocal hhandle hindex]
  have hleaves : Leaves s (statusAt s) middle :=
    ⟨hhandled.quiet.keeps.tid, hstatus, hkernel.current.trans h.dispatched.current.symm⟩
  have hrep : Represents middle.msgQueues l.queues := by
    rw [hhandled.quiet.msgQueues]
    exact h.messages.represents
  exact hleaves.views hrep rfl

/-- A task that awaits an event, as its descriptor says it. -/
theorem awaiting_of_status {tid : ℤ} {event : Word}
    (hstatus : statusOf s tid = .awaiting event) :
    InTable (slot tid) ∧ (s.task (slot tid)).state = .eventBlocked ∧
      (s.task (slot tid)).awaitingEventId = event := by
  rw [statusOf, byTid] at hstatus
  split_ifs at hstatus with hown
  refine ⟨inTable_slot hown.1, ?_⟩
  rw [statusAt, Task.status] at hstatus
  cases hstate : (s.task (slot tid)).state <;> simp_all

/-- An interrupt wakes a task that waits for it, if there is one. -/
theorem Coherent.views_handleIrq (h : Coherent s l) {middle : State} {fuel : ℕ}
    {intrCode : ℤ} {trap : Trap} {time : Word}
    (hirq : handleIrq s fuel intrCode trap.timer = some (time, middle)) :
    ∃ op, Performs s (.interrupt intrCode trap) op ∧ op.Enabled (view s l.queues) ∧
      Views middle (op.apply (view s l.queues)) := by
  have hkernel := h.dispatched.toInKernel
  have hhandled := hkernel.handled_handleIrq hirq
  obtain ⟨lists, hafter⟩ := hhandled.inKernel
  have hcurrent := hafter.current.trans h.dispatched.current.symm
  have hrep : Represents middle.msgQueues l.queues := by
    rw [hhandled.quiet.msgQueues]
    exact h.messages.represents
  have htask : middle.task = awakened s.task (wokenBy s l.lists intrCode) := by
    rw [hkernel.task_handleIrq_eq hirq, wokenBy]
    split_ifs <;> rfl
  have hsame : middle.task = s.task → Views middle (view s l.queues) := by
    intro hsame
    have hstatus : statusAt middle = statusAt s := by
      funext index
      rw [statusAt, statusAt, hhandled.quiet.node, hsame]
    have hleaves : Leaves s (statusAt s) middle :=
      ⟨hhandled.quiet.keeps.tid, hstatus, hcurrent⟩
    exact hleaves.views hrep rfl
  by_cases hneg : intrCode < 0
  · cases hwoken : wokenBy s l.lists intrCode with
    | none =>
        rw [hwoken] at htask
        refine ⟨.interrupt ((1 : Word) <<< (-intrCode).toNat) none, ?_, ?_, hsame htask⟩
        · rw [Performs, if_pos hneg]
          exact ⟨none, rfl⟩
        · intro tid hstatus
          obtain ⟨hindex, hblocked, hwaits⟩ := awaiting_of_status hstatus
          obtain ⟨head, hhead⟩ := h.exists_wokenBy hneg hindex hblocked hwaits
          rw [hwoken] at hhead
          simp at hhead
    | some index =>
        obtain ⟨hindex, hblocked, hwaits⟩ := h.of_wokenBy hwoken
        have halloc := allocated_of_state hblocked (by decide)
        have hslot := h.dispatched.named.slot_tid hindex halloc
        rw [hwoken] at htask
        have hleaves := leaves_of_update htask rfl hhandled.quiet.node hcurrent
        refine ⟨.interrupt ((1 : Word) <<< (-intrCode).toNat) (some (s.task index).tid),
          ?_, ?_, ?_⟩
        · rw [Performs, if_pos hneg]
          exact ⟨_, rfl⟩
        · rw [Op.Enabled, status_view, statusOf,
            byTid_tid hslot (h.dispatched.named.tid_nonneg hindex halloc), statusAt,
            Task.status, hblocked, hwaits]
        · apply hleaves.views hrep
          exact h.move_byTid hindex halloc (view s l.queues) (statusAt s) .ready
  · rw [wokenBy, if_neg hneg] at htask
    refine ⟨.other, ?_, trivial, hsame htask⟩
    rw [Performs, if_neg hneg]

/-- The tid that the next task of a descriptor gets. -/
theorem Numbered.next_tid (h : Numbered s) {index : ℤ} (hindex : InTable index) :
    0 ≤ (s.task index).tid + maxTasks ∧ slot ((s.task index).tid + maxTasks) = index := by
  have hlower := h.tid_lower hindex
  have hnonneg : 0 ≤ (s.task index).tid + maxTasks := by omega
  refine ⟨hnonneg, ?_⟩
  rw [slot_eq_emod hnonneg, Int.add_emod_right, h.tid_emod hindex]

/-- A free descriptor is no sender and has none. -/
theorem senders_created (hoccupied : Occupied s l.queues) {index : ℤ}
    (hfree : (s.task index).state = .free) (priority : Priority) (code : Word) :
    senders (created s index priority code) l.queues = senders s l.queues ∧
      senders s l.queues index = [] := by
  have hunused := not_allocated_of_free hfree
  constructor
  · funext queue
    rw [senders, senders]
    apply List.map_congr_left
    intro sender hmem
    have hne : sender ≠ index := by
      rintro rfl
      exact hunused (hoccupied.sender hmem)
    rw [task_created_of_ne _ _ hne]
  · rw [senders, List.map_eq_nil_iff, List.eq_nil_iff_forall_not_mem]
    exact fun sender hmem => hunused (hoccupied.receiver hmem)

/-- The descriptor of a new task tells of no other task. -/
theorem byTid_created {A : Type*} {absent : A} {f f' : ℤ → A} {index : ℤ}
    (hslot : slot ((s.task index).tid + maxTasks) = index)
    (hnonneg : 0 ≤ (s.task index).tid + maxTasks) (hold : f index = absent)
    (hothers : ∀ other, other ≠ index → f' other = f other) (priority : Priority)
    (code : Word) :
    byTid (created s index priority code) absent f' =
      update (byTid s absent f) ((s.task index).tid + maxTasks) (f' index) := by
  have hself := task_created_self s index priority code
  have htid : ((created s index priority code).task index).tid =
      (s.task index).tid + maxTasks := by rw [hself, newTask]
  funext tid
  rw [byTid, update_apply, byTid]
  by_cases hnew : tid = (s.task index).tid + maxTasks
  · rw [if_pos hnew, hnew, hslot, htid, if_pos ⟨hnonneg, rfl⟩]
  · rw [if_neg hnew]
    by_cases hindex : slot tid = index
    · rw [hindex, htid, hold, ite_self, if_neg fun hown => hnew hown.2.symm]
    · rw [task_created_of_ne _ _ hindex, hothers _ hindex]

/-- A new task has a tid that no task had. -/
theorem Coherent.view_created (h : Coherent s l) (hoccupied : Occupied s l.queues) {index : ℤ}
    {rest : List ℤ} (hqueue : l.lists .available = index :: rest) (priority : Priority)
    (code : Word) :
    statusOf s ((s.task index).tid + maxTasks) = .unborn ∧
      view (created s index priority code) l.queues =
        (view s l.queues).move ((s.task index).tid + maxTasks) .ready := by
  obtain ⟨hindex, hfree⟩ := h.free_of_available hqueue
  obtain ⟨hsenders, hnone⟩ := senders_created hoccupied hfree priority code
  obtain ⟨hnonneg, hslot⟩ := h.numbered.next_tid hindex
  have hunborn : statusAt s index = .unborn := by rw [statusAt, Task.status, hfree]
  have hself := task_created_self s index priority code
  have hready : statusAt (created s index priority code) index = .ready := by
    rw [statusAt, hself]
    rfl
  have hold : statusOf s ((s.task index).tid + maxTasks) = .unborn := by
    rw [statusOf, byTid, hslot, hunborn, ite_self]
  have hstatus : statusOf (created s index priority code) =
      update (statusOf s) ((s.task index).tid + maxTasks) .ready := by
    rw [statusOf, statusOf, byTid_created hslot hnonneg hunborn _ priority code, hready]
    intro other hother
    rw [statusAt, task_created_of_ne _ _ hother]
    rfl
  have hmailbox : mailboxOf (created s index priority code) l.queues = mailboxOf s l.queues := by
    rw [mailboxOf, hsenders, byTid_created hslot hnonneg hnone (fun _ _ => rfl), hnone,
      mailboxOf]
    apply update_eq_self_iff.mpr
    rw [byTid, hslot, hnone, ite_self]
  have hrunning : getCurrentTid (created s index priority code) = getCurrentTid s := by
    have hne : l.current ≠ index := by
      rintro rfl
      rw [h.dispatched.running] at hfree
      simp at hfree
    have hcurrent : (created s index priority code).currentTask = some l.current :=
      h.dispatched.current
    rw [getCurrentTid, hcurrent, h.dispatched.getCurrentTid_eq]
    exact congrArg Task.tid (task_created_of_ne _ _ hne)
  refine ⟨hold, ?_⟩
  rw [view, hstatus, hmailbox, hrunning]
  rfl

/-- `CreateTaskSafe` refuses, or starts a task that was never there. -/
theorem Coherent.views_createTaskSafe (h : Coherent s l) (hoccupied : Occupied s l.queues)
    (priority : ℤ) (code : Word) :
    ∃ new, (Op.create new).Enabled (view s l.queues) ∧
      Views (createTaskSafe s priority code).2 ((Op.create new).apply (view s l.queues)) := by
  have hrefused : Views s (view s l.queues) := ⟨l.queues, h.messages.represents, rfl⟩
  rw [createTaskSafe]
  split_ifs
  · exact ⟨none, trivial, hrefused⟩
  · cases hqueue : l.lists .available with
    | nil =>
        rw [createTask_of_empty h.dispatched.partition hqueue]
        exact ⟨none, trivial, hrefused⟩
    | cons index rest =>
        rw [createTask_eq h.dispatched.partition h.family hqueue]
        obtain ⟨hunborn, hview⟩ :=
          h.view_created hoccupied hqueue (Priority.ofInt priority) code
        exact ⟨some ((s.task index).tid + maxTasks), hunborn, l.queues,
          (h.messages.created _ _ _).represents, hview.symm⟩

end Handlers

/-! ## Rounds -/

section Rounds

variable {s s' middle : State} {l : Layout} {action : Action}

/-- What follows the handler changes only which task runs. -/
theorem Resumed.views {c : ℤ} {sp : ℕ} (h : Resumed middle c sp s') {w : World ℤ Word}
    (hviews : Views middle w) : Views s' { w with running := getCurrentTid s' } := by
  obtain ⟨queues, hrep, rfl⟩ := hviews
  have hstatus : statusAt s' = statusAt middle := by
    funext index
    rw [statusAt, statusAt, h.quiet.node]
    rcases h.turns index with hsame | ⟨hbefore, hafter⟩
    · rw [Task.status, Task.status, hsame, h.awaiting]
    · rw [status_of_running hbefore, status_of_running hafter]
  have hsenders : senders s' queues = senders middle queues := by
    funext index
    rw [senders, senders]
    exact List.map_congr_left fun sender _ => h.quiet.keeps.tid sender
  refine ⟨queues, ?_, ?_⟩
  · rw [h.quiet.msgQueues]
    exact hrep
  · rw [view, view, statusOf, statusOf, mailboxOf, mailboxOf,
      byTid_congr h.quiet.keeps.tid, byTid_congr h.quiet.keeps.tid, hstatus, hsenders]

/-- The handler does what the action performs. -/
theorem Undestroyed.views_of_handles (h : Undestroyed s l) (hno : NoDestroy s action)
    (hhandles : Handles s action middle) :
    ∃ op, Performs s action op ∧ op.Enabled (view s l.queues) ∧
      Views middle (op.apply (view s l.queues)) := by
  have hentered := h.toCoherent.enter action.trap
  have hquiet := (silent_entered s action.trap).quiet
  have haddressed := h.addressed.quiet hquiet
  have hoccupied := h.occupied.quiet hquiet
  cases action with
  | interrupt intrCode trap =>
      obtain ⟨fuel, time, hirq⟩ := hhandles
      exact hentered.views_handleIrq hirq
  | call call trap =>
      obtain ⟨fuel, result, hhandle⟩ := hhandles
      cases call with
      | destroy tid => exact hno.elim
      | create priority code =>
          obtain rfl := eq_of_handle hhandle
          obtain ⟨new, henabled, hviews⟩ :=
            hentered.views_createTaskSafe hoccupied priority code
          exact ⟨_, ⟨new, rfl⟩, henabled, hviews⟩
      | send tid msg msglen reply replylen =>
          obtain rfl := eq_of_handle hhandle
          exact ⟨_, rfl, trivial, hentered.views_sendProxy (haddressed.unlinked hentered) _ _ _ _
            _ _⟩
      | receive tid msg msglen =>
          obtain rfl := eq_of_handle hhandle
          exact ⟨_, rfl, trivial, hentered.views_receiveProxy haddressed hoccupied _ _ _ _ _⟩
      | reply tid reply replylen =>
          obtain rfl := eq_of_handle hhandle
          exact ⟨_, rfl, trivial, hentered.views_replyProxy tid reply replylen⟩
      | exit =>
          obtain rfl := eq_of_handle hhandle
          exact ⟨_, rfl, trivial, hentered.views_exitTask⟩
      | awaitEvent event =>
          obtain rfl := eq_of_handle hhandle
          exact ⟨_, rfl, trivial, hentered.views_awaitEventHandler event⟩
      | _ =>
          refine ⟨_, rfl, trivial, hentered.views_of_local hhandle ?_ ?_ ?_⟩
          · trivial
          · exact nofun
          · exact nofun

end Rounds

end Rtk.Kernel
