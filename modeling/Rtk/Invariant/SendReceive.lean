import Rtk.Invariant.Exchange

/-!
# `SendProxy`, `ReceiveProxy` and `ReplyProxy`

Each proxy is broken into the writes that prepare a node and, where the
rendezvous takes place, `CompleteReceive`.  Sending and waiting overwrite the
caller's own node, links included, so they ask that it is in no queue.
-/

namespace Rtk.Kernel

open Function
open Rtk.ByteMemory
open Rtk.Lib

/-! ## Checks -/

theorem getTaskState_eq_iff {s : State} {tid : ℤ} {state : TaskState}
    (hstate : state ≠ .free) :
    getTaskState s tid = state ↔
      (s.task (slot tid)).tid = tid ∧ (s.task (slot tid)).state = state := by
  simp only [getTaskState]
  split_ifs with htid
  · simp [htid, Ne.symm hstate]
  · rw [not_not] at htid
    simp [htid]

theorem isTaskAlive_iff {s : State} {tid : ℤ} :
    isTaskAlive s tid ↔
      0 ≤ tid ∧ tid ≤ longMax ∧ (s.task (slot tid)).tid = tid ∧
        0 < (s.task (slot tid)).state.value := by
  simp only [isTaskAlive, isValidTid, Bool.and_eq_true, decide_eq_true_eq,
    getTaskState]
  split_ifs with htid
  · simp [htid, TaskState.value]
  · rw [not_not] at htid
    simp [htid, and_assoc]

theorem tid_of_alive {s : State} {tid : ℤ} (halive : isTaskAlive s tid) :
    (s.task (slot tid)).tid = tid := (isTaskAlive_iff.mp halive).2.2.1

theorem nonneg_of_alive {s : State} {tid : ℤ} (halive : isTaskAlive s tid) : 0 ≤ tid :=
  (isTaskAlive_iff.mp halive).1

theorem allocated_of_alive {s : State} {tid : ℤ} (halive : isTaskAlive s tid) :
    Allocated s (slot tid) := by
  obtain ⟨_, _, _, hstate⟩ := isTaskAlive_iff.mp halive
  rw [Allocated]
  omega

/-! ## Preparing a node -/

/-- `s` once the message `n` of the running task `c` is queued and `c` is
blocked. -/
def queuedSend (s : State) (c : ℤ) (n : MsgQueueNode) : State :=
  { s with
    node := update s.node c n
    msgQueues := (s.msgQueues.setNode c QueueNode.null).enqueueQueue (slot n.toTid) c
    task := update s.task c { s.task c with state := .receiveBlocked }
    log := s.log ++ [.sent n] }

def waitingReceive (s : State) (c : ℤ) (n : MsgQueueNode) (links : QueueNode ℤ) :
    State :=
  { s with
    node := update s.node c n
    msgQueues := s.msgQueues.setNode c links
    task := update s.task c { s.task c with state := .sendBlocked }
    log := s.log ++ [.waiting (s.task c).tid n.putTid n.receiveBuffer
      n.receiveBufferSize] }

/-- `s` once the node of `index` has the pointers of a `Receive`. -/
def withPointers (s : State) (index : ℤ) (putTid msg : ℕ) (msglen : Word) :
    State :=
  s.setMsgNode index ((s.node index).withReceive putTid msg msglen)

/-- The calling task `c` blocks in `state` with `n` in its node. -/
structure Blocks (s : State) (c : ℤ) (state : TaskState) (n : MsgQueueNode) (s' : State) :
    Prop where
  task : s'.task c = { s.task c with state := state }
  node : s'.node c = n
  others : ∀ index, index ≠ c → s'.task index = s.task index
  nodes : ∀ index, index ≠ c → s'.node index = s.node index

theorem blocks_queuedSend (s : State) (c : ℤ) (n : MsgQueueNode) :
    Blocks s c .receiveBlocked n (queuedSend s c n) where
  task := update_self _ _ _
  node := update_self _ _ _
  others _ hindex := update_of_ne hindex _ _
  nodes _ hindex := update_of_ne hindex _ _

theorem blocks_waitingReceive (s : State) (c : ℤ) (n : MsgQueueNode) (links : QueueNode ℤ) :
    Blocks s c .sendBlocked n (waitingReceive s c n links) where
  task := update_self _ _ _
  node := update_self _ _ _
  others _ hindex := update_of_ne hindex _ _
  nodes _ hindex := update_of_ne hindex _ _

section Proxies

variable {s : State} {c : ℤ} {lists : Lists TaskQueue ℤ}

theorem sendProxy_of_not_alive {tid : ℤ} (halive : ¬isTaskAlive s tid)
    (uninit : MsgQueueNode) (msg : ℕ) (msglen : Word) (reply : ℕ)
    (replylen : Word) :
    (sendProxy s uninit tid msg msglen reply replylen).2 = s := by
  simp only [sendProxy, halive]
  split_ifs <;> simp_all

theorem Dispatched.slot_tid (h : Dispatched s c lists) :
    slot (s.task c).tid = c :=
  h.named.slot_tid h.inTable h.allocated

/-- An accepted `Send` queues its message, and hands it over at once when the
receiver waits. -/
theorem Dispatched.sendProxy_eq (h : Dispatched s c lists) {tid : ℤ}
    (halive : isTaskAlive s tid) (uninit : MsgQueueNode) (msg : ℕ) (msglen : Word)
    (reply : ℕ) (replylen : Word) :
    sendProxy s uninit tid msg msglen reply replylen =
      if (s.task (slot tid)).state = .sendBlocked then
        completeReceive
          (withPointers
            (queuedSend s c
              (sendNode uninit (s.task c).tid tid msg msglen reply replylen))
            c (s.node (slot tid)).putTid (s.node (slot tid)).receiveBuffer
            (s.node (slot tid)).receiveBufferSize) tid
      else
        (returnStatusOk, queuedSend s c
          (sendNode uninit (s.task c).tid tid msg msglen reply replylen)) := by
  generalize hn : sendNode uninit (s.task c).tid tid msg msglen reply replylen = n
  have hto : n.toTid = tid := by rw [← hn, sendNode]
  have hvalid : isValidTid tid := by
    rw [isTaskAlive, Bool.and_eq_true] at halive
    exact halive.1
  have hqueued : setCurrentTaskState
      { (s.copyMsgNode c n QueueNode.null).emit (.sent n) with
        msgQueues := ((s.copyMsgNode c n QueueNode.null).emit
          (.sent n)).msgQueues.enqueueQueue (slot tid) c } .receiveBlocked =
        queuedSend s c n := by
    have hcurrent : State.current
        { (s.copyMsgNode c n QueueNode.null).emit (.sent n) with
          msgQueues := ((s.copyMsgNode c n QueueNode.null).emit
            (.sent n)).msgQueues.enqueueQueue (slot tid) c } = c := h.current_eq
    rw [setCurrentTaskState, hcurrent, queuedSend, hto]
    rfl
  have hstate : getTaskState (queuedSend s c n) tid = .sendBlocked ↔
      (s.task (slot tid)).state = .sendBlocked := by
    rw [getTaskState_eq_iff (by decide)]
    by_cases hself : slot tid = c
    · simp [queuedSend, hself, h.running]
    · simp [queuedSend, hself, tid_of_alive halive]
  simp only [sendProxy, hvalid, halive, Bool.not_true, Bool.false_eq_true,
    if_false, h.getCurrentTid_eq, h.slot_tid, hn, hqueued, hstate]
  split_ifs with hblocked
  · have hother : slot tid ≠ c := by
      intro hself
      rw [hself, h.running] at hblocked
      simp at hblocked
    rw [(blocks_queuedSend s c n).nodes _ hother]
    rfl
  · rfl

/-- A `Receive` that finds no message waits. -/
theorem Dispatched.receiveProxy_of_empty (h : Dispatched s c lists)
    {queues : Lists ℤ ℤ} (hrep : Represents s.msgQueues queues)
    (hempty : queues c = []) (uninit : MsgQueueNode) (links : QueueNode ℤ)
    (tid msg : ℕ) (msglen : Word) :
    receiveProxy s uninit links tid msg msglen =
      (returnStatusOk,
        waitingReceive s c (uninit.withReceive tid msg msglen) links) := by
  have hfirst : (s.msgQueues.queue c).first = none := by
    rw [(hrep.contents c).first, hempty, List.head?_nil]
  simp only [receiveProxy, h.getCurrentTid_eq, h.slot_tid, hfirst, if_true,
    setCurrentTaskState, h.current_eq]
  rfl

/-- A `Receive` that finds messages puts its pointers into the newest node and
completes with the oldest. -/
theorem Dispatched.receiveProxy_of_cons (h : Dispatched s c lists)
    {queues : Lists ℤ ℤ} (hrep : Represents s.msgQueues queues) {head : ℤ}
    {rest : List ℤ} (hqueue : queues c = head :: rest) (uninit : MsgQueueNode)
    (links : QueueNode ℤ) (tid msg : ℕ) (msglen : Word) :
    receiveProxy s uninit links tid msg msglen =
      completeReceive
        (withPointers s ((head :: rest).getLast (by simp)) tid msg msglen)
        (s.task c).tid := by
  have hfirst : (s.msgQueues.queue c).first ≠ none := by
    rw [(hrep.contents c).first, hqueue]
    simp
  have hlast : (s.msgQueues.queue c).last =
      some ((head :: rest).getLast (by simp)) := by
    rw [(hrep.contents c).last, hqueue, List.getLast?_eq_some_getLast]
  simp only [receiveProxy, h.getCurrentTid_eq, h.slot_tid, hfirst, if_false,
    hlast, Option.getD_some]
  rfl

/-- A handler that blocks the running task. -/
theorem Dispatched.handled_blocked (h : Dispatched s c lists) {s' : State}
    (state : TaskState) (hstate : 0 ≤ state.value)
    (htask : s'.task = update s.task c { s.task c with state := state })
    (hcurrent : s'.currentTask = s.currentTask)
    (hqueues : s'.taskQueues = s.taskQueues)
    (hsiblings : s'.siblings = s.siblings) : Handled s c s' := by
  have hkeeps : Keeps s s' := .of_update htask h.allocated hstate rfl rfl
  have hset : Keeps s (s.setTask c { s.task c with state := state }) :=
    .of_update rfl h.allocated hstate rfl rfl
  refine ⟨⟨lists, (h.toInKernel.setCurrent hset).congr htask hcurrent hqueues⟩,
    hkeeps, hsiblings, ?_, ?_⟩
  · intro index hindex _
    rw [htask, update_of_ne hindex]
  · intro index hwas
    by_cases hindex : index = c
    · subst index
      exact h.running
    · rwa [htask, update_of_ne hindex] at hwas

end Proxies

/-! ## Replies -/

/-- The task can be answered. -/
def Awaiting (s : State) (tid : ℤ) : Prop :=
  isTaskAlive s tid ∧ getTaskState s tid = .replyBlocked

instance (s : State) (tid : ℤ) : Decidable (Awaiting s tid) :=
  inferInstanceAs (Decidable (_ ∧ _))

/-- `s` once `ReplyProxy` has copied the reply for the sender of the node `n`. -/
def replied (s : State) (n : MsgQueueNode) (reply : ℕ) (replylen : Word) : State :=
  if n.replyBuffer ≠ nullAddress ∧ reply ≠ nullAddress then
    s.copy n.replyBuffer reply (min n.replyBufferSize replylen).toNat
  else s

section Reply

variable {s : State} {tid : ℤ}

theorem Silent.replied (s : State) (n : MsgQueueNode) (reply : ℕ) (replylen : Word) :
    Silent s (replied s n reply replylen) := by
  rw [Kernel.replied]
  split_ifs
  · exact .copy s _ _ _
  · exact .refl s

theorem awaiting_iff :
    Awaiting s tid ↔
      isValidTid tid ∧ (s.task (slot tid)).tid = tid ∧
        (s.task (slot tid)).state = .replyBlocked := by
  rw [Awaiting, getTaskState_eq_iff (by decide), isTaskAlive_iff, isValidTid,
    decide_eq_true_iff]
  constructor
  · rintro ⟨⟨hnonneg, hle, _⟩, hnamed⟩
    exact ⟨⟨hnonneg, hle⟩, hnamed⟩
  · rintro ⟨⟨hnonneg, hle⟩, htid, hstate⟩
    refine ⟨⟨hnonneg, hle, htid, ?_⟩, htid, hstate⟩
    rw [hstate]
    decide

/-- A `Reply` to a task that waits for one copies the reply and wakes the task. -/
theorem Awaiting.replyProxy_eq (h : Awaiting s tid) (reply : ℕ) (replylen : Word) :
    replyProxy s tid reply replylen =
      (if (s.node (slot tid)).replyBufferSize.slt replylen then errBufferTooSmall
        else returnStatusOk,
        setTaskReturnValue
          (setTaskState (replied s (s.node (slot tid)) reply replylen)
            (s.node (slot tid)).fromTid .ready)
          (s.node (slot tid)).fromTid replylen.toInt) := by
  have hvalid : isValidTid tid := (awaiting_iff.mp h).1
  obtain ⟨halive, hstate⟩ := h
  simp only [replyProxy, hvalid, halive, hstate, Bool.not_true, Bool.false_eq_true,
    if_false, ne_eq, not_true_eq_false]
  rw [replied]
  split_ifs <;> rfl

/-- Any other `Reply` returns an error and changes nothing. -/
theorem replyProxy_refused (hawaits : ¬Awaiting s tid) (reply : ℕ) (replylen : Word) :
    ∃ error, error < 0 ∧ replyProxy s tid reply replylen = (error, s) := by
  rw [replyProxy]
  split_ifs with hvalid halive hstate
  · exact ⟨_, by decide, rfl⟩
  · exact ⟨_, by decide, rfl⟩
  · exact ⟨_, by decide, rfl⟩
  all_goals
    rw [Bool.not_eq_true, Bool.not_eq_false'] at halive
    rw [not_ne_iff] at hstate
    exact absurd ⟨halive, hstate⟩ hawaits

end Reply

/-! ## The messages -/

section Messages

variable {s : State} {c : ℤ} {lists : Lists TaskQueue ℤ} {queues : Lists ℤ ℤ}

/-- The pointers of a `Receive` do not show in the other fields of a node. -/
theorem fields_withPointers (s : State) (index : ℤ) (putTid msg : ℕ)
    (msglen : Word) (other : ℤ) :
    ((withPointers s index putTid msg msglen).node other).fromTid =
        (s.node other).fromTid ∧
      ((withPointers s index putTid msg msglen).node other).toTid =
        (s.node other).toTid ∧
      ((withPointers s index putTid msg msglen).node other).message =
        (s.node other).message := by
  by_cases hother : other = index
  · subst other
    simp [withPointers, State.setMsgNode, MsgQueueNode.withReceive,
      MsgQueueNode.message]
  · simp [withPointers, State.setMsgNode, hother]

theorem Posted.withPointers (h : Posted s queues) (index : ℤ) (putTid msg : ℕ)
    (msglen : Word) : Posted (withPointers s index putTid msg msglen) queues := by
  have hfields := fields_withPointers s index putTid msg msglen
  refine ⟨h.represents, ?_, ?_, ?_, ?_⟩
  · intro queue other hmem
    exact (h.linked hmem).frame (hfields other).1 (hfields other).2.1 (Int.le_refl _)
  · intro queue other hmem halloc
    rw [(hfields other).1]
    exact h.state_of_linked hmem halloc
  · intro other hother hstate
    rw [(hfields other).1, (hfields other).2.2]
    exact h.receiveBlocked hother hstate
  · intro other hother hstate
    rw [(hfields other).1, (hfields other).2.2]
    exact h.replyBlocked hother hstate

theorem Awaits.withPointers {index other : ℤ} (h : Awaits s queues other)
    (hne : other ≠ index) (putTid msg : ℕ) (msglen : Word) :
    Awaits (withPointers s index putTid msg msglen) queues other := by
  have hnode : (Kernel.withPointers s index putTid msg msglen).node other =
      s.node other := update_of_ne hne _ _
  rw [Awaits, hnode]
  exact h

theorem lastSent_append (log : List Event) (n : MsgQueueNode) (sender : ℤ) :
    lastSent (log ++ [.sent n]) sender =
      if n.fromTid = sender then some n.message else lastSent log sender := by
  rw [lastSent, List.filterMap_append]
  split_ifs with hsender <;> simp [Event.sentBy, hsender, lastSent]

/-- The message of the running task is queued; the task that it is for may
still wait. -/
theorem Posted.queuedSend (h : Dispatched s c lists) (hposted : Posted s queues)
    (hunlinked : ∀ queue, c ∉ queues queue) {n : MsgQueueNode}
    (hfrom : n.fromTid = (s.task c).tid) (hto : 0 ≤ n.toTid) :
    Posted (queuedSend s c n) (queues.append (slot n.toTid) c) := by
  have hblocks := blocks_queuedSend s c n
  have hsent : ∀ {index}, InTable index → Allocated s index → index ≠ c →
      lastSent (Kernel.queuedSend s c n).log (s.task index).tid =
        lastSent s.log (s.task index).tid := by
    intro index hindex halloc hne
    have hother := h.tid_ne_current hindex halloc hne
    rw [Kernel.queuedSend, lastSent_append, if_neg (by rw [hfrom]; exact hother.symm)]
  refine ⟨?_, ?_, ?_, ?_, ?_⟩
  · exact (hposted.represents.setNode hunlinked QueueNode.null).enqueueQueue hunlinked
  · intro queue index hmem
    rcases Lists.mem_append_iff.mp hmem with hlinked | ⟨rfl, rfl⟩
    · have hne : index ≠ c := ne_of_mem_of_not_mem hlinked (hunlinked queue)
      exact (hposted.linked hlinked).frame (by rw [hblocks.nodes _ hne])
        (by rw [hblocks.nodes _ hne]) (Int.le_of_eq (by rw [hblocks.others _ hne]))
    · have hnonneg := h.named.tid_nonneg h.inTable h.allocated
      refine ⟨h.inTable, inTable_slot hto, ?_, ?_, ?_, ?_, ?_⟩
      · rw [hblocks.node, hfrom]
        exact hnonneg
      · rw [hblocks.node]
        exact hto
      · rw [hblocks.node, hfrom]
        exact h.slot_tid
      · rw [hblocks.node]
      · simp [hblocks.node, hfrom, hblocks.task]
  · intro queue index hmem halloc hown
    by_cases hne : index = c
    · subst index
      rw [hblocks.task]
    · rcases Lists.mem_append_iff.mp hmem with hmem | ⟨_, rfl⟩
      · rw [Allocated, hblocks.others _ hne] at halloc
        rw [hblocks.nodes _ hne, hblocks.others _ hne] at hown
        rw [hblocks.others _ hne]
        exact hposted.state_of_linked hmem halloc hown
      · exact absurd rfl hne
  · intro index hindex hstate
    by_cases hne : index = c
    · subst index
      rw [hblocks.node, hblocks.task]
      refine ⟨⟨slot n.toTid, Lists.mem_append_iff.mpr (.inr ⟨rfl, rfl⟩)⟩, hfrom, ?_⟩
      rw [Kernel.queuedSend, lastSent_append, if_pos hfrom]
    · rw [hblocks.others _ hne] at hstate ⊢
      obtain ⟨⟨queue, hmem⟩, hown, hlast⟩ := hposted.receiveBlocked hindex hstate
      rw [hblocks.nodes _ hne, hsent hindex (allocated_of_state hstate (by decide)) hne]
      exact ⟨⟨queue, Lists.mem_append_iff.mpr (.inl hmem)⟩, hown, hlast⟩
  · intro index hindex hstate
    by_cases hne : index = c
    · subst index
      simp [hblocks.task] at hstate
    · rw [hblocks.others _ hne] at hstate ⊢
      obtain ⟨hfree, hown, hlast⟩ := hposted.replyBlocked hindex hstate
      rw [hblocks.nodes _ hne, hsent hindex (allocated_of_state hstate (by decide)) hne]
      refine ⟨?_, hown, hlast⟩
      intro queue hmem
      rcases Lists.mem_append_iff.mp hmem with hmem | ⟨_, rfl⟩
      · exact hfree queue hmem
      · exact hne rfl

/-- A task other than the receiver goes on waiting. -/
theorem Awaits.queuedSend (hmessages : Messages s queues) {n : MsgQueueNode}
    {index : ℤ} (hindex : InTable index)
    (hstate : ((queuedSend s c n).task index).state = .sendBlocked)
    (hother : index ≠ slot n.toTid) :
    Awaits (queuedSend s c n) (queues.append (slot n.toTid) c) index := by
  have hne : index ≠ c := by
    rintro rfl
    simp [Kernel.queuedSend] at hstate
  have htask := (blocks_queuedSend s c n).others _ hne
  have hnode := (blocks_queuedSend s c n).nodes _ hne
  rw [htask] at hstate
  obtain ⟨hempty, hfree, hlast⟩ := hmessages.sendBlocked hindex hstate
  refine ⟨?_, ?_, ?_⟩
  · rw [Lists.append_of_ne _ _ hother, hempty]
  · intro queue hmem
    rcases Lists.mem_append_iff.mp hmem with hmem | ⟨_, rfl⟩
    · exact hfree queue hmem
    · exact hne rfl
  · rw [htask, hnode, ← hlast, Kernel.queuedSend, lastWaiting, lastWaiting,
      List.filterMap_append]
    simp [Event.waitingOf]

/-- The running task starts to wait for a message. -/
theorem Messages.waitingReceive (h : Dispatched s c lists)
    (hmessages : Messages s queues) (hunlinked : ∀ queue, c ∉ queues queue)
    (hempty : queues c = []) (n : MsgQueueNode) (links : QueueNode ℤ) :
    Messages (waitingReceive s c n links) queues := by
  have hblocks := blocks_waitingReceive s c n links
  have hsent : ∀ tid, lastSent (Kernel.waitingReceive s c n links).log tid =
      lastSent s.log tid := by
    intro tid
    rw [lastSent, Kernel.waitingReceive, List.filterMap_append, lastSent]
    simp [Event.sentBy]
  have hmem_ne : ∀ {queue index}, index ∈ queues queue → index ≠ c :=
    fun hmem => ne_of_mem_of_not_mem hmem (hunlinked _)
  refine ⟨⟨?_, ?_, ?_, ?_, ?_⟩, ?_⟩
  · exact hmessages.represents.setNode hunlinked links
  · intro queue index hmem
    have hne := hmem_ne hmem
    exact (hmessages.linked hmem).frame (by rw [hblocks.nodes _ hne])
      (by rw [hblocks.nodes _ hne]) (Int.le_of_eq (by rw [hblocks.others _ hne]))
  · intro queue index hmem halloc hown
    rw [Allocated, hblocks.others _ (hmem_ne hmem)] at halloc
    rw [hblocks.nodes _ (hmem_ne hmem), hblocks.others _ (hmem_ne hmem)] at hown
    rw [hblocks.others _ (hmem_ne hmem)]
    exact hmessages.state_of_linked hmem halloc hown
  · intro index hindex hstate
    by_cases hne : index = c
    · subst index
      simp [hblocks.task] at hstate
    · rw [hblocks.others _ hne] at hstate ⊢
      rw [hblocks.nodes _ hne, hsent]
      exact hmessages.receiveBlocked hindex hstate
  · intro index hindex hstate
    by_cases hne : index = c
    · subst index
      simp [hblocks.task] at hstate
    · rw [hblocks.others _ hne] at hstate ⊢
      rw [hblocks.nodes _ hne, hsent]
      exact hmessages.replyBlocked hindex hstate
  · intro index hindex hstate
    by_cases hne : index = c
    · subst index
      refine ⟨hempty, hunlinked, ?_⟩
      rw [hblocks.task, Kernel.waitingReceive, lastWaiting, List.filterMap_append]
      simp [Event.waitingOf]
    · rw [hblocks.others _ hne] at hstate
      obtain ⟨hnone, hfree, hlast⟩ := hmessages.sendBlocked hindex hstate
      have halloc : Allocated s index := allocated_of_state hstate (by decide)
      have hother := h.tid_ne_current hindex halloc hne
      refine ⟨hnone, hfree, ?_⟩
      rw [hblocks.others _ hne, hblocks.nodes _ hne, ← hlast, Kernel.waitingReceive, lastWaiting,
        lastWaiting, List.filterMap_append]
      simp [Event.waitingOf, Ne.symm hother]

end Messages

end Rtk.Kernel
