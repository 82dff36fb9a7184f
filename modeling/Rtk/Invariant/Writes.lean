import Rtk.Invariant.Containers
import Rtk.Invariant.Step

/-!
# What the kernel writes to task memory

The history records every store of the kernel to task memory, so that memory
after a handler is memory before it with the recorded stores applied again.
Each handler has its list of stores; nothing outside their ranges changes.
-/

namespace Rtk.Kernel

open Function
open Rtk.ByteMemory
open Rtk.Lib

/-- Memory once the store that an event records is made again. -/
def Event.replay (memory : Memory) : Event → Memory
  | .storedWord address word => storeWord memory address word
  | .copied dest src num => memcpy memory dest src num
  | .taskStats container stats => storeTaskStats memory container stats
  | .tasksStats container stats => storeTasksStats memory container stats
  | _ => memory

def Event.Touches (address : ℕ) : Event → Prop
  | .storedWord start _ => InRange start 4 address
  | .copied dest _ num => InRange dest num address
  | .taskStats container _ => InRange container taskStatsSizeBytes address
  | .tasksStats container stats =>
      InRange container (tasksOffset + taskStatsSizeBytes * stats.tasks.length) address
  | _ => False

/-- From `s` to `s'` the kernel makes the stores of `events` and no others, and no
task gets another stack or stack pointer. -/
structure Records (s : State) (events : List Event) (s' : State) : Prop where
  log : s'.log = s.log ++ events
  memory : s'.memory = events.foldl Event.replay s.memory
  image : s'.image = s.image
  stack : ∀ index, (s'.task index).stack = (s.task index).stack
  sp : ∀ index, (s'.task index).sp = (s.task index).sp

section Records

variable {s s' s'' : State} {events events' : List Event} {address : ℕ}

theorem Records.refl (s : State) : Records s [] s :=
  ⟨(List.append_nil _).symm, rfl, rfl, fun _ => rfl, fun _ => rfl⟩

theorem Records.trans (hleft : Records s events s')
    (hright : Records s' events' s'') : Records s (events ++ events') s'' where
  log := by rw [hright.log, hleft.log, List.append_assoc]
  memory := by rw [hright.memory, hleft.memory, List.foldl_append]
  image := hright.image.trans hleft.image
  stack index := (hright.stack index).trans (hleft.stack index)
  sp index := (hright.sp index).trans (hleft.sp index)

theorem Records.of_task_eq (hlog : s'.log = s.log ++ events)
    (hmemory : s'.memory = events.foldl Event.replay s.memory)
    (himage : s'.image = s.image) (htask : s'.task = s.task) :
    Records s events s' where
  log := hlog
  memory := hmemory
  image := himage
  stack := by
    rw [htask]
    exact fun _ => rfl
  sp := by
    rw [htask]
    exact fun _ => rfl

/-- Rewriting one descriptor without its stack writes nothing. -/
theorem Records.of_update {index : ℤ} {task : Task} (hlog : s'.log = s.log)
    (hmemory : s'.memory = s.memory) (himage : s'.image = s.image)
    (htask : s'.task = update s.task index task)
    (hstack : task.stack = (s.task index).stack) (hsp : task.sp = (s.task index).sp) :
    Records s [] s' where
  log := by rw [hlog, List.append_nil]
  memory := hmemory
  image := himage
  stack other := by
    rw [htask]
    by_cases hother : other = index
    · rw [hother, update_self, hstack]
    · rw [update_of_ne hother]
  sp other := by
    rw [htask]
    by_cases hother : other = index
    · rw [hother, update_self, hsp]
    · rw [update_of_ne hother]

theorem replay_of_not_touches {memory : Memory} {event : Event}
    (hevent : ¬event.Touches address) : event.replay memory address = memory address := by
  cases event with
  | storedWord start word => exact storeWord_of_not_inRange hevent
  | copied dest src num => exact memcpy_of_not_inRange hevent
  | taskStats container stats => exact storeTaskStats_of_not_inRange stats hevent
  | tasksStats container stats => exact storeTasksStats_of_not_inRange hevent
  | _ => rfl

/-- A byte that no recorded store touches keeps its value. -/
theorem Records.memory_of_not_touches (h : Records s events s')
    (hevents : ∀ event ∈ events, ¬event.Touches address) :
    s'.memory address = s.memory address := by
  rw [h.memory]
  clear h
  generalize s.memory = memory
  induction events generalizing memory with
  | nil => rfl
  | cons event events ih =>
      rw [List.foldl_cons, ih (fun other hother => hevents other (by simp [hother]))]
      exact replay_of_not_touches (hevents event (by simp))

end Records

/-! ## Single writes -/

theorem records_storeWord (s : State) (address : ℕ) (word : Word) :
    Records s [.storedWord address word] (s.storeWord address word) :=
  .of_task_eq rfl rfl rfl rfl

theorem records_copy (s : State) (dest src num : ℕ) :
    Records s [.copied dest src num] (s.copy dest src num) :=
  .of_task_eq rfl rfl rfl rfl

theorem records_emit (s : State) {event : Event}
    (hevent : ∀ memory, event.replay memory = memory) :
    Records s [event] (s.emit event) :=
  .of_task_eq rfl (hevent s.memory).symm rfl rfl

theorem records_useDescriptor (s : State) (index : ℤ) :
    Records s [] (s.useDescriptor index) := by
  rw [State.useDescriptor]
  split_ifs
  · exact .refl s
  · exact .of_task_eq (List.append_nil _).symm rfl rfl rfl

theorem records_enqueueStatefulPriorityTaskQueue (s : State) (index : ℤ) :
    Records s [] (enqueueStatefulPriorityTaskQueue s index) := by
  rw [enqueueStatefulPriorityTaskQueue, State.useState]
  split_ifs
  · exact .of_task_eq (List.append_nil _).symm rfl rfl rfl
  · exact .of_task_eq (List.append_nil _).symm rfl rfl rfl

theorem records_removeStatefulPriorityTaskQueueNode (s : State) (index : ℤ) :
    Records s [] (removeStatefulPriorityTaskQueueNode s index) := by
  rw [removeStatefulPriorityTaskQueueNode, State.useState]
  split_ifs
  · exact .of_task_eq (List.append_nil _).symm rfl rfl rfl
  · exact .of_task_eq (List.append_nil _).symm rfl rfl rfl

theorem records_setCurrentTaskState (s : State) (state : TaskState) :
    Records s [] (setCurrentTaskState s state) :=
  .of_update rfl rfl rfl rfl rfl rfl

theorem records_setTaskState (s : State) (tid : ℤ) (state : TaskState) :
    Records s [] (setTaskState s tid state) := by
  have hused := records_useDescriptor s (slot tid)
  have hremoved :=
    hused.trans (records_removeStatefulPriorityTaskQueueNode _ (slot tid))
  have hupdate : ∀ middle : State, Records middle []
      (middle.setTask (slot tid) { middle.task (slot tid) with state := state }) :=
    fun _ => .of_update rfl rfl rfl rfl rfl rfl
  have hset := hremoved.trans (hupdate _)
  simp only [setTaskState]
  split_ifs
  · exact hused
  · exact hset.trans (records_enqueueStatefulPriorityTaskQueue _ _)
  · exact hset

/-- `tid` is the tid in its descriptor. -/
def IsNamed (s : State) (tid : ℤ) : Prop :=
  0 ≤ tid ∧ tid ≤ longMax ∧ (s.task (slot tid)).tid = tid

instance (s : State) (tid : ℤ) : Decidable (IsNamed s tid) :=
  inferInstanceAs (Decidable (_ ∧ _ ∧ _))

/-- The store of `SetTaskReturnValue` to a task that was just made `READY`. -/
def returnEvents (s : State) (tid ret : ℤ) : List Event :=
  if IsNamed s tid then [.storedWord (s.task (slot tid)).sp (BitVec.ofInt 32 ret)]
  else []

theorem state_setTaskState {s : State} {tid : ℤ} {state : TaskState}
    (htid : (s.task (slot tid)).tid = tid) :
    ((setTaskState s tid state).task (slot tid)).state = state := by
  have hused : ((s.useDescriptor (slot tid)).task (slot tid)).tid = tid := by
    rw [(Silent.useDescriptor s _).task, htid]
  simp only [setTaskState, ne_eq, hused, not_true_eq_false, if_false,
    removeStatefulPriorityTaskQueueNode, enqueueStatefulPriorityTaskQueue,
    State.useState]
  split_ifs <;> simp

theorem tid_setTaskState (s : State) (tid : ℤ) (state : TaskState) (index : ℤ) :
    ((setTaskState s tid state).task index).tid = (s.task index).tid := by
  simp only [setTaskState, removeStatefulPriorityTaskQueueNode,
    enqueueStatefulPriorityTaskQueue, State.useState]
  by_cases hindex : index = slot tid
  · subst index
    split_ifs <;> simp [(Silent.useDescriptor s _).task]
  · split_ifs <;> simp [State.setTask, hindex, (Silent.useDescriptor s _).task]

/-- `SetTaskState( tid, READY )` and `SetTaskReturnValue( tid, ret )`. -/
theorem records_ready (s : State) (tid ret : ℤ) :
    Records s (returnEvents s tid ret)
      (setTaskReturnValue (setTaskState s tid .ready) tid ret) := by
  have hset := records_setTaskState s tid .ready
  have halive : isTaskAlive (setTaskState s tid .ready) tid ↔ IsNamed s tid := by
    rw [isTaskAlive_iff, IsNamed, tid_setTaskState]
    constructor
    · rintro ⟨hnonneg, hle, htid, _⟩
      exact ⟨hnonneg, hle, htid⟩
    · rintro ⟨hnonneg, hle, htid⟩
      rw [state_setTaskState htid]
      exact ⟨hnonneg, hle, htid, by decide⟩
  by_cases hnamed : IsNamed s tid
  · rw [returnEvents, if_pos hnamed, setTaskReturnValue, halive.mpr hnamed, ← hset.sp]
    exact hset.trans (records_storeWord _ _ _)
  · have hnot : isTaskAlive (setTaskState s tid .ready) tid = false := by
      rw [← Bool.not_eq_true, halive]
      exact hnamed
    rw [returnEvents, if_neg hnamed, setTaskReturnValue, hnot]
    exact hset

/-! ## The rendezvous -/

def copyEvents (dest src num : ℕ) : List Event :=
  if dest ≠ nullAddress ∧ src ≠ nullAddress then [.copied dest src num] else []

/-- The stores of `CompleteReceive` for the receiver of a node. -/
def deliveryEvents (n : MsgQueueNode) : List Event :=
  .storedWord n.putTid (BitVec.ofInt 32 n.fromTid) ::
    copyEvents n.receiveBuffer n.msgBuffer
      (min n.receiveBufferSize n.msgBufferSize).toNat

/-- What `CompleteReceive( tid )` records when it takes the node `n`. -/
def completeEvents (s : State) (tid : ℤ) (n : MsgQueueNode) : List Event :=
  .taken tid n ::
    (deliveryEvents n ++ returnEvents s n.toTid n.msgBufferSize.toInt)

theorem records_deliver (s : State) (n : MsgQueueNode) :
    Records s (deliveryEvents n) (deliver s n) := by
  have hword := records_storeWord s n.putTid (BitVec.ofInt 32 n.fromTid)
  rw [deliver, deliveryEvents, copyEvents]
  split_ifs
  · exact hword.trans (records_copy _ _ _ _)
  · exact hword

theorem returnEvents_congr {s s' : State} (htid : ∀ index,
    (s'.task index).tid = (s.task index).tid)
    (hsp : ∀ index, (s'.task index).sp = (s.task index).sp) (tid ret : ℤ) :
    returnEvents s' tid ret = returnEvents s tid ret := by
  have hnamed : IsNamed s' tid ↔ IsNamed s tid := by rw [IsNamed, IsNamed, htid]
  simp only [returnEvents, hnamed, hsp]

theorem records_completeReceive {s : State} {tid head : ℤ}
    (hdequeue : (s.msgQueues.dequeueQueue (slot tid)).1 = some head) :
    Records s (completeEvents s tid (s.node head)) (completeReceive s tid).2 := by
  have htaken : Records s [.taken tid (s.node head)] (received s tid head) :=
    .of_task_eq rfl rfl rfl rfl
  have hdelivered := htaken.trans (records_deliver _ (s.node head))
  have hblocked := hdelivered.trans
    (records_setTaskState _ (s.node head).fromTid .replyBlocked)
  have htid : ∀ index,
      ((setTaskState (deliver (received s tid head) (s.node head))
        (s.node head).fromTid .replyBlocked).task index).tid = (s.task index).tid := by
    intro index
    rw [tid_setTaskState, (Silent.deliver _ _).task]
    rfl
  have hdone := hblocked.trans
    (records_ready _ (s.node head).toTid (s.node head).msgBufferSize.toInt)
  rw [returnEvents_congr htid hblocked.sp] at hdone
  rw [completeReceive_eq hdequeue, completeEvents]
  simpa using hdone

section Proxies

variable {s : State} {l : Layout}

/-- The node that a `Send` to a waiting task hands over. -/
def handedNode (s : State) (n : MsgQueueNode) : MsgQueueNode :=
  n.withReceive (s.node (slot n.toTid)).putTid (s.node (slot n.toTid)).receiveBuffer
    (s.node (slot n.toTid)).receiveBufferSize

theorem node_handedOver_self (s : State) (c : ℤ) (n : MsgQueueNode) :
    (handedOver s c n).node c = handedNode s n := by
  simp [handedOver, withPointers, State.setMsgNode, queuedSend, handedNode]

/-- What `SendProxy` records for the message of a node. -/
def sendEvents (s : State) (n : MsgQueueNode) : List Event :=
  if isTaskAlive s n.toTid then
    .sent n ::
      if (s.task (slot n.toTid)).state = .sendBlocked then
        completeEvents s n.toTid (handedNode s n)
      else []
  else []

theorem records_queuedSend (s : State) (c : ℤ) (n : MsgQueueNode) :
    Records s [.sent n] (queuedSend s c n) := by
  have hqueued : Records s [.sent n]
      { s with
        node := update s.node c n
        msgQueues :=
          (s.msgQueues.setNode c QueueNode.null).enqueueQueue (slot n.toTid) c
        log := s.log ++ [.sent n] } := .of_task_eq rfl rfl rfl rfl
  exact hqueued.trans (.of_update rfl rfl rfl rfl rfl rfl)

theorem records_waitingReceive (s : State) (c : ℤ) (n : MsgQueueNode)
    (links : QueueNode ℤ) :
    Records s
      [.waiting (s.task c).tid n.putTid n.receiveBuffer n.receiveBufferSize]
      (waitingReceive s c n links) := by
  have hwaiting : Records s
      [.waiting (s.task c).tid n.putTid n.receiveBuffer n.receiveBufferSize]
      { s with
        node := update s.node c n
        msgQueues := s.msgQueues.setNode c links
        log := s.log ++ [.waiting (s.task c).tid n.putTid n.receiveBuffer
          n.receiveBufferSize] } := .of_task_eq rfl rfl rfl rfl
  exact hwaiting.trans (.of_update rfl rfl rfl rfl rfl rfl)

theorem Coherent.records_handOver (h : Coherent s l) {n : MsgQueueNode}
    (hsends : Sends s l n) (hwaits : (s.task (slot n.toTid)).state = .sendBlocked) :
    Records s (.sent n :: completeEvents s n.toTid (handedNode s n))
      (completeReceive (handedOver s l.current n) n.toTid).2 := by
  have hposted := h.posted_handedOver hsends
  have hdequeue :=
    (hposted.represents.dequeueQueue (h.queue_handedOver hsends hwaits)).1
  have hprepared : Records s [.sent n] (handedOver s l.current n) :=
    (records_queuedSend s l.current n).trans
      (.of_task_eq (List.append_nil _).symm rfl rfl rfl)
  have hnode := node_handedOver_self s l.current n
  have htid : ∀ index,
      ((handedOver s l.current n).task index).tid = (s.task index).tid :=
    (h.handled_handedOver n).keeps.tid
  have hdone := records_completeReceive hdequeue
  rw [hnode, completeEvents, returnEvents_congr htid hprepared.sp] at hdone
  exact hprepared.trans hdone

/-- `SendProxy`, when the caller's node is in no queue. -/
theorem Coherent.records_sendProxy (h : Coherent s l) {tid : ℤ}
    (hunlinked : isTaskAlive s tid → ∀ queue, l.current ∉ l.queues queue)
    (uninit : MsgQueueNode) (msg : ℕ) (msglen : Word) (reply : ℕ)
    (replylen : Word) :
    Records s
      (sendEvents s
        (sendNode uninit (s.task l.current).tid tid msg msglen reply replylen))
      (sendProxy s uninit tid msg msglen reply replylen).2 := by
  have hto : (sendNode uninit (s.task l.current).tid tid msg msglen reply
      replylen).toTid = tid := rfl
  rw [sendEvents, hto]
  by_cases halive : isTaskAlive s tid
  · have hsends : Sends s l
        (sendNode uninit (s.task l.current).tid tid msg msglen reply replylen) :=
      ⟨rfl, halive, hunlinked halive⟩
    rw [h.dispatched.sendProxy_eq halive, if_pos halive]
    split_ifs with hwaits
    · exact h.records_handOver hsends hwaits
    · exact records_queuedSend _ _ _
  · rw [sendProxy_of_not_alive halive, if_neg halive]
    exact .refl s

section Take

variable {oldest : ℤ} {rest : List ℤ} {tid msg : ℕ} {msglen : Word}

/-- The node that a `Receive` takes, once the newest node has its pointers. -/
def takenNode (s : State) (oldest : ℤ) (rest : List ℤ) (tid msg : ℕ) (msglen : Word) :
    MsgQueueNode :=
  (withPointers s ((oldest :: rest).getLast (by simp)) tid msg msglen).node oldest

theorem message_takenNode (s : State) (oldest : ℤ) (rest : List ℤ) (tid msg : ℕ)
    (msglen : Word) :
    (takenNode s oldest rest tid msg msglen).message = (s.node oldest).message :=
  (fields_withPointers s _ tid msg msglen oldest).2.2

theorem takenNode_of_nil (s : State) (oldest : ℤ) (tid msg : ℕ) (msglen : Word) :
    takenNode s oldest [] tid msg msglen = (s.node oldest).withReceive tid msg msglen :=
  update_self _ _ _

theorem takenNode_of_ne_nil (hnodup : (oldest :: rest).Nodup) (hrest : rest ≠ []) :
    takenNode s oldest rest tid msg msglen = s.node oldest := by
  have hlast : (oldest :: rest).getLast (by simp) ∈ rest := by
    rw [List.getLast_cons hrest]
    exact List.getLast_mem hrest
  have hne : oldest ≠ (oldest :: rest).getLast (by simp) := by
    intro heq
    rw [← heq] at hlast
    exact (List.nodup_cons.mp hnodup).1 hlast
  exact update_of_ne hne _ _

/-- A `Receive` that finds messages returns the length of the oldest. -/
theorem Coherent.result_receiveProxy (h : Coherent s l)
    (hqueue : l.queues l.current = oldest :: rest) (uninit : MsgQueueNode)
    (links : QueueNode ℤ) (tid msg : ℕ) (msglen : Word) :
    (receiveProxy s uninit links tid msg msglen).1 =
      (takenNode s oldest rest tid msg msglen).msgBufferSize.toInt := by
  have hcomplete := @completeReceive_eq
    (withPointers s ((oldest :: rest).getLast (by simp)) tid msg msglen) _ _
    (h.dequeued hqueue)
  rw [h.dispatched.receiveProxy_of_cons h.messages.represents hqueue, hcomplete]
  rfl

/-- It takes that message. -/
theorem Coherent.records_receiveProxy (h : Coherent s l)
    (hqueue : l.queues l.current = oldest :: rest) (uninit : MsgQueueNode)
    (links : QueueNode ℤ) (tid msg : ℕ) (msglen : Word) :
    Records s
      (completeEvents s (s.task l.current).tid
        (takenNode s oldest rest tid msg msglen))
      (receiveProxy s uninit links tid msg msglen).2 := by
  rw [h.dispatched.receiveProxy_of_cons h.messages.represents hqueue]
  have hprepared : Records s []
      (withPointers s ((oldest :: rest).getLast (by simp)) tid msg msglen) :=
    .of_task_eq (List.append_nil _).symm rfl rfl rfl
  exact hprepared.trans (records_completeReceive (h.dequeued hqueue))

end Take

/-- What `ReplyProxy` records when it answers the task of the node `n`. -/
def replyEvents (s : State) (n : MsgQueueNode) (reply : ℕ) (replylen : Word) :
    List Event :=
  copyEvents n.replyBuffer reply (min n.replyBufferSize replylen).toNat ++
    returnEvents s n.fromTid replylen.toInt

theorem records_replyProxy (s : State) (tid : ℤ) (reply : ℕ) (replylen : Word) :
    Records s
      (if Awaiting s tid then replyEvents s (s.node (slot tid)) reply replylen else [])
      (replyProxy s tid reply replylen).2 := by
  by_cases hawaits : Awaiting s tid
  · rw [if_pos hawaits, hawaits.replyProxy_eq, replyEvents, copyEvents]
    dsimp only
    rw [replied]
    split_ifs
    · exact (records_copy s _ _ _).trans (records_ready _ _ _)
    · exact records_ready s _ _
  · obtain ⟨error, _, hrefused⟩ := replyProxy_refused hawaits reply replylen
    rw [if_neg hawaits, hrefused]
    exact .refl s

end Proxies

/-! ## The other handlers -/

section Handlers

variable {s s' : State} {c : ℤ} {lists : Lists TaskQueue ℤ}

theorem records_exitTask (s : State) : Records s [] (exitTask s) := by
  have hcount : Records s [] { s with numTasks := s.numTasks - 1 } :=
    .of_task_eq (List.append_nil _).symm rfl rfl rfl
  exact hcount.trans (records_setCurrentTaskState _ _)

theorem records_awaitEventHandler (s : State) (intr : Word) :
    Records s [] (awaitEventHandler s intr).2 := by
  have hset : Records s []
      (s.setTask s.current { s.task s.current with awaitingEventId := intr }) :=
    .of_update rfl rfl rfl rfl rfl rfl
  have hblocked := hset.trans (records_setCurrentTaskState _ .eventBlocked)
  have henabled : ∀ middle : State, Records middle [] (enableInterrupt middle intr) :=
    fun _ => .of_task_eq (List.append_nil _).symm rfl rfl rfl
  exact hblocked.trans (henabled _)

theorem records_setCurrentTaskPriority (s : State) (priority : ℕ) :
    Records s [] (setCurrentTaskPriority s priority).2 := by
  rw [setCurrentTaskPriority]
  cases s.currentTask with
  | none => exact .refl s
  | some index =>
      simp only
      split_ifs
      · exact .refl s
      · exact .of_update rfl rfl rfl rfl rfl rfl

theorem records_taskStatsHandler (s : State) (tid : ℤ) (container : ℕ) :
    Records s [.taskStats container (statsOf (s.task (slot tid)))]
      (taskStatsHandler s tid container) :=
  (records_useDescriptor s (slot tid)).trans (.of_task_eq rfl rfl rfl rfl)

/-- `TasksStatsHandler` fills the record with `num_tasks` and the entries it has found. -/
theorem exists_tasksStats {fuel container : ℕ}
    (hstats : tasksStatsHandler s fuel container = some s') :
    ∃ tasks,
      statsOfQueues (enqueueStatefulPriorityTaskQueue s s.current) fuel TaskQueue.visited =
        some tasks ∧
      s'.log = s.log ++ [.tasksStats container ⟨tasks.length, s.numTasks, tasks⟩] ∧
      HoldsTasksStats s'.memory container ⟨tasks.length, s.numTasks, tasks⟩ := by
  simp only [tasksStatsHandler, Option.bind_eq_bind, Option.bind_eq_some_iff] at hstats
  obtain ⟨tasks, htasks, hresult⟩ := hstats
  have henqueued := records_enqueueStatefulPriorityTaskQueue s s.current
  have hremoved := henqueued.trans (records_removeStatefulPriorityTaskQueueNode _
    (enqueueStatefulPriorityTaskQueue s s.current).current)
  have hlog := hremoved.log.trans (List.append_nil _)
  rw [← Option.some.inj hresult]
  exact ⟨tasks, htasks,
    congrArg (· ++ [Event.tasksStats container ⟨tasks.length, s.numTasks, tasks⟩]) hlog,
    holdsTasksStats_storeTasksStats _ _ _⟩

/-- Waking a task writes at most its return value. -/
theorem InKernel.records_unblocked (h : InKernel s c lists) (intr : Word)
    (priorities : List Priority) :
    ∃ events, Records s events (unblocked s (firstWaiting s lists intr priorities)) ∧
      ∀ event ∈ events, ∃ index word, InTable index ∧ Allocated s index ∧ index ≠ c ∧
        (s.task index).state = .eventBlocked ∧
          event = .storedWord (s.task index).sp word := by
  cases hfirst : firstWaiting s lists intr priorities with
  | none => exact ⟨[], .refl s, by simp⟩
  | some head =>
      obtain ⟨_, _, hmem⟩ := exists_of_firstWaiting hfirst
      obtain ⟨hindex, halloc, hne, hblocked, _⟩ := h.of_mem_states hmem
      have hslot := h.named.slot_tid hindex halloc
      refine ⟨_, records_ready s _ _, ?_⟩
      intro event hevent
      rw [returnEvents, hslot] at hevent
      split_ifs at hevent
      · exact ⟨head, _, hindex, halloc, hne, hblocked, List.mem_singleton.mp hevent⟩
      · simp at hevent

theorem records_acknowledge (s : State) (intr : Word) (wentOff : Bool) :
    ∃ events,
      Records s events
        (if isTimerInterrupt intr then
          if wentOff then s.emit .clearedTimerInterrupt else s
        else disableInterrupt s intr) ∧
      ∀ event ∈ events, event = .clearedTimerInterrupt := by
  split_ifs
  · exact ⟨_, records_emit s fun _ => rfl, by simp⟩
  · exact ⟨[], .refl s, by simp⟩
  · exact ⟨[], .of_task_eq (List.append_nil _).symm rfl rfl rfl, by simp⟩

/-- An interrupt writes at most the return value of a task that waits. -/
theorem InKernel.records_handleIrq (h : InKernel s c lists) {fuel : ℕ} {intrCode : ℤ}
    {timer : TimerReadings} {time : Word}
    (hirq : handleIrq s fuel intrCode timer = some (time, s')) :
    ∃ events, Records s events s' ∧
      ∀ event ∈ events, ∀ address, event.Touches address →
        ∃ index, InTable index ∧ Allocated s index ∧ index ≠ c ∧
          (s.task index).state = .eventBlocked ∧ InRange (s.task index).sp 4 address := by
  by_cases hneg : intrCode < 0
  · simp only [handleIrq, if_pos hneg, Option.map_eq_some_iff, Prod.mk.injEq] at hirq
    obtain ⟨woken, hunblock, _, rfl⟩ := hirq
    have hsilent := silent_acknowledge s ((1 : Word) <<< (-intrCode).toNat)
      timer.wentOffAtClear
    obtain ⟨first, hacknowledged, hclears⟩ := records_acknowledge s
      ((1 : Word) <<< (-intrCode).toNat) timer.wentOffAtClear
    have hkernel := h.silent hsilent
    rw [unblockTaskWaitingOnEventFrom_of_some hkernel.partition.represents hunblock]
    obtain ⟨second, hwoken, hstores⟩ := hkernel.records_unblocked
      ((1 : Word) <<< (-intrCode).toNat) Priority.all
    refine ⟨_, hacknowledged.trans hwoken, ?_⟩
    intro event hevent address htouches
    rcases List.mem_append.mp hevent with hevent | hevent
    · rw [hclears event hevent] at htouches
      exact htouches.elim
    · obtain ⟨index, word, hindex, halloc, hne, hblocked, rfl⟩ := hstores event hevent
      rw [Allocated, hsilent.task] at halloc
      rw [hsilent.task] at hblocked
      rw [hacknowledged.sp] at htouches
      exact ⟨index, hindex, halloc, hne, hblocked, htouches⟩
  · simp only [handleIrq, if_neg hneg, Option.some.injEq, Prod.mk.injEq] at hirq
    rw [← hirq.2]
    exact ⟨[], .refl s, by simp⟩

/-- The dispatcher writes nothing. -/
theorem InKernel.records_dispatch (h : InKernel s c lists) {now : Word}
    (hactivate : scheduleAndActivate s now = some s') : Records s [] s' := by
  obtain ⟨next, queues, _, rfl, _⟩ := h.dispatch hactivate
  have hrequeued : Records s [] (s.withTasks (preempted s c) (requeuedLinks s c)) := by
    by_cases hactive : (s.task c).state = .active
    · have htask : (s.withTasks (preempted s c) (requeuedLinks s c)).task =
          update s.task c { s.task c with state := .ready } := by
        rw [State.withTasks_task, preempted, if_pos hactive]
      exact .of_update rfl rfl rfl htask rfl rfl
    · have htask : (s.withTasks (preempted s c) (requeuedLinks s c)).task = s.task := by
        rw [State.withTasks_task, preempted, if_neg hactive]
      exact .of_task_eq (List.append_nil _).symm rfl rfl htask
  exact hrequeued.trans (.of_update rfl rfl rfl rfl rfl rfl)

end Handlers

end Rtk.Kernel
