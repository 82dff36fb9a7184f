import Rtk.Invariant.Run

/-!
# The order of the ready queues

A ready queue keeps its tasks in the order in which they joined it.  `Relinks` says what
a handler does to the queues: it moves tasks to `REPLY_BLOCKED` and then at most one to
`READY`, each to the end of its new queue.  So at most one task joins the ready queues,
and tasks only leave the queues of those that wait for an event.
-/

namespace Rtk.Kernel

open Function
open Rtk.ByteMemory
open Rtk.Lib

def joiners (joining : List (Priority × ℤ)) (priority : Priority) : List ℤ :=
  (joining.filter fun join => join.1 = priority).map Prod.snd

/-- From `s` to `s'` the ready queues keep their tasks, and the tasks of `joining` join
them at their ends. -/
def Joins (s : State) (joining : List (Priority × ℤ)) (s' : State) : Prop :=
  ∀ priority nodes, Contents s.taskQueues (.states .ready priority) nodes →
    Contents s'.taskQueues (.states .ready priority) (nodes ++ joiners joining priority)

/-- At most one task joins the ready queues. -/
def JoinsOne (s s' : State) : Prop :=
  ∃ joining, joining.length ≤ 1 ∧ Joins s joining s'

/-- From `s` to `s'` no task joins a queue of `EVENT_BLOCKED` tasks, and those that stay
keep their order. -/
def Drains (s s' : State) : Prop :=
  ∀ priority nodes, Contents s.taskQueues (.states .eventBlocked priority) nodes →
    ∃ left, left.Sublist nodes ∧
      Contents s'.taskQueues (.states .eventBlocked priority) left

/-- A task goes to the end of the queue of a state. -/
def relocate (state : TaskState) (lists : Lists TaskQueue ℤ) (move : Priority × ℤ) :
    Lists TaskQueue ℤ :=
  (lists.erase move.2).append (.states state move.1) move.2

/-- From `s` to `s'` tasks that were not `READY` go to the queues of `REPLY_BLOCKED`, and
then at most one to a ready queue. -/
def Relinks (s s' : State) : Prop :=
  ∃ answered woken : List (Priority × ℤ), woken.length ≤ 1 ∧
    (∀ move ∈ answered ++ woken, (s.task move.2).state ≠ .ready) ∧
    ∀ lists, Represents s.taskQueues lists → Represents s'.taskQueues
      (woken.foldl (relocate .ready) (answered.foldl (relocate .replyBlocked) lists))

section Relinks

variable {s s' s'' : State} {lists : Lists TaskQueue ℤ} {c : ℤ}

/-- A task that leaves other queues and joins the one of another state. -/
theorem relocate_of_ne (state other : TaskState) (lists : Lists TaskQueue ℤ)
    (move : Priority × ℤ) (priority : Priority) (hstate : other ≠ state) :
    relocate state lists move (.states other priority) =
      (lists (.states other priority)).erase move.2 := by
  have hother : TaskQueue.states other priority ≠ .states state move.1 := by
    intro hsame
    injection hsame with hsame _
    exact hstate hsame
  exact Lists.append_of_ne _ _ hother

theorem foldl_relocate_sublist {state other : TaskState} (hstate : other ≠ state)
    (moves : List (Priority × ℤ)) (lists : Lists TaskQueue ℤ) (priority : Priority) :
    (moves.foldl (relocate state) lists (.states other priority)).Sublist
      (lists (.states other priority)) := by
  induction moves generalizing lists with
  | nil => exact List.Sublist.refl _
  | cons move moves ih =>
      refine (ih (relocate state lists move)).trans ?_
      rw [relocate_of_ne state other lists move priority hstate]
      exact List.erase_sublist

theorem foldl_relocate_of_notMem {state other : TaskState} (hstate : other ≠ state)
    {moves : List (Priority × ℤ)} {lists : Lists TaskQueue ℤ} {priority : Priority}
    (hmoves : ∀ move ∈ moves, move.2 ∉ lists (.states other priority)) :
    moves.foldl (relocate state) lists (.states other priority) =
      lists (.states other priority) := by
  induction moves generalizing lists with
  | nil => rfl
  | cons move moves ih =>
      have hkept : relocate state lists move (.states other priority) =
          lists (.states other priority) := by
        rw [relocate_of_ne state other lists move priority hstate]
        exact List.erase_of_not_mem (hmoves move List.mem_cons_self)
      rw [List.foldl_cons, ih, hkept]
      intro later hlater
      rw [hkept]
      exact hmoves later (List.mem_cons_of_mem move hlater)

/-- The tasks that become `READY` join the ready queues. -/
theorem Relinks.joinsOne (h : Relinks s s') (hkernel : InKernel s c lists) :
    JoinsOne s s' := by
  obtain ⟨answered, woken, hlength, hmoves, hrelinked⟩ := h
  refine ⟨woken, hlength, ?_⟩
  have hrep := hkernel.partition.represents
  have hnot : ∀ move ∈ answered ++ woken, ∀ priority,
      move.2 ∉ lists (.states .ready priority) := fun move hmove priority hmem =>
    hmoves move hmove (hkernel.of_mem_states hmem).2.2.2.1
  intro priority nodes hcontents
  have hfirst : answered.foldl (relocate .replyBlocked) lists (.states .ready priority) =
      nodes := by
    rw [foldl_relocate_of_notMem (by decide) fun move hmove =>
      hnot move (List.mem_append_left _ hmove) priority]
    exact (hrep.contents _).unique hcontents
  have hlast := (hrelinked lists hrep).contents (.states .ready priority)
  match woken, hlength with
  | [], _ =>
      rw [joiners, List.filter_nil, List.map_nil, List.append_nil, ← hfirst]
      exact hlast
  | [move], _ =>
      have hfresh : move.2 ∉
          answered.foldl (relocate .replyBlocked) lists (.states .ready priority) := by
        rw [hfirst, ← (hrep.contents _).unique hcontents]
        exact hnot move (List.mem_append_right _ List.mem_cons_self) priority
      rw [List.foldl_cons, List.foldl_nil, relocate] at hlast
      by_cases hpriority : move.1 = priority
      · subst hpriority
        rw [Lists.append_self, Lists.erase_of_not_mem hfresh, hfirst] at hlast
        simpa [joiners] using hlast
      · have hother : TaskQueue.states .ready priority ≠ .states .ready move.1 := by
          simpa using Ne.symm hpriority
        rw [Lists.append_of_ne _ _ hother, Lists.erase_of_not_mem hfresh, hfirst] at hlast
        simpa [joiners, hpriority] using hlast

theorem Relinks.drains (h : Relinks s s') (hkernel : InKernel s c lists) : Drains s s' := by
  obtain ⟨answered, woken, _, _, hrelinked⟩ := h
  have hrep := hkernel.partition.represents
  intro priority nodes hcontents
  refine ⟨_, ?_, (hrelinked lists hrep).contents _⟩
  rw [hcontents.unique (hrep.contents _)]
  exact (foldl_relocate_sublist (by decide) woken _ priority).trans
    (foldl_relocate_sublist (by decide) answered lists priority)

theorem Relinks.of_taskQueues_eq (hqueues : s'.taskQueues = s.taskQueues) :
    Relinks s s' := by
  refine ⟨[], [], Nat.zero_le _, by simp, ?_⟩
  intro lists hrep
  rw [hqueues]
  exact hrep

theorem Relinks.of_left (hright : Relinks s' s'')
    (hready : ∀ index, (s.task index).state = .ready → (s'.task index).state = .ready)
    (hqueues : s'.taskQueues = s.taskQueues) : Relinks s s'' := by
  obtain ⟨answered, woken, hlength, hmoves, hrelinked⟩ := hright
  rw [hqueues] at hrelinked
  exact ⟨answered, woken, hlength, fun move hmove hwas =>
    hmoves move hmove (hready move.2 hwas), hrelinked⟩

theorem Relinks.of_silent (hright : Relinks s' s'') (hsilent : Silent s s') :
    Relinks s s'' := by
  apply hright.of_left _ hsilent.taskQueues
  rw [hsilent.task]
  exact fun _ hready => hready

theorem Relinks.of_right (hleft : Relinks s s') (hqueues : s''.taskQueues = s'.taskQueues) :
    Relinks s s'' := by
  rw [Relinks, hqueues]
  exact hleft

/-! ## `SetTaskState` -/

def movedBy (s : State) (c tid : ℤ) : List (Priority × ℤ) :=
  if (s.task (slot tid)).tid = tid ∧ slot tid ≠ c then
    [((s.task (slot tid)).priority, slot tid)]
  else []

theorem length_movedBy_le (s : State) (c tid : ℤ) : (movedBy s c tid).length ≤ 1 := by
  rw [movedBy]
  split_ifs <;> simp

theorem Movable.of_mem_movedBy {tid : ℤ} (h : Movable s c tid) {move : Priority × ℤ}
    (hmove : move ∈ movedBy s c tid) : (s.task move.2).state ≠ .ready := by
  rw [movedBy] at hmove
  split_ifs at hmove with hmoves
  · rw [List.mem_singleton.mp hmove]
    exact h.not_ready hmoves.1 hmoves.2
  · exact absurd hmove List.not_mem_nil

theorem relinked_eq (s : State) (c : ℤ) (lists : Lists TaskQueue ℤ) (tid : ℤ)
    (state : TaskState) :
    relinked s c lists tid state = (movedBy s c tid).foldl (relocate state) lists := by
  rw [relinked, movedBy]
  split_ifs <;> rfl

theorem InKernel.represents_setTaskState (h : InKernel s c lists) {tid : ℤ}
    {state : TaskState} (hmovable : Movable s c tid) (hvalue : 0 ≤ state.value) :
    ∀ lists, Represents s.taskQueues lists →
      Represents (setTaskState s tid state).taskQueues
        ((movedBy s c tid).foldl (relocate state) lists) := by
  intro others hothers
  obtain rfl := hothers.unique h.partition.represents
  obtain ⟨queues, heq, hkernel⟩ :=
    h.exists_setTaskState hmovable.inTable hmovable.notDestroyed hvalue
  rw [heq, ← relinked_eq]
  exact hkernel.partition.represents

theorem InKernel.relinks_setTaskState (h : InKernel s c lists) {tid : ℤ}
    (hmovable : Movable s c tid) : Relinks s (setTaskState s tid .ready) := by
  refine ⟨[], movedBy s c tid, length_movedBy_le s c tid, ?_,
    h.represents_setTaskState hmovable (by decide)⟩
  exact fun move hmove => hmovable.of_mem_movedBy hmove

/-- `CompleteReceive` lets the receiver join. -/
theorem InKernel.relinks_completeReceive (h : InKernel s c lists) {tid head : ℤ}
    (hdequeue : (s.msgQueues.dequeueQueue (slot tid)).1 = some head)
    (hfrom : Movable s c (s.node head).fromTid) (hto : Movable s c (s.node head).toTid) :
    Relinks s (completeReceive s tid).2 := by
  have hdelivered := Silent.deliver (received s tid head) (s.node head)
  have hkernel : InKernel (deliver (received s tid head) (s.node head)) c lists :=
    h.congr hdelivered.task hdelivered.currentTask hdelivered.taskQueues
  have hfrom' := hfrom.congr hdelivered.task
  have hto' := hto.congr hdelivered.task
  have hreply : 0 ≤ TaskState.replyBlocked.value := by decide
  obtain ⟨queues, heq, hkernel'⟩ :=
    hkernel.exists_setTaskState hfrom'.inTable hfrom'.notDestroyed hreply
  have hblocked := hkernel.represents_setTaskState hfrom' hreply
  have hready := hkernel'.represents_setTaskState
    (hto'.withState hfrom'.notDestroyed hreply (by decide) queues)
    (by decide : 0 ≤ TaskState.ready.value)
  rw [← heq] at hready
  have hmoves : Relinks (deliver (received s tid head) (s.node head))
      (setTaskState (setTaskState (deliver (received s tid head) (s.node head))
        (s.node head).fromTid .replyBlocked) (s.node head).toTid .ready) := by
    refine ⟨_, _, length_movedBy_le _ _ _, ?_, fun others hothers =>
      hready _ (hblocked others hothers)⟩
    intro move hmove
    rcases List.mem_append.mp hmove with hmove | hmove
    · exact hfrom'.of_mem_movedBy hmove
    · rw [movedBy, heq, State.withTasks_task, tid_withState] at hmove
      split_ifs at hmove with hown
      · rw [List.mem_singleton.mp hmove]
        exact hto'.not_ready hown.1 hown.2
      · exact absurd hmove List.not_mem_nil
  rw [completeReceive_eq hdequeue]
  have hreceived : Relinks (received s tid head) _ := hmoves.of_silent hdelivered
  exact (hreceived.of_left (fun _ hready => hready) rfl).of_right
    (Silent.setTaskReturnValue _ _ _).taskQueues

end Relinks

/-! ## The handlers -/

section Handlers

variable {s s' : State} {l : Layout} {c : ℤ} {lists : Lists TaskQueue ℤ}

theorem InKernel.relinks_unblocked (h : InKernel s c lists) (intr : Word)
    (priorities : List Priority) :
    Relinks s (unblocked s (firstWaiting s lists intr priorities)) := by
  cases hfirst : firstWaiting s lists intr priorities with
  | none => exact .of_taskQueues_eq rfl
  | some head =>
      obtain ⟨_, _, hmem⟩ := exists_of_firstWaiting hfirst
      obtain ⟨hindex, halloc, _, hstate, _⟩ := h.of_mem_states hmem
      have hmovable : Movable s c (s.task head).tid :=
        .of_state hindex (h.named.slot_tid hindex halloc) halloc (by rw [hstate]; decide)
      exact (h.relinks_setTaskState hmovable).of_right
        (Silent.setTaskReturnValue _ _ _).taskQueues

/-- An interrupt lets the task that waits for it join. -/
theorem InKernel.relinks_handleIrq (h : InKernel s c lists) {fuel : ℕ} {intrCode : ℤ}
    {timer : TimerReadings} {time : Word}
    (hirq : handleIrq s fuel intrCode timer = some (time, s')) : Relinks s s' := by
  by_cases hneg : intrCode < 0
  · simp only [handleIrq, if_pos hneg, Option.map_eq_some_iff,
      Prod.mk.injEq] at hirq
    obtain ⟨woken, hunblock, _, rfl⟩ := hirq
    have hsilent := silent_acknowledge s ((1 : Word) <<< (-intrCode).toNat)
      timer.wentOffAtClear
    have hkernel := h.silent hsilent
    rw [unblockTaskWaitingOnEventFrom_of_some hkernel.partition.represents hunblock]
    exact (hkernel.relinks_unblocked _ _).of_silent hsilent
  · simp only [handleIrq, if_neg hneg, Option.some.injEq, Prod.mk.injEq] at hirq
    rw [← hirq.2]
    exact .of_taskQueues_eq rfl

/-- A new task joins. -/
theorem Coherent.relinks_createTaskSafe (h : Coherent s l) (priority : ℤ) (code : Word) :
    Relinks s (createTaskSafe s priority code).2 := by
  rw [createTaskSafe]
  split_ifs
  · exact .of_taskQueues_eq rfl
  · cases hqueue : l.lists .available with
    | nil =>
        rw [createTask_of_empty h.dispatched.partition hqueue]
        exact .of_taskQueues_eq rfl
    | cons index rest =>
        rw [createTask_eq h.dispatched.partition h.family hqueue]
        have hkernel := h.dispatched.toInKernel.created h.dispatched.allocated h.numbered
          hqueue (Priority.ofInt priority) code
        refine ⟨[], [(Priority.ofInt priority, index)], Nat.le_refl _, ?_, ?_⟩
        · intro move hmove
          rw [List.mem_singleton.mp hmove, (h.free_of_available hqueue).2]
          decide
        · intro others hothers
          obtain rfl := hothers.unique h.dispatched.partition.represents
          exact hkernel.partition.represents

/-- An accepted `Send` to a waiting task lets it join. -/
theorem Coherent.relinks_sendProxy (h : Coherent s l) {tid : ℤ}
    (hunlinked : isTaskAlive s tid → ∀ queue, l.current ∉ l.queues queue)
    (uninit : MsgQueueNode) (msg : ℕ) (msglen : Word) (reply : ℕ) (replylen : Word) :
    Relinks s (sendProxy s uninit tid msg msglen reply replylen).2 := by
  rcases h.sendProxy_cases hunlinked uninit msg msglen reply replylen with
    heq | ⟨n, hsends, _, ⟨hwaits, heq⟩ | ⟨_, heq⟩⟩
  · rw [heq]
    exact .of_taskQueues_eq rfl
  · obtain ⟨lists, hkernel⟩ := (h.handled_handedOver n).inKernel
    obtain ⟨hfrom, hto⟩ := h.movable_handOver hsends hwaits
    have hdone := hkernel.relinks_completeReceive
      (h.dequeued_handedOver hsends hwaits) hfrom hto
    have hqueues : (handedOver s l.current n).taskQueues = s.taskQueues := rfl
    rw [heq]
    apply hdone.of_left _ hqueues
    intro index hready
    have hindex : index ≠ l.current := by
      rintro rfl
      rw [h.dispatched.running] at hready
      exact absurd hready (by decide)
    exact (congrArg Task.state (update_of_ne hindex _ s.task)).trans hready
  · rw [heq]
    exact .of_taskQueues_eq rfl

/-- A `Receive` lets no other task join. -/
theorem Coherent.relinks_receiveProxy (h : Coherent s l)
    (hlive : ∀ head rest, l.queues l.current = head :: rest →
      NotDestroyed s (s.node head).fromTid)
    (uninit : MsgQueueNode) (links : QueueNode ℤ) (tid msg : ℕ) (msglen : Word) :
    Relinks s (receiveProxy s uninit links tid msg msglen).2 := by
  cases hqueue : l.queues l.current with
  | nil =>
      rw [h.dispatched.receiveProxy_of_empty h.messages.represents hqueue]
      exact .of_taskQueues_eq rfl
  | cons head rest =>
      rw [h.dispatched.receiveProxy_of_cons h.messages.represents hqueue]
      have hkernel : InKernel (withPointers s ((head :: rest).getLast (by simp)) tid msg
          msglen) l.current l.lists := h.dispatched.toInKernel.congr rfl rfl rfl
      obtain ⟨hfrom, hto⟩ := h.movable_take hqueue (hlive head rest hqueue)
        ((head :: rest).getLast (by simp)) tid msg msglen
      have hdone := hkernel.relinks_completeReceive (h.dequeued hqueue) hfrom hto
      exact hdone.of_left (fun _ hready => hready) rfl

/-- A `Reply` lets the task that waits for it join. -/
theorem Coherent.relinks_replyProxy (h : Coherent s l) (tid : ℤ) (reply : ℕ)
    (replylen : Word) : Relinks s (replyProxy s tid reply replylen).2 := by
  by_cases hawaits : Awaiting s tid
  · obtain ⟨hvalid, htid, hstate⟩ := awaiting_iff.mp hawaits
    have hslot := inTable_slot (isValidTid_iff.mp hvalid).1
    have hcopied := Silent.replied s (s.node (slot tid)) reply replylen
    have hmovable : Movable s l.current tid := by
      apply Movable.of_state hslot rfl
      · exact allocated_of_state hstate (by decide)
      · rw [hstate]
        decide
    have hready := (h.dispatched.toInKernel.silent hcopied).relinks_setTaskState
      (hmovable.congr hcopied.task)
    rw [hawaits.replyProxy_eq, h.fromTid_of_awaiting hawaits]
    exact (hready.of_silent hcopied).of_right (Silent.setTaskReturnValue _ _ _).taskQueues
  · obtain ⟨error, _, hrefused⟩ := replyProxy_refused hawaits reply replylen
    rw [hrefused]
    exact .of_taskQueues_eq rfl

/-- `TasksStatsHandler` leaves the queues as they were. -/
theorem Coherent.relinks_tasksStatsHandler (h : Coherent s l) {fuel container : ℕ}
    (hstats : tasksStatsHandler s fuel container = some s') : Relinks s s' := by
  obtain ⟨tasks, rfl⟩ := h.dispatched.eq_of_tasksStatsHandler hstats
  refine ⟨[], [], Nat.zero_le _, by simp, ?_⟩
  intro others hothers
  obtain rfl := hothers.unique h.dispatched.partition.represents
  exact h.dispatched.restored.1

/-- The handler of a system call. -/
theorem Coherent.relinks_handle (h : Coherent s l) {call : Call} {trap : Trap}
    (hsafe : Safe s (.call call trap)) (hcall : ∀ tid, call ≠ .destroy tid) {fuel : ℕ}
    {result : ℤ} (hhandle : handle s fuel trap call = some (result, s')) :
    Relinks s s' := by
  have hsame : s'.taskQueues = s.taskQueues → Relinks s s' := .of_taskQueues_eq
  cases call with
  | create priority code =>
      obtain rfl := eq_of_handle hhandle
      exact h.relinks_createTaskSafe priority code
  | send tid msg msglen reply replylen =>
      obtain rfl := eq_of_handle hhandle
      exact h.relinks_sendProxy (h.safe_send hsafe) _ _ _ _ _
  | receive tid msg msglen =>
      obtain rfl := eq_of_handle hhandle
      exact h.relinks_receiveProxy (h.safe_receive hsafe).2 _ _ _ _ _
  | reply tid reply replylen =>
      obtain rfl := eq_of_handle hhandle
      exact h.relinks_replyProxy tid reply replylen
  | setPriority tid priority =>
      exact hsame (by rw [eq_of_setPriority hhandle])
  | setMyPriority priority =>
      obtain rfl := eq_of_handle hhandle
      apply hsame
      rw [setCurrentTaskPriority, h.dispatched.current]
      split_ifs <;> rfl
  | getTaskStats tid container =>
      obtain rfl := eq_of_handle hhandle
      exact hsame (Silent.useDescriptor s (slot tid)).taskQueues
  | getTasksStats container =>
      exact h.relinks_tasksStatsHandler (tasksStats_of_handle hhandle)
  | destroy tid => exact absurd rfl (hcall tid)
  | awaitEvent eventid =>
      obtain rfl := eq_of_handle hhandle
      exact hsame rfl
  | exit | pass | myTid | myParentTid | getPriority | getMyPriority =>
      obtain rfl := eq_of_handle hhandle
      exact hsame rfl

end Handlers

end Rtk.Kernel
