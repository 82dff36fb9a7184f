import Rtk.Invariant.Run
import Rtk.Invariant.Writes

/-!
# Blocked tasks

A handler moves the calling task and at most two others.  What follows it saves the
calling task and lets another one run; blocked tasks stay as the handler left them.
-/

namespace Rtk.Kernel

open Function
open Rtk.ByteMemory
open Rtk.Lib
open Rtk.Lib.QueueHeap

/-! ## Saving and dispatching -/

def TaskState.Running (state : TaskState) : Prop := state = .ready ∨ state = .active

instance (state : TaskState) : Decidable state.Running :=
  inferInstanceAs (Decidable (_ ∨ _))

def Turns (state state' : TaskState) : Prop :=
  state' = state ∨ state.Running ∧ state'.Running

/-- The states after the handler: the current task is saved with its frame at `sp`, and
another one may run. -/
structure Resumed (middle : State) (c : ℤ) (sp : ℕ) (s' : State) : Prop where
  quiet : Quiet middle s'
  turns : ∀ index, Turns (middle.task index).state (s'.task index).state
  awaiting : ∀ index, (s'.task index).awaitingEventId = (middle.task index).awaitingEventId
  saved : (s'.task c).sp = sp
  sp : ∀ index, index ≠ c → (s'.task index).sp = (middle.task index).sp

section Saving

variable {s s' middle saved : State} {l : Layout} {c : ℤ} {lists : Lists TaskQueue ℤ}
  {trap : Trap}

theorem Turns.refl (state : TaskState) : Turns state state := .inl rfl

theorem Turns.eq_of_not_running {state state' : TaskState} (h : Turns state state')
    (hstate : ¬state.Running) : state' = state :=
  h.resolve_right fun hrunning => hstate hrunning.1

theorem Turns.running {state state' : TaskState} (h : Turns state state')
    (hstate : state.Running) : state'.Running := by
  rcases h with rfl | ⟨_, hrunning⟩
  · exact hstate
  · exact hrunning

/-- The running task is saved with its frame at `sp`, which may take a result. -/
structure SavedAt (middle : State) (c : ℤ) (sp : ℕ) (saved : State) : Prop where
  memory : ∀ address, ¬InRange sp 4 address →
    saved.memory address = middle.memory address
  image : saved.image = middle.image
  stack : ∀ index, (saved.task index).stack = (middle.task index).stack
  sp : (saved.task c).sp = sp
  others : ∀ index, index ≠ c → saved.task index = middle.task index

theorem InKernel.savedAt_saveTaskState (h : InKernel s c lists) (spsr : Word) (sp : ℕ)
    (pc timer : Word) (wentOff : Bool) :
    SavedAt s c sp (saveTaskState s spsr sp pc timer wentOff) := by
  rw [saveTaskState, h.current_eq]
  refine ⟨fun _ _ => rfl, rfl, ?_, ?_, fun _ hne => State.setTask_of_ne s _ hne⟩
  · intro index
    by_cases hindex : index = c
    · rw [hindex, State.setTask_self]
    · rw [State.setTask_of_ne s _ hindex]
  · rw [State.setTask_self]

theorem InKernel.savedAt_savedCall (h : InKernel s c lists) (trap : Trap) (result : ℤ) :
    SavedAt s c trap.sp (Kernel.savedCall s trap result) := by
  have hsaved := h.savedAt_saveTaskState trap.spsr trap.sp trap.pc trap.timer.entry
    trap.timer.wentOffAtSave
  have hcurrent : (saveTaskState s trap.spsr trap.sp trap.pc trap.timer.entry
      trap.timer.wentOffAtSave).current = c := h.current_eq
  refine ⟨?_, hsaved.image, hsaved.stack, hsaved.sp, hsaved.others⟩
  intro address haddress
  rw [Kernel.savedCall, setCurrentTaskReturnValue, hcurrent, hsaved.sp]
  exact storeWord_of_not_inRange haddress

/-- A task that cannot run stays as the handler left it. -/
theorem Resumed.state_eq {sp : ℕ} (h : Resumed middle c sp s') {index : ℤ}
    {state : TaskState} (hstate : (middle.task index).state = state)
    (hnot : ¬state.Running) : (s'.task index).state = state := by
  have hturns := h.turns index
  rw [hstate] at hturns
  exact hturns.eq_of_not_running hnot

/-- The dispatcher turns the running task and the next one, and no other. -/
theorem InKernel.turns_dispatch (h : InKernel s c lists) {now : Word}
    (hactivate : scheduleAndActivate s now = some s') (index : ℤ) :
    Turns (s.task index).state (s'.task index).state ∧
      (s'.task index).awaitingEventId = (s.task index).awaitingEventId := by
  obtain ⟨next, queues, hfirst, rfl, _⟩ := h.dispatch hactivate
  obtain ⟨_, _, hmem⟩ := exists_of_firstOf hfirst
  have hready := (h.idle.ready hmem).2
  have hpreempted : Turns (s.task index).state (preempted s c index).state ∧
      (preempted s c index).awaitingEventId = (s.task index).awaitingEventId := by
    by_cases hindex : index = c
    · subst index
      rw [preempted_self]
      split_ifs with hactive
      · exact ⟨.inr ⟨.inr hactive, .inl rfl⟩, rfl⟩
      · exact ⟨.refl _, rfl⟩
    · rw [preempted_of_ne hindex]
      exact ⟨.refl _, rfl⟩
  by_cases hindex : index = next
  · subst index
    rw [activatedState_self]
    refine ⟨?_, hpreempted.2⟩
    rcases hpreempted.1 with hsame | ⟨hrunning, _⟩
    · exact .inr ⟨.inl (hsame ▸ hready), .inr rfl⟩
    · exact .inr ⟨hrunning, .inr rfl⟩
  · rw [activatedState_of_ne now queues hindex]
    exact hpreempted

/-- A task that is saved and requeued is resumed. -/
theorem SavedAt.resumed {sp : ℕ} (h : SavedAt middle c sp saved)
    (hsaves : Saves middle c saved) (hkernel : InKernel saved c lists)
    (hawaiting : (saved.task c).awaitingEventId = (middle.task c).awaitingEventId)
    {now : Word} (hactivate : scheduleAndActivate saved now = some s') :
    Resumed middle c sp s' where
  quiet := by
    obtain ⟨_, _, _, _, _, hquiet⟩ := hkernel.dispatch hactivate
    exact hsaves.quietly.quiet.trans hquiet
  turns := by
    intro index
    rw [← hsaves.state]
    exact (hkernel.turns_dispatch hactivate index).1
  awaiting := by
    intro index
    rw [(hkernel.turns_dispatch hactivate index).2]
    by_cases hindex : index = c
    · rw [hindex, hawaiting]
    · rw [h.others index hindex]
  saved := by rw [(hkernel.records_dispatch hactivate).sp, h.sp]
  sp := by
    intro index hindex
    rw [(hkernel.records_dispatch hactivate).sp, h.others index hindex]

/-- A round with a system call. -/
theorem Coherent.exists_resumed_call (h : Coherent s l) {call : Call}
    (hsafe : Safe s (.call call trap)) (hstep : Step s (.call call trap) s') :
    ∃ fuel result middle,
      handle (entered s trap) fuel trap call = some (result, middle) ∧
      Resumed middle l.current trap.sp s' := by
  obtain ⟨fuel, result, middle, _, hhandle, heffect, hsaves, hactivate⟩ :=
    h.round_call hsafe hstep
  obtain ⟨_, hkernel⟩ := heffect.inKernel (h.enter trap)
  refine ⟨fuel, result, middle, hhandle, ?_⟩
  apply (hkernel.savedAt_savedCall trap result).resumed hsaves
    (hkernel.savedCall trap result) _ hactivate
  rw [savedCall, setCurrentTaskReturnValue, (Silent.storeWord _ _ _).task, saveTaskState,
    hkernel.current_eq, State.setTask_self]

/-- A round with an interrupt. -/
theorem Coherent.exists_resumed_interrupt (h : Coherent s l) {intrCode : ℤ}
    (hstep : Step s (.interrupt intrCode trap) s') :
    ∃ fuel time middle,
      handleIrq (entered s trap) fuel intrCode trap.timer = some (time, middle) ∧
      Resumed middle l.current trap.sp s' := by
  obtain ⟨fuel, time, middle, hirq, heffect, hsaves, hactivate⟩ :=
    h.round_interrupt hstep
  obtain ⟨_, hkernel⟩ := heffect.inKernel (h.enter trap)
  obtain ⟨_, hsaved⟩ := hsaves.quietly.inKernel
  refine ⟨fuel, time, middle, hirq, ?_⟩
  apply (hkernel.savedAt_saveTaskState _ _ _ _ _).resumed hsaves hsaved _ hactivate
  rw [saveTaskState, hkernel.current_eq, State.setTask_self]

end Saving

/-! ## What the handlers move -/

section Moves

variable {s s' : State} {l : Layout} {c : ℤ} {lists : Lists TaskQueue ℤ} {trap : Trap}

/-- A local call leaves the descriptors of the other tasks alone. -/
theorem Coherent.task_of_local (h : Coherent s l) {call : Call} (hlocal : call.Local)
    {fuel : ℕ} {result : ℤ} (hhandle : handle s fuel trap call = some (result, s'))
    {index : ℤ} (hindex : index ≠ l.current) : s'.task index = s.task index := by
  cases call with
  | create | send | receive | reply | destroy => exact hlocal.elim
  | exit =>
      obtain rfl := eq_of_handle hhandle
      rw [exitTask, setCurrentTaskState]
      apply State.setTask_of_ne
      exact h.dispatched.current_eq ▸ hindex
  | awaitEvent eventid =>
      obtain rfl := eq_of_handle hhandle
      have hother : index ≠ s.current := h.dispatched.current_eq ▸ hindex
      exact (State.setTask_of_ne _ _ hother).trans (State.setTask_of_ne s _ hother)
  | setPriority tid priority =>
      rw [eq_of_setPriority hhandle]
  | setMyPriority priority =>
      obtain rfl := eq_of_handle hhandle
      rw [setCurrentTaskPriority, h.dispatched.current]
      split_ifs
      · rfl
      · exact State.setTask_of_ne s _ hindex
  | getTaskStats tid container =>
      obtain rfl := eq_of_handle hhandle
      rw [taskStatsHandler]
      exact congrFun (Silent.useDescriptor s (slot tid)).task index
  | getTasksStats container =>
      obtain ⟨tasks, rfl⟩ :=
        h.dispatched.eq_of_tasksStatsHandler (tasksStats_of_handle hhandle)
      rfl
  | pass | myTid | myParentTid | getPriority | getMyPriority =>
      obtain rfl := eq_of_handle hhandle
      rfl

/-- An interrupt leaves a task alone, or wakes it from its wait for the event. -/
theorem InKernel.task_handleIrq_cases (h : InKernel s c lists) {fuel : ℕ} {intrCode : ℤ}
    {timer : TimerReadings} {time : Word}
    (hirq : handleIrq s fuel intrCode timer = some (time, s')) (index : ℤ) :
    s'.task index = s.task index ∨
      intrCode < 0 ∧ (s.task index).state = .eventBlocked ∧
        (s.task index).awaitingEventId = (1 : Word) <<< (-intrCode).toNat ∧
        s'.task index = { s.task index with state := .ready } := by
  rw [h.task_handleIrq_eq hirq]
  split_ifs with hneg
  · cases hfirst : firstWaiting s lists ((1 : Word) <<< (-intrCode).toNat) Priority.all with
    | none => exact .inl rfl
    | some head =>
        obtain ⟨_, _, hmem⟩ := exists_of_firstWaiting hfirst
        by_cases hindex : index = head
        · subst index
          refine .inr ⟨hneg, (h.of_mem_states hmem).2.2.2.1, firstWaiting_waits hfirst, ?_⟩
          rw [awakened, update_self]
        · exact .inl (update_of_ne hindex _ _)
  · exact .inl rfl

/-- What a `Reply` to a task that waits for one does. -/
theorem Coherent.exists_replyProxy (h : Coherent s l) {tid : ℤ} (hawaits : Awaiting s tid)
    (reply : ℕ) (replylen : Word) :
    ∃ queues,
      replyProxy s tid reply replylen =
        (if (s.node (slot tid)).replyBufferSize.slt replylen then errBufferTooSmall
          else returnStatusOk,
        ((replied s (s.node (slot tid)) reply replylen).withTasks
          (update s.task (slot tid) { s.task (slot tid) with state := .ready })
          queues).storeWord (s.task (slot tid)).sp (BitVec.ofInt 32 replylen.toInt)) := by
  obtain ⟨hvalid, htid, hstate⟩ := awaiting_iff.mp hawaits
  have hslot := inTable_slot (isValidTid_iff.mp hvalid).1
  have hcopied := Silent.replied s (s.node (slot tid)) reply replylen
  have hlive : NotDestroyed (replied s (s.node (slot tid)) reply replylen) tid := by
    intro _
    rw [Allocated, hcopied.task, hstate]
    decide
  obtain ⟨queues, heq, _⟩ := (h.dispatched.toInKernel.silent hcopied).exists_setTaskState
    hslot hlive (by decide : 0 ≤ TaskState.ready.value)
  have htask : withState s.task tid .ready =
      update s.task (slot tid) { s.task (slot tid) with state := .ready } := by
    rw [withState, if_pos htid]
  rw [hcopied.task, htask] at heq
  have halive : isTaskAlive ((replied s (s.node (slot tid)) reply replylen).withTasks
      (update s.task (slot tid) { s.task (slot tid) with state := .ready }) queues) tid := by
    obtain ⟨hnonneg, hle⟩ := isValidTid_iff.mp hvalid
    refine isTaskAlive_iff.mpr ⟨hnonneg, hle, ?_, ?_⟩
    · simp [htid]
    · simp [TaskState.value]
  refine ⟨queues, ?_⟩
  rw [hawaits.replyProxy_eq, h.fromTid_of_awaiting hawaits, heq, setTaskReturnValue, halive]
  simp

end Moves

/-! ## Rendezvous -/

/-- The task `sender` waits for the reply to its message in `node`, which the task `receiver`
has taken; before that the handler records `made`. -/
structure Rendezvous (s : State) (sender receiver : ℤ) (node : MsgQueueNode)
    (made : List Event) (s' : State) : Prop where
  blocked : s'.task sender = { s.task sender with state := .replyBlocked }
  woken : s'.task receiver = { s.task receiver with state := .ready }
  others : ∀ index, index ≠ sender → index ≠ receiver → s'.task index = s.task index
  kept : s'.node sender = node
  nodes : ∀ index, index ≠ sender → (s'.node index).message = (s.node index).message
  log : ∃ events, s'.log = s.log ++ made ++ .taken (s.task receiver).tid node :: events ∧
    ∀ event ∈ events, ¬event.IsMessage

section Rendezvous

variable {s s' : State} {l : Layout} {c sender receiver : ℤ}

/-- The descriptors that `CompleteReceive` of a node changes. -/
theorem Completed.task_cases {tid : ℤ} (h : Completed s c tid sender s')
    (hfrom : (s.node sender).fromTid = (s.task sender).tid)
    (hto : (s.node sender).toTid = (s.task receiver).tid)
    (hslotFrom : slot (s.task sender).tid = sender)
    (hslotTo : slot (s.task receiver).tid = receiver) (hne : sender ≠ receiver) :
    s'.task sender = { s.task sender with state := .replyBlocked } ∧
      s'.task receiver = { s.task receiver with state := .ready } ∧
      ∀ index, index ≠ sender → index ≠ receiver → s'.task index = s.task index := by
  have hblocked : withState s.task (s.node sender).fromTid .replyBlocked =
      update s.task sender { s.task sender with state := .replyBlocked } := by
    rw [withState, hfrom, hslotFrom, if_pos rfl]
  have htask : s'.task = update (update s.task sender
      { s.task sender with state := .replyBlocked }) receiver
        { s.task receiver with state := .ready } := by
    rw [h.task, exchanged, hblocked, withState, hto, hslotTo,
      update_of_ne (Ne.symm hne), if_pos rfl]
  rw [htask]
  refine ⟨?_, update_self _ _ _, ?_⟩
  · rw [update_of_ne hne, update_self]
  · intro index hsender hreceiver
    rw [update_of_ne hreceiver, update_of_ne hsender]

/-- A `Send` to a waiting task. -/
theorem Coherent.rendezvous_handOver (h : Coherent s l) {n : MsgQueueNode}
    (hsends : Sends s l n) (hwaits : (s.task (slot n.toTid)).state = .sendBlocked) :
    Rendezvous s l.current (slot n.toTid) (handedNode s n) [.sent n]
      (completeReceive (handedOver s l.current n) n.toTid).2 := by
  have hdone := h.completed_handOver hsends hwaits
  have hne := h.ne_current hwaits
  have hto : (s.task (slot n.toTid)).tid = n.toTid := tid_of_alive hsends.alive
  have hself := task_handedOver_self s l.current n
  have hother := @task_handedOver_of_ne s l.current (slot n.toTid) n hne
  obtain ⟨hsender, hreceiver, hothers⟩ := @Completed.task_cases _ _ _ _ (slot n.toTid) _ hdone
    (by rw [hsends.fromTid_handedOver, hself])
    (by rw [toTid_handedOver, hother, hto])
    (by rw [hself, h.dispatched.slot_tid])
    (by rw [hother, hto]) (Ne.symm hne)
  have hnode := node_handedOver_self s l.current n
  obtain ⟨events, hlog, hquiet⟩ := hdone.log
  refine ⟨?_, ?_, ?_, ?_, ?_, ⟨events, ?_, hquiet⟩⟩
  · rw [hsender, hself]
  · rw [hreceiver, hother]
  · intro index hindex hindexTo
    rw [hothers index hindex hindexTo, task_handedOver_of_ne n hindex]
  · rw [hdone.node, hnode]
  · intro index hindex
    rw [hdone.node, handedOver, (fields_withPointers _ _ _ _ _ _).2.2, queuedSend]
    exact congrArg MsgQueueNode.message (update_of_ne hindex _ _)
  · rw [hto, ← hnode]
    exact hlog

/-- A `Receive` of the oldest message, when its sender is still there. -/
theorem Coherent.rendezvous_take (h : Coherent s l) (haddressed : Addressed s l.queues)
    (hoccupied : Occupied s l.queues) {head : ℤ} {rest : List ℤ}
    (hqueue : l.queues l.current = head :: rest) (index : ℤ) (putTid msg : ℕ)
    (msglen : Word) :
    Rendezvous s head l.current ((withPointers s index putTid msg msglen).node head) []
      (completeReceive (withPointers s index putTid msg msglen)
        (s.task l.current).tid).2 := by
  have hmem : head ∈ l.queues l.current := by simp [hqueue]
  have halloc := hoccupied.sender hmem
  have hlinked := h.messages.linked hmem
  have hlive : NotDestroyed s (s.node head).fromTid := by
    intro _
    rw [hlinked.slot_from]
    exact halloc
  have hdone := h.completed_take hqueue hlive index putTid msg msglen
  obtain ⟨hfrom, hto, hmessage⟩ := fields_withPointers s index putTid msg msglen head
  have hne : head ≠ l.current := by
    rintro rfl
    have hblocked := h.messages.state_of_linked hmem halloc (haddressed.from_eq hmem)
    rw [h.dispatched.running] at hblocked
    simp at hblocked
  obtain ⟨hsender, hreceiver, hothers⟩ := @Completed.task_cases _ _ _ _ l.current _ hdone
    (by rw [hfrom, haddressed.from_eq hmem]; rfl)
    (by rw [hto, haddressed.to_eq hmem]; rfl)
    (by
      have hslot := hlinked.slot_from
      rwa [haddressed.from_eq hmem] at hslot)
    h.dispatched.slot_tid hne
  obtain ⟨events, hlog, hquiet⟩ := hdone.log
  refine ⟨hsender, hreceiver, hothers, ?_, ?_, ⟨events, ?_, hquiet⟩⟩
  · rw [hdone.node]
  · intro other _
    rw [hdone.node, (fields_withPointers _ _ _ _ _ _).2.2]
  · rw [hlog, List.append_nil]
    rfl

end Rendezvous

end Rtk.Kernel
