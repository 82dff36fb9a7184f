import Rtk.Invariant.Ledger

/-!
# What a round settles

A round changes the outstanding `Send`s as its call and its events say: a `Send` that is
accepted is owed, a message that is taken stays owed, and a `Reply` ends the `Send` of a task
whose message was taken.
-/

namespace Rtk.Kernel

open Function
open Rtk.ByteMemory
open Rtk.Lib

section Handlers

variable {s s' middle : State} {l : Layout} {trap : Trap}

/-- The `Send`s after a round are what its events make of `outstanding`. -/
def Settles (s : State) (outstanding : ℤ → Option Outstanding) (s' : State) : Prop :=
  ∃ events, s'.log = s.log ++ events ∧ owed s' = events.foldl recorded outstanding

/-- The events of a round are those of the handler, but for quiet ones. -/
theorem Quiet.settles (h : Quiet middle s') {made : List Event}
    (hmade : middle.log = s.log ++ made) {outstanding : ℤ → Option Outstanding}
    (howed : owed s' = made.foldl recorded outstanding) : Settles s outstanding s' := by
  obtain ⟨quiet, hlog, hquiet⟩ := h.log
  refine ⟨made ++ quiet, ?_, ?_⟩
  · rw [hlog, hmade, List.append_assoc]
  · rw [howed, List.foldl_append, foldl_recorded_quiet hquiet]

/-- A quiet handler that wakes no sender leaves every task in its `Send`. -/
theorem Coherent.inSameSend_of_quiet (h : Coherent s l) (hquiet : Quiet s middle)
    (hothers : ∀ index, index ≠ l.current → InSameSend s middle index) (index : ℤ) :
    InSameSend s middle index ∧ (index = l.current → ¬(middle.task index).state.Sending) := by
  have hrunning : ¬(s.task l.current).state.Sending ∧
      ¬(middle.task l.current).state.Sending := by
    rw [h.dispatched.running]
    refine ⟨by decide, ?_⟩
    rcases hquiet.state l.current with hsame | ⟨_, hnot⟩
    · rw [hsame, h.dispatched.running]
      decide
    · exact fun hsending => hnot (.inr hsending)
  by_cases hindex : index = l.current
  · rw [hindex]
    exact ⟨.inr hrunning, fun _ => hrunning.2⟩
  · exact ⟨hothers index hindex, fun heq => absurd heq hindex⟩

/-- The round of such a handler changes no `Send`. -/
theorem Coherent.settles_quiet (h : Coherent s l) (hquiet : Quiet (entered s trap) middle)
    (hothers : ∀ index, index ≠ l.current → InSameSend (entered s trap) middle index)
    (hresumed : Resumed middle l.current trap.sp s') : Settles s (owed s) s' := by
  obtain ⟨made, hmade, hnone⟩ := hquiet.log
  apply hresumed.quiet.settles hmade
  rw [foldl_recorded_quiet hnone]
  apply owed_eq_of_same
  intro index
  obtain ⟨hsame, hcurrent⟩ := (h.enter trap).inSameSend_of_quiet hquiet hothers index
  apply hsame.of_entered.trans
  apply hresumed.inSameSend
  rintro rfl
  exact hcurrent rfl

/-- The task that enters or goes on in a `Send`, and what its `Send` is after the round. -/
theorem Resumed.owed_eq_update {index : ℤ} (h : Resumed middle l.current trap.sp s')
    (htid : (middle.task index).tid = (s.task index).tid)
    (hothers : ∀ other, other ≠ index → InSameSend s middle other)
    (hcurrent : l.current ≠ index → ¬(middle.task l.current).state.Sending) :
    owed s' = update (owed s) (s.task index).tid (owed s' (s.task index).tid) := by
  apply Kernel.owed_eq_update
  · intro other hother
    apply (hothers other hother).trans
    apply h.inSameSend
    rintro rfl
    exact hcurrent hother
  · rw [h.quiet.keeps.tid, htid]

/-- Local calls and interrupts change no `Send`. -/
theorem Coherent.settles_local (h : Coherent s l) {call : Call} (hlocal : call.Local)
    {fuel : ℕ} {result : ℤ}
    (hhandle : handle (entered s trap) fuel trap call = some (result, middle))
    (hresumed : Resumed middle l.current trap.sp s') : Settles s (owed s) s' := by
  have hentered := h.enter trap
  have hquiet := (hentered.handledQuietly_of_local hlocal hhandle).quiet
  apply h.settles_quiet hquiet _ hresumed
  intro index hindex
  left
  apply Alike.of_task_eq (hentered.task_of_local hlocal hhandle hindex)
  rw [hquiet.node]

theorem Coherent.settles_interrupt (h : Coherent s l) {fuel : ℕ} {intrCode : ℤ} {time : Word}
    (hirq : handleIrq (entered s trap) fuel intrCode trap.timer = some (time, middle))
    (hresumed : Resumed middle l.current trap.sp s') : Settles s (owed s) s' := by
  have hkernel := (h.enter trap).dispatched.toInKernel
  have hquiet := (hkernel.handled_handleIrq hirq).quiet
  apply h.settles_quiet hquiet _ hresumed
  intro index hindex
  rcases hkernel.task_handleIrq_cases hirq index with hsame | ⟨_, hwaits, _, hwoken⟩
  · left
    apply Alike.of_task_eq hsame
    rw [hquiet.node]
  · right
    rw [hwaits, hwoken]
    exact ⟨by decide, by simp [TaskState.Sending]⟩

/-- A refused call changes no `Send`. -/
theorem Coherent.settles_refused (h : Coherent s l)
    (hresumed : Resumed (entered s trap) l.current trap.sp s') : Settles s (owed s) s' :=
  h.settles_quiet (.refl _) (fun _ _ => .inl (.of_task_eq rfl rfl)) hresumed

/-- A new task is in no `Send`. -/
theorem Coherent.settles_create (h : Coherent s l) {priority : ℤ} {code : Word}
    (hresumed : Resumed (createTaskSafe (entered s trap) priority code).2 l.current trap.sp s')
    : Settles s (owed s) s' := by
  have hentered := h.enter trap
  rw [createTaskSafe] at hresumed
  split_ifs at hresumed
  · exact h.settles_refused hresumed
  · cases hqueue : l.lists .available with
    | nil =>
        rw [createTask_of_empty hentered.dispatched.partition hqueue] at hresumed
        exact h.settles_refused hresumed
    | cons index rest =>
        rw [createTask_eq hentered.dispatched.partition hentered.family hqueue] at hresumed
        obtain ⟨_, hfree⟩ := h.free_of_available hqueue
        have hmade : (created (entered s trap) index (Priority.ofInt priority) code).log =
            s.log ++ [.storedWord _ _] := rfl
        apply hresumed.quiet.settles hmade
        apply owed_eq_of_same
        intro other
        have hne : index ≠ l.current := by
          rintro rfl
          rw [h.dispatched.running] at hfree
          simp at hfree
        have hfirst : InSameSend s (created (entered s trap) index (Priority.ofInt priority)
            code) other := by
          by_cases hother : other = index
          · subst other
            right
            rw [hfree, task_created_self]
            exact ⟨by decide, by simp [newTask, TaskState.Sending]⟩
          · left
            exact .of_task_eq (task_created_of_ne _ _ hother) rfl
        apply hfirst.trans
        apply hresumed.inSameSend
        rintro rfl
        rw [task_created_of_ne _ _ (Ne.symm hne)]
        have hrunning := h.dispatched.running
        rw [show ((entered s trap).task l.current).state = .active from hrunning]
        decide

theorem not_sending_of_running {state : TaskState} (hrunning : state.Running) :
    ¬state.Sending := by
  rcases hrunning with hstate | hstate <;> rw [hstate] <;> decide

/-- A `Reply` ends the `Send` of a task whose message was taken, and no other. -/
theorem Coherent.settles_reply (h : Coherent s l) {tid : ℤ} {reply : ℕ} {replylen : Word}
    (hresumed : Resumed (replyProxy (entered s trap) tid reply replylen).2 l.current trap.sp s') :
    Settles s (noted s (owed s) (.call (.reply tid reply replylen) trap)) s' := by
  have hentered := h.enter trap
  by_cases hawaits : Awaiting (entered s trap) tid
  · obtain ⟨queues, heq⟩ := hentered.exists_replyProxy hawaits reply replylen
    obtain ⟨_, htid, hstate⟩ := awaiting_iff.mp hawaits
    have htaken : (owed s tid).any Outstanding.taken := awaiting_iff_taken.mp hawaits
    obtain ⟨made, hmade, hnone⟩ := (hentered.handled_replyProxy tid reply replylen).quiet.log
    have hnode := (hentered.handled_replyProxy tid reply replylen).quiet.node
    have hne : l.current ≠ slot tid := by
      intro hsame
      rw [← hsame, hentered.dispatched.running] at hstate
      simp at hstate
    have htask : (replyProxy (entered s trap) tid reply replylen).2.task =
        update s.task (slot tid) { s.task (slot tid) with state := .ready } := by
      rw [heq]
      rfl
    have hown : (s.task (slot tid)).tid = tid := htid
    have hready : owed s' tid = none := by
      apply owed_of_not_sending
      apply not_sending_of_running
      apply (hresumed.turns (slot tid)).running
      rw [htask, update_self]
      exact .inl rfl
    apply hresumed.quiet.settles hmade
    rw [foldl_recorded_quiet hnone, noted, if_pos htaken]
    have hsame : ((replyProxy (entered s trap) tid reply replylen).2.task (slot tid)).tid =
        (s.task (slot tid)).tid := by
      rw [htask, update_self]
    have hupdate := hresumed.owed_eq_update hsame
    rw [hown, hready] at hupdate
    apply hupdate
    · intro other hother
      left
      apply Alike.of_task_eq
      · rw [htask, update_of_ne hother]
      · rw [hnode]
        rfl
    · intro _
      rw [htask, update_of_ne hne, h.dispatched.running]
      decide
  · obtain ⟨error, _, hrefused⟩ := replyProxy_refused hawaits reply replylen
    have htaken : ¬(owed s tid).any Outstanding.taken := fun htrue =>
      hawaits (awaiting_iff_taken.mpr htrue)
    rw [hrefused] at hresumed
    rw [noted, if_neg htaken]
    exact h.settles_refused hresumed

/-- A task with a tid of its own slot has a valid one. -/
theorem Coherent.isValidTid_tid (h : Coherent s l) {index : ℤ} (hindex : InTable index)
    (halloc : Allocated s index) : isValidTid (s.task index).tid :=
  isValidTid_iff.mpr ⟨h.dispatched.named.tid_nonneg hindex halloc,
    h.dispatched.named.tid_le hindex halloc⟩

/-- A message that is taken stays owed, as one that was taken. -/
theorem recorded_taken (outstanding : ℤ → Option Outstanding) {tid : ℤ}
    {node : MsgQueueNode} {events : List Event} (hquiet : ∀ event ∈ events, ¬event.IsMessage) :
    (Event.taken tid node :: events).foldl recorded outstanding =
      update outstanding node.fromTid
        ((outstanding node.fromTid).map fun send => { send with taken := true }) := by
  rw [List.foldl_cons, foldl_recorded_quiet hquiet, recorded]

/-- After a rendezvous only the `Send` of the sender is another one. -/
theorem Rendezvous.owed_eq {sender receiver : ℤ} {node : MsgQueueNode} {made : List Event}
    (h : Rendezvous s sender receiver node made middle)
    (hresumed : Resumed middle l.current trap.sp s') (hwaits : ¬(s.task receiver).state.Sending)
    (hcurrent : l.current ≠ sender → l.current = receiver) :
    owed s' = update (owed s) (s.task sender).tid (owed s' (s.task sender).tid) := by
  apply hresumed.owed_eq_update
  · rw [h.blocked]
  · intro other hother
    by_cases hreceiver : other = receiver
    · subst other
      right
      rw [h.woken]
      exact ⟨hwaits, by simp [TaskState.Sending]⟩
    · left
      exact .of_task_eq (h.others other hother hreceiver) (h.nodes other hother)
  · intro hother
    rw [hcurrent hother, h.woken]
    simp [TaskState.Sending]

/-- A task that blocks leaves the others as they are. -/
theorem Blocks.alike {c other : ℤ} {state : TaskState} {n : MsgQueueNode}
    (h : Blocks (entered s trap) c state n middle) (hother : other ≠ c) :
    Alike s middle other :=
  .of_task_eq (h.others other hother) (congrArg MsgQueueNode.message (h.nodes other hother))

section Send

variable {n : MsgQueueNode}

/-- A message that is handed over is owed, as one that was taken. -/
theorem Coherent.settles_handOver (h : Coherent s l) (hsends : Sends (entered s trap) l n)
    (hwaits : (s.task (slot n.toTid)).state = .sendBlocked)
    (hresumed : Resumed (completeReceive (handedOver (entered s trap) l.current n) n.toTid).2
      l.current trap.sp s') :
    Settles s (update (owed s) (s.task l.current).tid
      (some ⟨n.replyBuffer, n.replyBufferSize, trap.sp, false⟩)) s' := by
  have hslot : slot (s.task l.current).tid = l.current := h.dispatched.slot_tid
  have hmeet := (h.enter trap).rendezvous_handOver hsends hwaits
  have hupdate : owed s' =
      update (owed s) (s.task l.current).tid (owed s' (s.task l.current).tid) := by
    apply hmeet.owed_eq hresumed
    · rw [show ((entered s trap).task (slot n.toTid)).state = .sendBlocked from hwaits]
      decide
    · exact fun hother => absurd rfl hother
  have hstate : (s'.task l.current).state = .replyBlocked := by
    apply hresumed.state_eq
    · rw [hmeet.blocked]
    · decide
  have hkept : (s'.task l.current).tid = (s.task l.current).tid := by
    rw [hresumed.quiet.keeps.tid, hmeet.blocked]
    rfl
  have hbuffer := congrArg MsgQueueNode.replyBuffer hmeet.kept
  have hsize := congrArg MsgQueueNode.replyBufferSize hmeet.kept
  have howed : owed s' (s.task l.current).tid =
      some ⟨n.replyBuffer, n.replyBufferSize, trap.sp, true⟩ := by
    rw [owed_of_replyBlocked (h.isValidTid_tid h.dispatched.inTable h.dispatched.allocated)
      (by rw [hslot, hkept]) (by rw [hslot, hstate]), hslot, hresumed.quiet.node,
      hresumed.saved]
    exact congrArg some (congrArg₂ (fun buffer size =>
      (⟨buffer, size, trap.sp, true⟩ : Outstanding)) hbuffer hsize)
  obtain ⟨quiet, hmade, hquiet⟩ := hmeet.log
  rw [List.append_assoc] at hmade
  apply hresumed.quiet.settles hmade
  rw [List.foldl_append, recorded_taken _ hquiet, hupdate, howed]
  have hfrom : (handedNode (entered s trap) n).fromTid = (s.task l.current).tid :=
    hsends.fromTid
  rw [List.foldl_cons, List.foldl_nil, recorded_sent, hfrom, update_self, update_idem]
  rfl

/-- A message that is queued is owed. -/
theorem Coherent.settles_queuedSend (h : Coherent s l)
    (hresumed : Resumed (queuedSend (entered s trap) l.current n) l.current trap.sp s') :
    Settles s (update (owed s) (s.task l.current).tid
      (some ⟨n.replyBuffer, n.replyBufferSize, trap.sp, false⟩)) s' := by
  have hslot : slot (s.task l.current).tid = l.current := h.dispatched.slot_tid
  have hblocks := blocks_queuedSend (entered s trap) l.current n
  obtain ⟨hstate, hnode, _⟩ := hblocks.resumed hresumed (by decide)
  have hupdate : owed s' =
      update (owed s) (s.task l.current).tid (owed s' (s.task l.current).tid) := by
    apply hresumed.owed_eq_update
    · rw [hblocks.task]
      rfl
    · exact fun other hother => .inl (hblocks.alike hother)
    · exact fun hother => absurd rfl hother
  have hkept : (s'.task l.current).tid = (s.task l.current).tid := by
    rw [hresumed.quiet.keeps.tid, hblocks.task]
    rfl
  have howed : owed s' (s.task l.current).tid =
      some ⟨n.replyBuffer, n.replyBufferSize, trap.sp, false⟩ := by
    rw [owed_of_receiveBlocked (h.isValidTid_tid h.dispatched.inTable h.dispatched.allocated)
      (by rw [hslot, hkept]) (by rw [hslot, hstate]), hslot, hnode, hresumed.saved]
  have hmade : (queuedSend (entered s trap) l.current n).log = s.log ++ [.sent n] := rfl
  apply hresumed.quiet.settles hmade
  rw [hupdate, howed]
  rfl

/-- A `Send` is owed from the moment it is accepted; a waiting receiver takes its message
at once. -/
theorem Coherent.settles_send (h : Coherent s l)
    (hunlinked : ∀ queue, l.current ∉ l.queues queue) {tid : ℤ} {msg reply : ℕ}
    {msglen replylen : Word}
    (hresumed : Resumed (sendProxy (entered s trap) trap.uninit tid msg msglen reply
      replylen).2 l.current trap.sp s') :
    Settles s (noted s (owed s) (.call (.send tid msg msglen reply replylen) trap)) s' := by
  have hentered := h.enter trap
  by_cases halive : isTaskAlive s tid
  · have halive' : isTaskAlive (entered s trap) tid := halive
    have hsends : Sends (entered s trap) l
        (sendNode trap.uninit (s.task l.current).tid tid msg msglen reply replylen) :=
      ⟨rfl, halive, hunlinked⟩
    rw [hentered.dispatched.sendProxy_eq halive'] at hresumed
    rw [noted, if_pos halive, h.dispatched.getCurrentTid_eq]
    split_ifs at hresumed with hwaits
    · exact h.settles_handOver hsends hwaits hresumed
    · exact h.settles_queuedSend hresumed
  · have halive' : ¬isTaskAlive (entered s trap) tid := halive
    rw [sendProxy_of_not_alive halive'] at hresumed
    rw [noted, if_neg halive]
    exact h.settles_refused hresumed

end Send

section Receive

variable {tid msg : ℕ} {msglen : Word}

/-- A task that waits for a message is in no `Send`. -/
theorem Coherent.settles_waits (h : Coherent s l) {n : MsgQueueNode} {links : QueueNode ℤ}
    (hresumed : Resumed (waitingReceive (entered s trap) l.current n links) l.current trap.sp s')
    : Settles s (owed s) s' := by
  have hblocks := blocks_waitingReceive (entered s trap) l.current n links
  have hself : ((waitingReceive (entered s trap) l.current n links).task l.current).state =
      .sendBlocked := by
    rw [hblocks.task]
  have hmade : (waitingReceive (entered s trap) l.current n links).log = s.log ++ [.waiting
    (s.task l.current).tid n.putTid n.receiveBuffer n.receiveBufferSize] := rfl
  apply hresumed.quiet.settles hmade
  apply owed_eq_of_same
  intro index
  have hfirst : InSameSend s (waitingReceive (entered s trap) l.current n links) index := by
    by_cases hindex : index = l.current
    · subst index
      right
      rw [h.dispatched.running, hself]
      exact ⟨by decide, by decide⟩
    · exact .inl (hblocks.alike hindex)
  apply hfirst.trans
  apply hresumed.inSameSend
  rintro rfl
  rw [hself]
  decide

/-- A message that is taken stays owed. -/
theorem Undestroyed.settles_takes (h : Undestroyed s l) {head : ℤ} {node : MsgQueueNode}
    (hmem : head ∈ l.queues l.current) (hmessage : node.message = (s.node head).message)
    (hmeet : Rendezvous (entered s trap) head l.current node [] middle)
    (hresumed : Resumed middle l.current trap.sp s') : Settles s (owed s) s' := by
  have hlinked := h.messages.linked hmem
  have hfrom := h.addressed.from_eq hmem
  have hblocked := h.state_of_mem hmem
  have hslot : slot (s.task head).tid = head := by
    rw [← hfrom]
    exact hlinked.slot_from
  have hvalid := h.toCoherent.isValidTid_tid hlinked.index_inTable (h.occupied.sender hmem)
  have hne : head ≠ l.current := by
    rintro rfl
    rw [h.dispatched.running] at hblocked
    simp at hblocked
  have hupdate : owed s' = update (owed s) (s.task head).tid (owed s' (s.task head).tid) := by
    apply hmeet.owed_eq hresumed
    · rw [show ((entered s trap).task l.current).state = .active from h.dispatched.running]
      decide
    · exact fun _ => rfl
  have hstate : (s'.task head).state = .replyBlocked := by
    apply hresumed.state_eq
    · rw [hmeet.blocked]
    · decide
  have hkept : (s'.task head).tid = (s.task head).tid := by
    rw [hresumed.quiet.keeps.tid, hmeet.blocked]
    rfl
  have hsp : (s'.task head).sp = (s.task head).sp := by
    rw [hresumed.sp head hne, hmeet.blocked]
    rfl
  have hkeeps : (middle.node head).message = (s.node head).message := by
    rw [hmeet.kept, hmessage]
  have hbuffer := congrArg MsgQueueNode.replyBuffer hkeeps
  have hsize := congrArg MsgQueueNode.replyBufferSize hkeeps
  have howed : owed s' (s.task head).tid =
      (owed s (s.task head).tid).map fun send => { send with taken := true } := by
    rw [owed_of_replyBlocked hvalid (by rw [hslot, hkept]) (by rw [hslot, hstate]),
      owed_of_receiveBlocked hvalid (by rw [hslot]) (by rw [hslot, hblocked]), hslot,
      hresumed.quiet.node, hsp]
    exact congrArg some (congrArg₂ (fun buffer size =>
      (⟨buffer, size, (s.task head).sp, true⟩ : Outstanding)) hbuffer hsize)
  have hsender : node.fromTid = (s.task head).tid :=
    (fields_of_message hmessage).1.trans hfrom
  obtain ⟨quiet, hmade, hquiet⟩ := hmeet.log
  rw [List.append_nil] at hmade
  apply hresumed.quiet.settles hmade
  rw [recorded_taken _ hquiet, hupdate, howed, hsender]

/-- A `Receive` takes the oldest message, or waits. -/
theorem Undestroyed.settles_receive (h : Undestroyed s l)
    (hresumed : Resumed (receiveProxy (entered s trap) trap.uninit trap.uninitLinks tid msg
      msglen).2 l.current trap.sp s') : Settles s (owed s) s' := by
  have hentered := h.toCoherent.enter trap
  cases hqueue : l.queues l.current with
  | nil =>
      rw [hentered.dispatched.receiveProxy_of_empty hentered.messages.represents hqueue]
        at hresumed
      exact h.toCoherent.settles_waits hresumed
  | cons head rest =>
      rw [hentered.dispatched.receiveProxy_of_cons hentered.messages.represents hqueue]
        at hresumed
      have hquiet := (silent_entered s trap).quiet
      have hmeet := hentered.rendezvous_take (h.addressed.quiet hquiet)
        (h.occupied.quiet hquiet) hqueue ((head :: rest).getLast (by simp)) tid msg msglen
      have hmem : head ∈ l.queues l.current := by simp [hqueue]
      exact h.settles_takes hmem (message_takenNode _ head rest tid msg msglen) hmeet hresumed

end Receive

/-- What a round does to the outstanding `Send`s is what its action and its events say. -/
theorem Undestroyed.settles_step (h : Undestroyed s l) {action : Action}
    (hno : NoDestroy s action) (hstep : Step s action s') :
    Settles s (noted s (owed s) action) s' := by
  have hcoherent := h.toCoherent
  cases action with
  | interrupt intrCode trap =>
      obtain ⟨_, _, _, hirq, hresumed⟩ := hcoherent.exists_resumed_interrupt hstep
      exact hcoherent.settles_interrupt hirq hresumed
  | call call trap =>
      obtain ⟨fuel, result, middle, hhandle, hresumed⟩ :=
        hcoherent.exists_resumed_call (h.safe hno) hstep
      cases call with
      | destroy tid => exact hno.elim
      | create priority code =>
          obtain rfl := eq_of_handle hhandle
          exact hcoherent.settles_create hresumed
      | send tid msg msglen reply replylen =>
          obtain rfl := eq_of_handle hhandle
          exact hcoherent.settles_send (h.addressed.unlinked hcoherent) hresumed
      | receive tid msg msglen =>
          obtain rfl := eq_of_handle hhandle
          exact h.settles_receive hresumed
      | reply tid reply replylen =>
          obtain rfl := eq_of_handle hhandle
          exact hcoherent.settles_reply hresumed
      | _ =>
          refine hcoherent.settles_local ?_ hhandle hresumed
          trivial

end Handlers

end Rtk.Kernel
