import Rtk.Invariant.Disarming
import Rtk.Invariant.Rounds

/-!
# Fates

What a safe handler makes of the states of all tasks, of the events they wait for, of the
count of tasks and of the enabled interrupts: a task ends, comes to wait for an event, is
created, or is destroyed with its descendants; or tasks that are alive move among
themselves.
-/

namespace Rtk.Kernel

open Function
open Rtk.ByteMemory
open Rtk.Lib

/-! ## Moves among the living -/

/-- Alive and not waiting for an event. -/
def TaskState.Stirring (state : TaskState) : Prop := 0 < state.value ∧ state ≠ .eventBlocked

instance (state : TaskState) : Decidable state.Stirring :=
  inferInstanceAs (Decidable (_ ∧ _))

/-- The task keeps its state, or is alive before and after and waits for an event neither
before nor after. -/
structure Stirs (task task' : Task) : Prop where
  awaiting : task'.awaitingEventId = task.awaitingEventId
  state : task'.state = task.state ∨ task.state.Stirring ∧ task'.state.Stirring

section Stirs

variable {task task' task'' : Task}

theorem Stirs.refl (task : Task) : Stirs task task := ⟨rfl, .inl rfl⟩

theorem Stirs.of_eq (htask : task' = task) : Stirs task task' := by
  rw [htask]
  exact .refl task

theorem Stirs.alive_iff (h : Stirs task task') :
    0 < task'.state.value ↔ 0 < task.state.value := by
  rcases h.state with hsame | ⟨hstirring, hstirring'⟩
  · rw [hsame]
  · exact iff_of_true hstirring'.1 hstirring.1

theorem Stirs.waits_iff (h : Stirs task task') :
    task'.state = .eventBlocked ↔ task.state = .eventBlocked := by
  rcases h.state with hsame | ⟨hstirring, hstirring'⟩
  · rw [hsame]
  · exact iff_of_false hstirring'.2 hstirring.2

theorem Stirs.stirring_iff (h : Stirs task task') :
    task'.state.Stirring ↔ task.state.Stirring := by
  rw [TaskState.Stirring, TaskState.Stirring, ne_eq, ne_eq, h.alive_iff, h.waits_iff]

theorem Stirs.trans (hleft : Stirs task task') (hright : Stirs task' task'') :
    Stirs task task'' := by
  refine ⟨hright.awaiting.trans hleft.awaiting, ?_⟩
  rcases hright.state with hsame | ⟨hstirring, hstirring'⟩
  · rw [hsame]
    exact hleft.state
  · exact .inr ⟨hleft.stirring_iff.mp hstirring, hstirring'⟩

theorem stirring_of_running {state : TaskState} (hrunning : state.Running) : state.Stirring := by
  rcases hrunning with rfl | rfl <;> decide

theorem Stirs.of_turns (hturns : Turns task.state task'.state)
    (hawaiting : task'.awaitingEventId = task.awaitingEventId) : Stirs task task' :=
  ⟨hawaiting, hturns.imp_right (And.imp stirring_of_running stirring_of_running)⟩

/-- Only one task is moved. -/
theorem stirs_update {tasks : ℤ → Task} {index : ℤ}
    (hmoved : Stirs (tasks index) task) (other : ℤ) :
    Stirs (tasks other) (update tasks index task other) := by
  by_cases hother : other = index
  · subst other
    rw [update_self]
    exact hmoved
  · rw [update_of_ne hother]
    exact .refl _

theorem Stirs.of_state {state : TaskState} (hstirring : task.state.Stirring)
    (hstirring' : state.Stirring) : Stirs task { task with state := state } :=
  ⟨rfl, .inr ⟨hstirring, hstirring'⟩⟩

theorem stirs_withState {tasks : ℤ → Task} {tid : ℤ} {state : TaskState}
    (hstirring : (tasks (slot tid)).tid = tid → (tasks (slot tid)).state.Stirring)
    (hstirring' : state.Stirring) (index : ℤ) :
    Stirs (tasks index) (withState tasks tid state index) := by
  rw [withState]
  split_ifs with htid
  · exact stirs_update (.of_state (hstirring htid) hstirring') index
  · exact .refl _

/-- The sender and the receiver of a message wait for no event. -/
theorem stirs_exchanged {tasks : ℤ → Task} {n : MsgQueueNode}
    (hfrom : (tasks (slot n.fromTid)).tid = n.fromTid →
      (tasks (slot n.fromTid)).state.Stirring)
    (hto : (tasks (slot n.toTid)).tid = n.toTid → (tasks (slot n.toTid)).state.Stirring)
    (index : ℤ) : Stirs (tasks index) (exchanged tasks n index) := by
  have hsender := stirs_withState hfrom (by decide : TaskState.replyBlocked.Stirring)
  apply (hsender index).trans
  apply stirs_withState _ (by decide)
  intro htid
  rw [tid_withState] at htid
  exact (hsender _).stirring_iff.mpr (hto htid)

end Stirs

/-! ## Handlers that move the living only -/

section Handlers

variable {s s' : State} {l : Layout} {trap : Trap}

theorem Coherent.stirring_current (h : Coherent s l) : (s.task l.current).state.Stirring := by
  rw [h.dispatched.running]
  decide

theorem Coherent.stirs_blocked (h : Coherent s l) {state : TaskState}
    (hstirring : state.Stirring) (index : ℤ) :
    Stirs (s.task index)
      (update s.task l.current { s.task l.current with state := state } index) :=
  stirs_update (.of_state h.stirring_current hstirring) index

theorem Coherent.stirs_handOver (h : Coherent s l) {n : MsgQueueNode} (hsends : Sends s l n)
    (hwaits : (s.task (slot n.toTid)).state = .sendBlocked)
    (hdone : Completed (handedOver s l.current n) l.current n.toTid l.current s')
    (index : ℤ) : Stirs (s.task index) (s'.task index) := by
  apply (h.stirs_blocked (by decide : TaskState.receiveBlocked.Stirring) index).trans
  rw [hdone.task]
  apply stirs_exchanged
  · rw [hsends.fromTid_handedOver, h.dispatched.slot_tid, update_self]
    exact fun _ => (by decide : TaskState.receiveBlocked.Stirring)
  · rw [toTid_handedOver, update_of_ne (h.ne_current hwaits), hwaits]
    exact fun _ => by decide

theorem Coherent.stirs_sendProxy (h : Coherent s l) {tid : ℤ}
    (hunlinked : isTaskAlive s tid → ∀ queue, l.current ∉ l.queues queue)
    (uninit : MsgQueueNode) (msg : ℕ) (msglen : Word) (reply : ℕ) (replylen : Word)
    (index : ℤ) :
    Stirs (s.task index)
      ((sendProxy s uninit tid msg msglen reply replylen).2.task index) := by
  rcases h.sendProxy_cases hunlinked uninit msg msglen reply replylen with
    heq | ⟨n, hsends, _, ⟨hwaits, heq⟩ | ⟨_, heq⟩⟩
  · rw [heq]
    exact .refl _
  · rw [heq]
    exact h.stirs_handOver hsends hwaits (h.completed_handOver hsends hwaits) index
  · rw [heq]
    exact h.stirs_blocked (by decide) index

theorem Coherent.stirs_receiveProxy (h : Coherent s l)
    (hlive : ∀ head rest, l.queues l.current = head :: rest →
      NotDestroyed s (s.node head).fromTid)
    (uninit : MsgQueueNode) (links : QueueNode ℤ) (tid msg : ℕ) (msglen : Word)
    (index : ℤ) :
    Stirs (s.task index) ((receiveProxy s uninit links tid msg msglen).2.task index) := by
  cases hqueue : l.queues l.current with
  | nil =>
      rw [h.dispatched.receiveProxy_of_empty h.messages.represents hqueue]
      exact h.stirs_blocked (by decide) index
  | cons head rest =>
      have hsender := hlive head rest hqueue
      have hmem : head ∈ l.queues l.current := by simp [hqueue]
      have hlinked := h.messages.linked hmem
      rw [h.dispatched.receiveProxy_of_cons h.messages.represents hqueue]
      obtain ⟨hfrom, hto, _⟩ := fields_withPointers s ((head :: rest).getLast (by simp)) tid
        msg msglen head
      rw [(h.completed_take hqueue hsender _ _ _ _).task]
      apply stirs_exchanged
      · rw [hfrom, hlinked.slot_from]
        intro hown
        -- the sender is blocked as long as it has the tid in its node
        have halloc : Allocated s head := by
          have hslot := hsender (by rw [hlinked.slot_from]; exact hown)
          rwa [hlinked.slot_from] at hslot
        have hblocked := h.messages.state_of_linked hmem halloc hown.symm
        rw [hblocked]
        decide
      · rw [hto, hlinked.slot_to]
        exact fun _ => h.stirring_current

theorem Coherent.stirs_replyProxy (h : Coherent s l) (tid : ℤ) (reply : ℕ) (replylen : Word)
    (index : ℤ) :
    Stirs (s.task index) ((replyProxy s tid reply replylen).2.task index) := by
  by_cases hawaits : Awaiting s tid
  · obtain ⟨queues, heq⟩ := h.exists_replyProxy hawaits reply replylen
    rw [heq]
    have hblocked := (awaiting_iff.mp hawaits).2.2
    apply stirs_update
    apply Stirs.of_state _ (by decide)
    rw [hblocked]
    decide
  · obtain ⟨error, _, hrefused⟩ := replyProxy_refused hawaits reply replylen
    rw [hrefused]
    exact .refl _

/-- A local call other than `Exit` and `AwaitEvent` leaves all tasks in their states. -/
theorem Coherent.stirs_of_local (h : Coherent s l) {call : Call} {fuel : ℕ} {result : ℤ}
    (hhandle : handle s fuel trap call = some (result, s')) (hlocal : call.Local)
    (hexit : call ≠ .exit) (hawait : ∀ eventid, call ≠ .awaitEvent eventid) (index : ℤ) :
    Stirs (s.task index) (s'.task index) := by
  cases call with
  | create | send | receive | reply | destroy => exact hlocal.elim
  | exit => exact absurd rfl hexit
  | awaitEvent eventid => exact absurd rfl (hawait eventid)
  | setPriority tid priority =>
      exact .of_eq (by rw [eq_of_setPriority hhandle])
  | setMyPriority priority =>
      obtain rfl := eq_of_handle hhandle
      rw [setCurrentTaskPriority, h.dispatched.current]
      split_ifs
      · exact .refl _
      · have hmoved : Stirs (s.task l.current)
            { s.task l.current with priority := Priority.ofInt priority } := ⟨rfl, .inl rfl⟩
        exact stirs_update hmoved index
  | getTaskStats tid container =>
      obtain rfl := eq_of_handle hhandle
      exact .of_eq (congrFun (Silent.useDescriptor s (slot tid)).task index)
  | getTasksStats container =>
      obtain ⟨tasks, rfl⟩ :=
        h.dispatched.eq_of_tasksStatsHandler (tasksStats_of_handle hhandle)
      exact .refl _
  | pass | myTid | myParentTid | getPriority | getMyPriority =>
      obtain rfl := eq_of_handle hhandle
      exact .refl _

end Handlers

/-! ## What becomes of the tasks -/

/-- What the handler of a system call of task `c` makes of the tasks. -/
inductive Fate (s : State) (c : ℤ) : Call → State → Prop
  | stirs {call : Call} {s' : State} (hroutine : Routine s s')
      (hstirs : ∀ index, Stirs (s.task index) (s'.task index))
      (hrefused : ∀ tid, call = .destroy tid → ¬IsNamed s tid) : Fate s c call s'
  | exits {s' : State} (hself : s'.task c = { s.task c with state := .zombie })
      (hothers : ∀ index, index ≠ c → s'.task index = s.task index)
      (hnum : s'.numTasks = s.numTasks - 1) (henabled : s'.enabled = s.enabled) :
      Fate s c .exit s'
  | awaits {eventid : Word} {s' : State}
      (hself : s'.task c =
        { s.task c with state := .eventBlocked, awaitingEventId := eventid })
      (hothers : ∀ index, index ≠ c → s'.task index = s.task index)
      (hnum : s'.numTasks = s.numTasks) (henabled : s'.enabled = s.enabled ||| eventid) :
      Fate s c (.awaitEvent eventid) s'
  | creates {index requested : ℤ} {code : Word} {priority : Priority} {s' : State}
      (hindex : InTable index) (hfree : (s.task index).state = .free)
      (hself : s'.task index = newTask s (s.task index) priority code)
      (hothers : ∀ other, other ≠ index → s'.task other = s.task other)
      (hnum : s'.numTasks = s.numTasks + 1) (henabled : s'.enabled = s.enabled) :
      Fate s c (.create requested code) s'
  | destroys {tid : ℤ} {order : List ℤ} {s' : State} (hnamed : IsNamed s tid)
      (hmem : ∀ index, index ∈ order ↔ Descends s (slot tid) index)
      (hlive : ∀ index ∈ order, InTable index ∧ Allocated s index) (hnodup : order.Nodup)
      (htask : s'.task = reapedTasks s order)
      (hnum : s'.numTasks = s.numTasks - order.length)
      (henabled : ∀ mask, mask &&& s'.enabled = mask ↔
        mask &&& s.enabled = mask ∧ ∀ index ∈ order,
          0 ≤ (s.task index).awaitingEventId.toInt →
            mask &&& (s.task index).awaitingEventId = 0) :
      Fate s c (.destroy tid) s'

section Fate

variable {s s' : State} {l : Layout} {trap : Trap}

theorem Coherent.fate_create (h : Coherent s l) (priority : ℤ) (code : Word) :
    Fate s l.current (.create priority code) (createTaskSafe s priority code).2 := by
  rw [createTaskSafe]
  split_ifs
  · exact .stirs (.refl s) (fun _ => .refl _) (by simp)
  · cases hqueue : l.lists .available with
    | nil =>
        rw [createTask_of_empty h.dispatched.partition hqueue]
        exact .stirs (.refl s) (fun _ => .refl _) (by simp)
    | cons index rest =>
        rw [createTask_eq h.dispatched.partition h.family hqueue]
        obtain ⟨hindex, hfree⟩ := h.free_of_available hqueue
        exact .creates hindex hfree (task_created_self _ _ _ _)
          (fun other hother => task_created_of_ne _ _ hother) rfl rfl

theorem Coherent.fate_destroy (h : Coherent s l) {tid : ℤ}
    (hlive : isValidTid tid → NotDestroyed s tid) {fuel : ℕ} {result : ℤ}
    (hdestroy : destroyHandler s tid fuel = some (result, s')) :
    Fate s l.current (.destroy tid) s' := by
  by_cases hnamed : isValidTid tid ∧ (s.task (slot tid)).tid = tid
  · obtain ⟨hvalid, htid⟩ := hnamed
    obtain ⟨hnonneg, hle⟩ := isValidTid_iff.mp hvalid
    have hslot := inTable_slot hnonneg
    obtain ⟨enough, s'', order, hsome, hreaped, hbelow⟩ :=
      exists_destroyHandler h.dispatched.toInKernel h.family hslot (hlive hvalid htid)
    rw [htid] at hsome
    obtain ⟨rfl, rfl⟩ := Prod.mk.inj (destroyHandler_unique hdestroy hsome)
    have hused := Silent.useDescriptor s (slot (s.task (slot tid)).parentTid)
    have hroutine := routine_useDescriptor s (slot (s.task (slot tid)).parentTid)
    have hmem : ∀ index, index ∈ order ++ [slot tid] ↔ Descends s (slot tid) index := by
      intro index
      constructor
      · intro hindex
        rcases List.mem_append.mp hindex with hindex | hindex
        · exact (hbelow index hindex).1
        · rw [List.mem_singleton.mp hindex]
          exact .self
      · intro hdescends
        apply hreaped.mem_of_descends (by simp : slot tid ∈ order ++ [slot tid])
        apply hdescends.mono
        · intro other halloc
          rw [Allocated, hused.task]
          exact halloc
        · intro other
          rw [hused.task]
    have hlives : ∀ index ∈ order ++ [slot tid], InTable index ∧ Allocated s index := by
      intro index hindex
      have hlive := hreaped.live index hindex
      rwa [Allocated, hused.task] at hlive
    have htask : s'.task = reapedTasks s (order ++ [slot tid]) := by
      rw [hreaped.task]
      funext index
      simp only [reapedTasks, hused.task]
    have hnum : s'.numTasks = s.numTasks - (order ++ [slot tid]).length := by
      rw [hreaped.numTasks, hroutine.numTasks]
    refine .destroys ⟨hnonneg, hle, htid⟩ hmem hlives hreaped.nodup htask hnum ?_
    intro mask
    obtain ⟨self, hdisarms⟩ := (exists_disarms fuel).1 hdestroy
    have hperm := hdisarms.perm (fun index hindex => (hlives index hindex).2)
      hreaped.nodup htask hnum
    rw [hdisarms.enabled, and_foldl_disarm_iff]
    simp only [hperm.mem_iff]
  · have hrefused : isValidTid tid → (s.task (slot tid)).tid ≠ tid :=
      fun hvalid htid => hnamed ⟨hvalid, htid⟩
    obtain ⟨error, _, hsame⟩ := @destroyHandler_refused s tid 0 hrefused
    obtain ⟨rfl, rfl⟩ := Prod.mk.inj (destroyHandler_unique hdestroy hsame)
    refine .stirs (.refl _) (fun _ => .refl _) ?_
    rintro _ ⟨⟩ ⟨hnonneg, hle, htid⟩
    exact hnamed ⟨isValidTid_iff.mpr ⟨hnonneg, hle⟩, htid⟩

/-- The handler of a safe system call. -/
theorem Coherent.fate (h : Coherent s l) {call : Call} (hsafe : Safe s (.call call trap))
    {fuel : ℕ} {result : ℤ} (hhandle : handle s fuel trap call = some (result, s')) :
    Fate s l.current call s' := by
  cases call with
  | create priority code =>
      obtain rfl := eq_of_handle hhandle
      exact h.fate_create priority code
  | destroy tid => exact h.fate_destroy hsafe hhandle
  | send tid msg msglen reply replylen =>
      obtain rfl := eq_of_handle hhandle
      exact .stirs (routine_sendProxy _ _ _ _ _ _ _)
        (h.stirs_sendProxy (h.safe_send hsafe) _ _ _ _ _) nofun
  | receive tid msg msglen =>
      obtain rfl := eq_of_handle hhandle
      exact .stirs (routine_receiveProxy _ _ _ _ _ _)
        (h.stirs_receiveProxy (h.safe_receive hsafe).2 _ _ _ _ _) nofun
  | reply tid reply replylen =>
      obtain rfl := eq_of_handle hhandle
      exact .stirs (routine_replyProxy _ _ _ _) (h.stirs_replyProxy _ _ _) nofun
  | exit =>
      obtain rfl := eq_of_handle hhandle
      have hcurrent := h.dispatched.current_eq
      refine .exits ?_ ?_ rfl rfl
      · rw [← hcurrent]
        exact State.setTask_self _ _ _
      · intro index hindex
        rw [← hcurrent] at hindex
        exact State.setTask_of_ne _ _ hindex
  | awaitEvent eventid =>
      obtain rfl := eq_of_handle hhandle
      have hcurrent := h.dispatched.current_eq
      refine .awaits ?_ ?_ rfl rfl
      · rw [← hcurrent]
        -- the state is written to the descriptor that has the event already
        have hevent := State.setTask_self s s.current
          { s.task s.current with awaitingEventId := eventid }
        exact (State.setTask_self _ _ _).trans
          (congrArg (fun task : Task => { task with state := .eventBlocked }) hevent)
      · intro index hindex
        rw [← hcurrent] at hindex
        exact (State.setTask_of_ne _ _ hindex).trans (State.setTask_of_ne s _ hindex)
  | pass | myTid | myParentTid | setPriority | getPriority | setMyPriority | getMyPriority |
      getTaskStats | getTasksStats =>
      have hrunning : s.currentTask = some s.current := by
        rw [h.dispatched.current, h.dispatched.current_eq]
      exact .stirs (routine_of_local hhandle trivial nofun nofun hrunning)
        (h.stirs_of_local hhandle trivial nofun nofun) nofun

/-- Saving the calling task and dispatching the next one moves only tasks that can run. -/
theorem InKernel.stirs_dispatch {c : ℤ} {lists : Lists TaskQueue ℤ} (h : InKernel s c lists)
    {now : Word} (hactivate : scheduleAndActivate s now = some s') :
    (∀ index, Stirs (s.task index) (s'.task index)) ∧ s'.numTasks = s.numTasks ∧
      s'.enabled = s.enabled := by
  have hrunning : s.currentTask = some s.current := by rw [h.current, h.current_eq]
  refine ⟨?_, counts_scheduleAndActivate hrunning hactivate⟩
  intro index
  obtain ⟨hturns, hawaiting⟩ := h.turns_dispatch hactivate index
  exact .of_turns hturns hawaiting

theorem stirs_saveTaskState (s : State) (spsr : Word) (sp : ℕ) (pc timer : Word)
    (wentOff : Bool) (index : ℤ) :
    Stirs (s.task index) ((saveTaskState s spsr sp pc timer wentOff).task index) := by
  have hmoved : Stirs (s.task s.current)
      ((saveTaskState s spsr sp pc timer wentOff).task s.current) := by
    rw [saveTaskState, State.setTask_self]
    exact ⟨rfl, .inl rfl⟩
  by_cases hindex : index = s.current
  · rw [hindex]
    exact hmoved
  · exact .of_eq (State.setTask_of_ne s _ hindex)

/-- A safe round of a system call. -/
theorem Coherent.exists_fate (h : Coherent s l) {call : Call}
    (hsafe : Safe s (.call call trap)) (hstep : Step s (.call call trap) s') :
    ∃ middle, Fate (entered s trap) l.current call middle ∧
      (∀ index, Stirs (middle.task index) (s'.task index)) ∧
      s'.numTasks = middle.numTasks ∧ s'.enabled = middle.enabled := by
  obtain ⟨fuel, result, middle, queues, hhandle, heffect, hsaves, hactivate⟩ :=
    h.round_call hsafe hstep
  have hentered := h.enter trap
  obtain ⟨_, hkernel⟩ := heffect.inKernel hentered
  obtain ⟨hstirs, hnum, henabled⟩ := (hkernel.savedCall trap result).stirs_dispatch hactivate
  refine ⟨middle, hentered.fate hsafe.enter hhandle, ?_, hnum, henabled⟩
  intro index
  exact (stirs_saveTaskState middle _ _ _ _ _ index).trans (hstirs index)

def wokenBy (s : State) (lists : Lists TaskQueue ℤ) (intrCode : ℤ) : Option ℤ :=
  if intrCode < 0 then firstWaiting s lists ((1 : Word) <<< (-intrCode).toNat) Priority.all
  else none

/-- A round of an interrupt. -/
theorem Coherent.stirs_interrupt (h : Coherent s l) {intrCode : ℤ}
    (hstep : Step s (.interrupt intrCode trap) s') :
    (∀ index, Stirs (awakened s.task (wokenBy s l.lists intrCode) index) (s'.task index)) ∧
      s'.numTasks = s.numTasks ∧ s'.enabled = maskedBy s.enabled intrCode := by
  obtain ⟨fuel, time, middle, hirq, heffect, hsaves, hactivate⟩ := h.round_interrupt hstep
  have hentered := h.enter trap
  obtain ⟨_, hkernel⟩ := hsaves.quietly.inKernel
  obtain ⟨hstirs, hnum, henabled⟩ := hkernel.stirs_dispatch hactivate
  obtain ⟨⟨masked, hroutine, _, hsame, hmasked⟩, _⟩ := exists_handleIrq hirq
  refine ⟨?_, hnum.trans (hroutine.numTasks.trans hsame),
    henabled.trans (hroutine.enabled.trans hmasked)⟩
  intro index
  have htask : middle.task = awakened s.task (wokenBy s l.lists intrCode) := by
    rw [hentered.dispatched.toInKernel.task_handleIrq_eq hirq, wokenBy,
      firstWaiting_congr (rfl : (entered s trap).task = s.task)]
    split_ifs <;> rfl
  rw [← htask]
  exact (stirs_saveTaskState middle _ _ _ _ _ index).trans (hstirs index)

/-- The task that is woken waited for the interrupt. -/
theorem Coherent.of_wokenBy (h : Coherent s l) {intrCode index : ℤ}
    (hwoken : wokenBy s l.lists intrCode = some index) :
    InTable index ∧ (s.task index).state = .eventBlocked ∧
      (s.task index).awaitingEventId = (1 : Word) <<< (-intrCode).toNat := by
  rw [wokenBy] at hwoken
  split_ifs at hwoken
  obtain ⟨_, _, hmem⟩ := exists_of_firstWaiting hwoken
  have hlinked := h.dispatched.toInKernel.of_mem_states hmem
  exact ⟨hlinked.1, hlinked.2.2.2.1, firstWaiting_waits hwoken⟩

theorem Coherent.exists_wokenBy (h : Coherent s l) {intrCode index : ℤ} (hneg : intrCode < 0)
    (hindex : InTable index) (hblocked : (s.task index).state = .eventBlocked)
    (hwaits : (s.task index).awaitingEventId = (1 : Word) <<< (-intrCode).toNat) :
    ∃ head, wokenBy s l.lists intrCode = some head := by
  have hother : some l.current ≠ some index := by
    intro heq
    have hrunning := h.dispatched.running
    rw [Option.some.inj heq, hblocked] at hrunning
    exact absurd hrunning (by decide)
  have hmem : index ∈ l.lists (.states .eventBlocked (s.task index).priority) := by
    apply h.dispatched.partition.mem_iff.mpr
    refine ⟨hindex, home_eq_states_iff.mpr ⟨?_, hother, hblocked, rfl⟩⟩
    exact allocated_of_state hblocked (by decide)
  rw [wokenBy, if_pos hneg]
  exact exists_firstWaiting (by cases (s.task index).priority <;> decide) hmem hwaits

end Fate

end Rtk.Kernel
