import Rtk.Invariant.Effect

/-!
# One round of the kernel

A round enters the kernel, runs a handler, saves the task and dispatches the
next one.  Under `Safe` the handler has one of the effects of `Effect`, and what
follows it is quiet, so that every invariant is preserved by a case analysis on
the effect.
-/

namespace Rtk.Kernel

open Rtk.ByteMemory
open Rtk.Lib

/-! ## What an effect preserves -/

section Effect

variable {s s' : State} {l : Layout} {queues : Lists ℤ ℤ} {call : Option Call}

/-- From `s` to `s'` every descriptor keeps its tid and is not used again, or
gets a later tid. -/
def Evolves (s s' : State) : Prop :=
  ∀ index, (s'.task index).tid = (s.task index).tid ∧
      (Allocated s' index → Allocated s index) ∨
    (s.task index).tid < (s'.task index).tid

theorem Keeps.evolves (h : Keeps s s') : Evolves s s' :=
  fun index => .inl ⟨h.tid index, (h.allocated_iff index).mp⟩

theorem Evolves.trans {s'' : State} (hleft : Evolves s s')
    (hright : Evolves s' s'') : Evolves s s'' := by
  intro index
  rcases hleft index with ⟨htid, halloc⟩ | hlt <;>
    rcases hright index with ⟨htid', halloc'⟩ | hlt'
  · exact .inl ⟨htid'.trans htid, halloc ∘ halloc'⟩
  · exact .inr (by omega)
  · exact .inr (by omega)
  · exact .inr (by omega)

theorem tid_created_self (s : State) (index : ℤ) (priority : Priority)
    (code : Word) :
    ((created s index priority code).task index).tid =
      (s.task index).tid + maxTasks := by
  rw [task_created_self]
  rfl

/-- An effect is handled like a quiet one, creates a task or destroys some. -/
theorem Effect.cases_handled (h : Coherent s l) (heffect : Effect s l call queues s') :
    Handled s l.current s' ∨
      (∃ index rest requested priority code,
        call = some (.create requested code) ∧ l.lists .available = index :: rest ∧
        s' = created s index priority code) ∨
      ∃ tid parent order, call = some (.destroy tid) ∧
        Reaped (s.useDescriptor parent) l.current l.lists Whole l.children l.depth
          order s' := by
  cases heffect with
  | quiet hquiet hrunning => exact .inl hquiet.handled
  | create hqueue => exact .inr (.inl ⟨_, _, _, _, _, rfl, hqueue, rfl⟩)
  | destroy hreaped => exact .inr (.inr ⟨_, _, _, rfl, hreaped⟩)
  | send hsends hbusy => exact .inl (h.handled_queuedSend _)
  | handOver hsends hwaits hdone =>
      left
      apply (h.handled_handedOver _).bind
      exact fun _ _ => hdone.handled
  | wait hempty hunlinked =>
      exact .inl (h.dispatched.handled_blocked .sendBlocked (by decide) rfl rfl rfl rfl)
  | @take _ index _ putTid msg msglen _ _ _ _ hdone =>
      have hstart : Handled s l.current (withPointers s index putTid msg msglen) :=
        h.dispatched.toInKernel.handled_of_task_eq rfl rfl rfl rfl
      left
      apply hstart.bind
      exact fun _ _ => hdone.handled

/-- The first free descriptor. -/
theorem Coherent.free_of_available (h : Coherent s l) {index : ℤ} {rest : List ℤ}
    (hqueue : l.lists .available = index :: rest) :
    InTable index ∧ (s.task index).state = .free :=
  h.dispatched.partition.state_free (hqueue ▸ List.mem_cons_self)

theorem Effect.inKernel (h : Coherent s l) (heffect : Effect s l call queues s') :
    ∃ lists, InKernel s' l.current lists := by
  rcases heffect.cases_handled h with hhandled |
    ⟨index, rest, requested, priority, code, _, hqueue, rfl⟩ |
    ⟨tid, parent, order, _, hreaped⟩
  · exact hhandled.inKernel
  · exact ⟨_, h.dispatched.toInKernel.created h.dispatched.allocated h.numbered
      hqueue priority code⟩
  · exact ⟨_, hreaped.inKernel⟩

theorem Effect.sole (h : Coherent s l) (heffect : Effect s l call queues s') :
    Sole s' l.current := by
  rcases heffect.cases_handled h with hhandled |
    ⟨index, rest, requested, priority, code, _, hqueue, rfl⟩ |
    ⟨tid, parent, order, _, hreaped⟩
  · exact hhandled.sole h.dispatched.sole
  · intro other hother hactive
    by_cases hne : other = index
    · subst other
      simp [task_created_self, newTask] at hactive
    · rw [task_created_of_ne priority code hne] at hactive
      exact h.dispatched.sole hother hactive
  · intro other hother hactive
    rw [hreaped.task] at hactive
    by_cases hmem : other ∈ order
    · rw [reapedTasks_of_mem hmem, freed] at hactive
      split_ifs at hactive
    · rw [reapedTasks_of_not_mem hmem, (Silent.useDescriptor s parent).task] at hactive
      exact h.dispatched.sole hother hactive

theorem Numbered.reaped (h : Numbered s) {order : List ℤ}
    (htask : s'.task = reapedTasks s order) : Numbered s' where
  tid_emod hindex := by
    rw [htask, tid_reapedTasks]
    exact h.tid_emod hindex
  tid_lower hindex := by
    rw [htask, tid_reapedTasks]
    exact h.tid_lower hindex
  tid_free := by
    intro index hindex hfree
    rw [htask] at hfree ⊢
    rw [tid_reapedTasks]
    by_cases hmem : index ∈ order
    · rw [reapedTasks_of_mem hmem, freed] at hfree
      by_contra hnot
      have hused : ¬Reusable (s.task index) := hnot
      simp [hused] at hfree
    · rw [reapedTasks_of_not_mem hmem] at hfree
      exact h.tid_free hindex hfree

theorem Effect.numbered (h : Coherent s l) (heffect : Effect s l call queues s') :
    Numbered s' := by
  rcases heffect.cases_handled h with hhandled |
    ⟨index, rest, requested, priority, code, _, hqueue, rfl⟩ |
    ⟨tid, parent, order, _, hreaped⟩
  · exact h.numbered.congr hhandled.keeps
  · exact h.numbered.created priority code
  · exact (h.numbered.congr
      (.of_task_eq (Silent.useDescriptor s parent).task)).reaped hreaped.task

theorem Coherent.creator (h : Coherent s l) :
    ∀ c, s.currentTask = some c → Creator s c := by
  intro c hcurrent
  rw [h.dispatched.current, Option.some.injEq] at hcurrent
  subst hcurrent
  exact ⟨h.dispatched.inTable, h.dispatched.allocated,
    h.dispatched.named.tid_nonneg h.dispatched.inTable h.dispatched.allocated,
    h.dispatched.slot_tid⟩

theorem Effect.family (h : Coherent s l) (heffect : Effect s l call queues s') :
    ∃ children depth, Family s' Whole children depth := by
  rcases heffect.cases_handled h with hhandled |
    ⟨index, rest, requested, priority, code, _, hqueue, rfl⟩ |
    ⟨tid, parent, order, _, hreaped⟩
  · exact ⟨_, _, h.family.congr hhandled.keeps hhandled.siblings⟩
  · obtain ⟨hindex, hfree⟩ := h.free_of_available hqueue
    exact ⟨_, _, h.family.created hindex hfree h.creator priority code⟩
  · exact ⟨_, _, hreaped.family⟩

theorem Effect.evolves (h : Coherent s l) (heffect : Effect s l call queues s') :
    Evolves s s' := by
  rcases heffect.cases_handled h with hhandled |
    ⟨index, rest, requested, priority, code, _, hqueue, rfl⟩ |
    ⟨tid, parent, order, _, hreaped⟩
  · exact hhandled.keeps.evolves
  · intro other
    by_cases hother : other = index
    · subst other
      right
      rw [tid_created_self, maxTasks]
      omega
    · left
      rw [Allocated, Allocated, task_created_of_ne priority code hother]
      exact ⟨rfl, id⟩
  · intro other
    left
    have hstart := (Silent.useDescriptor s parent).task
    rw [allocated_reaped_iff hreaped.task, Allocated, hreaped.task,
      tid_reapedTasks, hstart]
    exact ⟨rfl, fun hlive => hlive.1⟩

/-- A new task takes part in no exchange. -/
theorem Messages.created (h : Messages s queues)
    (index : ℤ) (priority : Priority) (code : Word) :
    Messages (created s index priority code) queues := by
  have hnode : (Kernel.created s index priority code).node = s.node := rfl
  apply h.transit hnode rfl
  · exact ⟨[.storedWord _ _], rfl, by simp [Event.IsMessage]⟩
  · intro other
    by_cases hother : other = index
    · subst other
      rw [task_created_self]
      refine .inr (.inr ⟨?_, by simp [newTask, TaskState.Exchanging]⟩)
      simp only [newTask, maxTasks]
      omega
    · rw [task_created_of_ne priority code hother]
      exact .inl ⟨rfl, id, .refl _⟩

/-- From `s` to `s'` every task in use stays in use. -/
def Lasting (s s' : State) : Prop :=
  ∀ index, Allocated s index →
    Allocated s' index ∧ (s'.task index).tid = (s.task index).tid

theorem Keeps.lasting (h : Keeps s s') : Lasting s s' :=
  fun index halloc => ⟨(h.allocated_iff index).mpr halloc, h.tid index⟩

theorem Effect.lasting (h : Coherent s l) (heffect : Effect s l call queues s')
    (hcall : ∀ tid, call ≠ some (.destroy tid)) : Lasting s s' := by
  rcases heffect.cases_handled h with hhandled |
    ⟨index, rest, requested, priority, code, _, hqueue, rfl⟩ |
    ⟨tid, parent, order, hdestroy, _⟩
  · exact hhandled.keeps.lasting
  · intro other halloc
    have hne : other ≠ index := by
      rintro rfl
      exact not_allocated_of_free (h.free_of_available hqueue).2 halloc
    rw [allocated_created_iff, task_created_of_ne priority code hne]
    exact ⟨.inr halloc, rfl⟩
  · exact absurd hdestroy (hcall tid)

theorem Effect.messages (h : Coherent s l) (heffect : Effect s l call queues s') :
    Messages s' queues := by
  cases heffect with
  | quiet hquiet hrunning => exact h.messages.quiet hquiet.quiet
  | create hqueue => exact h.messages.created _ _ _
  | @destroy _ parent order _ hreaped =>
      have hstart := Silent.useDescriptor s parent
      apply h.messages.transit
      · rw [hreaped.untouched.node, hstart.node]
      · rw [hreaped.untouched.msgQueues, hstart.msgQueues]
      · rw [hreaped.untouched.log]
        exact hstart.log
      · intro other
        rw [hreaped.task]
        by_cases hmem : other ∈ order
        · rw [reapedTasks_of_mem hmem, hstart.task]
          exact .inr (.inl ⟨Int.le_refl _, not_allocated_freed _⟩)
        · rw [reapedTasks_of_not_mem hmem, hstart.task]
          exact .inl ⟨rfl, id, .refl _⟩
  | @send n hsends hbusy =>
      have hto := nonneg_of_alive hsends.alive
      refine ⟨Posted.queuedSend h.dispatched h.messages.toPosted hsends.unlinked
        hsends.fromTid hto, ?_⟩
      intro index hindex hstate
      apply Awaits.queuedSend h.messages hindex hstate
      rintro rfl
      by_cases hself : slot n.toTid = l.current
      · rw [hself] at hstate
        simp [queuedSend] at hstate
      · rw [(blocks_queuedSend s l.current n).others _ hself] at hstate
        exact hbusy hstate
  | handOver hsends hwaits hdone => exact h.messages_handOver hsends hwaits hdone
  | wait hempty hunlinked =>
      exact h.messages.waitingReceive h.dispatched hunlinked hempty _ _
  | take hqueue hindex hlive hdone => exact h.messages_take hqueue hindex hlive hdone

end Effect

/-! ## A safe round -/

/-- The node of `index` is linked in the message queue of `queue`. -/
def InMsgQueue (s : State) (queue index : ℤ) : Prop :=
  ∃ nodes, Contents s.msgQueues queue nodes ∧ index ∈ nodes

/-- The condition under which a round keeps the kernel coherent: `Destroy` names
no task that is destroyed already, `Receive` does not take the message of a
destroyed task, and a node that is overwritten is in no queue. -/
def Safe (s : State) : Action → Prop
  | .call (.destroy tid) _ => isValidTid tid → NotDestroyed s tid
  | .call (.send tid _ _ _ _) _ =>
      isTaskAlive s tid → ∀ queue, ¬InMsgQueue s queue s.current
  | .call (.receive _ _ _) _ =>
      match (s.msgQueues.queue s.current).first with
      | none => ∀ queue, ¬InMsgQueue s queue s.current
      | some head => NotDestroyed s (s.node head).fromTid
  | _ => True

theorem Messages.inMsgQueue_iff {s : State} {queues : Lists ℤ ℤ}
    (h : Messages s queues) {queue index : ℤ} :
    InMsgQueue s queue index ↔ index ∈ queues queue := by
  constructor
  · rintro ⟨nodes, hcontents, hmem⟩
    rwa [← hcontents.unique (h.represents.contents queue)]
  · exact fun hmem => ⟨_, h.represents.contents queue, hmem⟩

def Action.call? : Action → Option Call
  | .call made _ => some made
  | .interrupt _ _ => none

/-- The calls whose handlers concern the calling task only. -/
def Call.Local : Call → Prop
  | .create _ _ | .send _ _ _ _ _ | .receive _ _ _ | .reply _ _ _ | .destroy _ => False
  | _ => True

/-- The state in which the handler of a trap starts. -/
def entered (s : State) (trap : Trap) : State := { s with memory := trap.memory }

section Round

variable {s s' : State} {l : Layout} {action : Action} {trap : Trap}

/-- What a step may do does not depend on the memory. -/
theorem Safe.enter {call : Call} (hsafe : Safe s (.call call trap)) :
    Safe (entered s trap) (.call call trap) := by
  cases call <;> exact hsafe

theorem silent_entered (s : State) (trap : Trap) : Silent s (entered s trap) :=
  .of_log_eq rfl rfl rfl rfl rfl rfl rfl

theorem Coherent.enter (h : Coherent s l) (trap : Trap) :
    Coherent (entered s trap) l := h.silent (silent_entered s trap)

/-- An accepted `Send` that is safe finds the caller's node in no queue. -/
theorem Coherent.safe_send (h : Coherent s l) {tid : ℤ} {msg reply : ℕ} {msglen replylen : Word}
    (hsafe : Safe s (.call (.send tid msg msglen reply replylen) trap)) :
    isTaskAlive s tid → ∀ queue, l.current ∉ l.queues queue := by
  intro halive queue hmem
  have hnot := hsafe halive queue
  rw [h.dispatched.current_eq, h.messages.inMsgQueue_iff] at hnot
  exact hnot hmem

/-- A safe `Receive` has nothing to overwrite or takes the message of a task that
is not destroyed. -/
theorem Coherent.safe_receive (h : Coherent s l) {tid msg : ℕ} {msglen : Word}
    (hsafe : Safe s (.call (.receive tid msg msglen) trap)) :
    (l.queues l.current = [] → ∀ queue, l.current ∉ l.queues queue) ∧
      ∀ head rest, l.queues l.current = head :: rest →
        NotDestroyed s (s.node head).fromTid := by
  have hcontents := h.messages.represents.contents l.current
  simp only [Safe, h.dispatched.current_eq, hcontents.first] at hsafe
  constructor
  · intro hempty queue hmem
    rw [hempty] at hsafe
    exact hsafe queue (h.messages.inMsgQueue_iff.mpr hmem)
  · intro head rest hqueue
    rw [hqueue] at hsafe
    exact hsafe

/-- The state that a handler without a loop leaves. -/
theorem eq_of_handle {outcome : ℤ × State} {result : ℤ}
    (hhandle : some outcome = some (result, s')) : outcome.2 = s' :=
  congrArg Prod.snd (Option.some.inj hhandle)

/-- `SetPriority` refuses every priority. -/
theorem eq_of_setPriority {tid priority : ℤ} {fuel : ℕ} {result : ℤ}
    (hhandle : handle s fuel trap (.setPriority tid priority) = some (result, s')) : s' = s := by
  rw [← eq_of_handle hhandle, setTaskPriority_eq]

theorem tasksStats_of_handle {fuel container : ℕ} {result : ℤ}
    (hhandle : handle s fuel trap (.getTasksStats container) = some (result, s')) :
    tasksStatsHandler s fuel container = some s' := by
  obtain ⟨counted, hstats, heq⟩ := Option.map_eq_some_iff.mp hhandle
  rw [hstats, (Prod.mk.inj heq).2]

/-- The handler of a local call is quiet. -/
theorem Coherent.handledQuietly_of_local (h : Coherent s l) {call : Call}
    (hlocal : call.Local) {fuel : ℕ} {result : ℤ}
    (hhandle : handle s fuel trap call = some (result, s')) :
    HandledQuietly s l.current s' := by
  have hkernel := h.dispatched.toInKernel
  cases call with
  | create | send | receive | reply | destroy => exact hlocal.elim
  | exit =>
      obtain rfl := eq_of_handle hhandle
      exact h.dispatched.handled_exitTask
  | awaitEvent eventid =>
      obtain rfl := eq_of_handle hhandle
      exact h.dispatched.handled_awaitEventHandler eventid
  | setPriority tid priority =>
      obtain rfl := eq_of_setPriority hhandle
      exact .refl hkernel
  | setMyPriority priority =>
      obtain rfl := eq_of_handle hhandle
      exact h.dispatched.handled_setCurrentTaskPriority priority
  | getTaskStats tid container =>
      obtain rfl := eq_of_handle hhandle
      exact hkernel.handled_taskStatsHandler tid container
  | getTasksStats container =>
      exact h.dispatched.handled_tasksStatsHandler (tasksStats_of_handle hhandle)
  | pass | myTid | myParentTid | getPriority | getMyPriority =>
      obtain rfl := eq_of_handle hhandle
      exact .refl hkernel

/-- The handler of a safe system call. -/
theorem Coherent.effect_handle (h : Coherent s l) {call : Call}
    (hsafe : Safe s (.call call trap)) {fuel : ℕ} {result : ℤ}
    (hhandle : handle s fuel trap call = some (result, s')) :
    ∃ queues, Effect s l (some call) queues s' := by
  cases call with
  | create priority code =>
      obtain rfl := eq_of_handle hhandle
      exact ⟨_, h.effect_createTaskSafe priority code⟩
  | send tid msg msglen reply replylen =>
      obtain rfl := eq_of_handle hhandle
      exact h.effect_sendProxy (h.safe_send hsafe) _ _ _ _ _
  | receive tid msg msglen =>
      obtain ⟨hunlinked, hlive⟩ := h.safe_receive hsafe
      obtain rfl := eq_of_handle hhandle
      exact h.effect_receiveProxy hunlinked hlive _ _ _ _ _
  | reply tid reply replylen =>
      obtain rfl := eq_of_handle hhandle
      exact ⟨_, .quiet (h.handled_replyProxy tid reply replylen) nofun⟩
  | destroy tid => exact ⟨_, h.effect_destroyHandler hsafe hhandle⟩
  | _ =>
      refine ⟨_, .quiet (h.handledQuietly_of_local ?_ hhandle) nofun⟩
      trivial

theorem svcEntry_eq_some {fuel : ℕ} {call : Call}
    (hsvc : svcEntry s fuel call trap = some s') :
    ∃ result middle, handle (entered s trap) fuel trap call = some (result, middle) ∧
      s' = setCurrentTaskReturnValue
        (saveTaskState middle trap.spsr trap.sp trap.pc trap.timer.entry
          trap.timer.wentOffAtSave) result := by
  rw [svcEntry] at hsvc
  cases hhandle : handle (entered s trap) fuel trap call with
  | none =>
      rw [entered] at hhandle
      simp [hhandle] at hsvc
  | some outcome =>
      have hunfolded := hhandle
      rw [entered] at hunfolded
      rw [hunfolded] at hsvc
      simp only [Option.some.injEq] at hsvc
      exact ⟨outcome.1, outcome.2, rfl, hsvc.symm⟩

theorem irqEntry_eq_some {fuel : ℕ} {intrCode : ℤ}
    (hirq : irqEntry s fuel intrCode trap = some s') :
    ∃ time middle,
      handleIrq (entered s trap) fuel intrCode trap.timer = some (time, middle) ∧
      s' = saveTaskState middle trap.spsr trap.sp trap.pc time
        trap.timer.wentOffAtSave := by
  rw [irqEntry] at hirq
  cases hhandle : handleIrq (entered s trap) fuel intrCode trap.timer with
  | none =>
      rw [entered] at hhandle
      simp [hhandle] at hirq
  | some outcome =>
      have hunfolded := hhandle
      rw [entered] at hunfolded
      rw [hunfolded] at hirq
      simp only [Option.some.injEq] at hirq
      exact ⟨outcome.1, outcome.2, rfl, hirq.symm⟩

/-- What is left of a round once the handler has led to `middle`: the task is
saved as `saved` and the next one is dispatched. -/
structure Saves (middle : State) (c : ℤ) (saved : State) : Prop where
  quietly : HandledQuietly middle c saved
  state : ∀ index, (saved.task index).state = (middle.task index).state

theorem InKernel.saves_saveTaskState {c : ℤ} {lists : Lists TaskQueue ℤ}
    (h : InKernel s c lists) (spsr : Word) (sp : ℕ) (pc timer : Word)
    (wentOff : Bool) : Saves s c (saveTaskState s spsr sp pc timer wentOff) where
  quietly := h.handled_saveTaskState spsr sp pc timer wentOff
  state := by
    intro index
    rw [saveTaskState, h.current_eq]
    by_cases hindex : index = c
    · subst index
      rw [State.setTask_self]
    · rw [State.setTask_of_ne s _ hindex]

theorem Saves.setCurrentTaskReturnValue {middle saved : State} {c : ℤ}
    (h : Saves middle c saved) (ret : ℤ) :
    Saves middle c (setCurrentTaskReturnValue saved ret) where
  quietly := by
    apply h.quietly.bind
    intro lists hkernel
    exact hkernel.handled_setCurrentTaskReturnValue ret
  state := h.state

def savedCall (middle : State) (trap : Trap) (result : ℤ) : State :=
  setCurrentTaskReturnValue
    (saveTaskState middle trap.spsr trap.sp trap.pc trap.timer.entry
      trap.timer.wentOffAtSave) result

theorem InKernel.savedCall {c : ℤ} {lists : Lists TaskQueue ℤ}
    (h : InKernel s c lists) (trap : Trap) (result : ℤ) :
    InKernel (savedCall s trap result) c lists := by
  have hsaved : InKernel (saveTaskState s trap.spsr trap.sp trap.pc trap.timer.entry
      trap.timer.wentOffAtSave) c lists := by
    rw [saveTaskState, h.current_eq]
    exact h.setCurrent (.of_update_same rfl rfl rfl rfl)
  exact hsaved.silent (.storeWord _ _ _)

/-- Saving the running task leaves its state and priority, and the other tasks. -/
theorem InKernel.task_savedCall {c : ℤ} {lists : Lists TaskQueue ℤ}
    (h : InKernel s c lists) (trap : Trap) (result : ℤ) (index : ℤ) :
    ((Kernel.savedCall s trap result).task index).state = (s.task index).state ∧
      ((Kernel.savedCall s trap result).task index).priority = (s.task index).priority ∧
      (index ≠ c → (Kernel.savedCall s trap result).task index = s.task index) := by
  have htask : (Kernel.savedCall s trap result).task = (saveTaskState s trap.spsr trap.sp
      trap.pc trap.timer.entry trap.timer.wentOffAtSave).task := rfl
  rw [htask, saveTaskState, h.current_eq]
  by_cases hindex : index = c
  · subst index
    rw [State.setTask_self]
    exact ⟨rfl, rfl, fun hne => absurd rfl hne⟩
  · rw [State.setTask_of_ne s _ hindex]
    exact ⟨rfl, rfl, fun _ => rfl⟩

/-- A safe system call has an effect on the state that the trap finds; then the
running task is saved and the next one is dispatched. -/
theorem Coherent.round_call (h : Coherent s l) {call : Call}
    (hsafe : Safe s (.call call trap)) (hstep : Step s (.call call trap) s') :
    ∃ fuel result middle queues,
      handle (entered s trap) fuel trap call = some (result, middle) ∧
      Effect (entered s trap) l (some call) queues middle ∧
      Saves middle l.current (savedCall middle trap result) ∧
      scheduleAndActivate (savedCall middle trap result) trap.timer.activation =
        some s' := by
  obtain ⟨fuel, hstep⟩ := hstep
  have hentered := h.enter trap
  rw [step] at hstep
  split_ifs at hstep
  rw [Option.bind_eq_some_iff] at hstep
  obtain ⟨saved, hsvc, hactivate⟩ := hstep
  obtain ⟨result, middle, hhandle, rfl⟩ := svcEntry_eq_some hsvc
  obtain ⟨queues, heffect⟩ := hentered.effect_handle hsafe.enter hhandle
  obtain ⟨lists, hkernel⟩ := heffect.inKernel hentered
  exact ⟨fuel, result, middle, queues, hhandle, heffect,
    (hkernel.saves_saveTaskState _ _ _ _ _).setCurrentTaskReturnValue result,
    hactivate⟩

/-- An interrupt is quiet and leaves the running task running. -/
theorem Coherent.effect_handleIrq (h : Coherent s l) {fuel : ℕ} {intrCode : ℤ}
    {timer : TimerReadings} {time : Word}
    (hirq : handleIrq s fuel intrCode timer = some (time, s')) :
    Effect s l none l.queues s' := by
  have hkernel := h.dispatched.toInKernel
  apply Effect.quiet (hkernel.handled_handleIrq hirq)
  intro _
  rw [hkernel.task_handleIrq hirq]
  exact h.dispatched.running

theorem Coherent.round_interrupt (h : Coherent s l) {intrCode : ℤ}
    (hstep : Step s (.interrupt intrCode trap) s') :
    ∃ fuel time middle,
      handleIrq (entered s trap) fuel intrCode trap.timer = some (time, middle) ∧
      Effect (entered s trap) l none l.queues middle ∧
      Saves middle l.current (saveTaskState middle trap.spsr trap.sp trap.pc time
        trap.timer.wentOffAtSave) ∧
      scheduleAndActivate (saveTaskState middle trap.spsr trap.sp trap.pc time
        trap.timer.wentOffAtSave) trap.timer.activation = some s' := by
  obtain ⟨fuel, hstep⟩ := hstep
  have hentered := h.enter trap
  rw [step, Option.bind_eq_some_iff] at hstep
  obtain ⟨saved, hirq, hactivate⟩ := hstep
  obtain ⟨time, middle, hhandle, rfl⟩ := irqEntry_eq_some hirq
  have heffect := hentered.effect_handleIrq hhandle
  obtain ⟨lists, hkernel⟩ := heffect.inKernel hentered
  exact ⟨fuel, time, middle, hhandle, heffect, hkernel.saves_saveTaskState _ _ _ _ _,
    hactivate⟩

/-- Either way. -/
theorem Coherent.round (h : Coherent s l) (hsafe : Safe s action)
    (hstep : Step s action s') :
    ∃ queues middle saved,
      Effect (entered s action.trap) l action.call? queues middle ∧
      Saves middle l.current saved ∧
      scheduleAndActivate saved action.trap.timer.activation = some s' := by
  cases action with
  | call call trap =>
      obtain ⟨_, _, middle, queues, _, hround⟩ := h.round_call hsafe hstep
      exact ⟨queues, middle, _, hround⟩
  | interrupt intrCode trap =>
      obtain ⟨_, _, middle, _, hround⟩ := h.round_interrupt hstep
      exact ⟨l.queues, middle, _, hround⟩

/-- The dispatcher makes the state coherent again, with the next task running. -/
theorem Effect.dispatched {middle saved : State} {queues : Lists ℤ ℤ}
    {call : Option Call} (heffect : Effect s l call queues middle)
    (h : Coherent s l) (hsaved : Saves middle l.current saved)
    {lists : Lists TaskQueue ℤ} (hkernel : InKernel saved l.current lists) {now : Word}
    (hactivate : scheduleAndActivate saved now = some s') :
    ∃ next links children depth,
      firstOf (requeued saved l.current lists) .ready Priority.all = some next ∧
      s' = activatedState (saved.withTasks (preempted saved l.current)
        (requeuedLinks saved l.current)) next now links ∧
      Coherent s' ⟨next, (requeued saved l.current lists).erase next, children, depth,
        queues⟩ ∧ Quiet middle s' := by
  have hsole : Sole saved l.current := hsaved.quietly.handled.sole (heffect.sole h)
  obtain ⟨next, links, hfirst, hstate, hdispatched, hlast⟩ :=
    hkernel.dispatched hsole hactivate
  have hquiet := hsaved.quietly.quiet.trans hlast
  obtain ⟨children, depth, hfamily⟩ := heffect.family h
  refine ⟨next, links, children, depth, hfirst, hstate, ⟨hdispatched, ?_, ?_, ?_⟩, hquiet⟩
  · exact (heffect.numbered h).congr hquiet.keeps
  · exact hfamily.congr hquiet.keeps hquiet.siblings
  · exact (heffect.messages h).quiet hquiet

/-- What follows the handler is quiet and ends in a coherent state. -/
theorem Effect.finish {middle saved : State} {queues : Lists ℤ ℤ}
    {call : Option Call} (heffect : Effect s l call queues middle)
    (h : Coherent s l) (hsaved : Saves middle l.current saved) {now : Word}
    (hactivate : scheduleAndActivate saved now = some s') :
    Quiet middle s' ∧ ∃ l', Coherent s' l' ∧ l'.queues = queues := by
  obtain ⟨lists, hkernel⟩ := hsaved.quietly.inKernel
  obtain ⟨_, _, _, _, _, _, hcoherent, hquiet⟩ :=
    heffect.dispatched h hsaved hkernel hactivate
  exact ⟨hquiet, _, hcoherent, rfl⟩

/-- A safe round ends in a coherent state, and descriptors evolve. -/
theorem Coherent.step (h : Coherent s l) (hsafe : Safe s action)
    (hstep : Step s action s') : (∃ l', Coherent s' l') ∧ Evolves s s' := by
  obtain ⟨queues, middle, saved, heffect, hsaved, hactivate⟩ := h.round hsafe hstep
  have hentered := h.enter action.trap
  obtain ⟨hquiet, l', hcoherent, _⟩ := heffect.finish hentered hsaved hactivate
  have hstart : Evolves s (entered s action.trap) :=
    (Keeps.of_task_eq rfl).evolves
  exact ⟨⟨l', hcoherent⟩,
    (hstart.trans (heffect.evolves hentered)).trans hquiet.keeps.evolves⟩

end Round

end Rtk.Kernel
