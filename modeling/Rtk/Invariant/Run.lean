import Rtk.Core.Transition
import Rtk.Invariant.Boot
import Rtk.Invariant.Delivery

/-!
# Runs of the kernel

The kernel as a transition system.  In runs without `Destroy` every round is
safe, because a linked node belongs to a blocked task that is still in use, and
the null task always keeps some task ready.
-/

namespace Rtk.Kernel

open Function
open Rtk.ByteMemory
open Rtk.Lib
open Rtk.Lib.QueueHeap
open Rtk.Transition

/-- The kernel: from the first activation, one round at a time. -/
def kernel : System State Action where
  initial := Booted
  step := Step

theorem coherent_of_reachable {s : State} (hreachable : Reachable kernel Safe s) :
    ∃ l, Coherent s l := by
  apply hreachable.invariant
  · intro s hbooted
    obtain ⟨depth, hcoherent⟩ := hbooted.coherent
    exact ⟨_, hcoherent⟩
  · rintro s action s' ⟨l, hcoherent⟩ hsafe hstep
    exact (hcoherent.step hsafe hstep).1

/-- A property that a safe step keeps exactly when it meets a condition. -/
theorem kept_iff_of_reachable {s : State} {property : State → Prop}
    {condition : State → Action → Prop}
    (hreachable : Reachable kernel (fun s action => Safe s action ∧ condition s action) s)
    (hbooted : ∀ s, Booted s → property s)
    (hexact : ∀ {s l action s'}, Coherent s l → property s → Safe s action →
      Step s action s' → (property s' ↔ condition s action)) :
    property s ∧ ∀ {action s'}, Safe s action → Step s action s' →
      (property s' ↔ condition s action) := by
  apply @Reachable.kept_iff _ _ _ _ (fun s => ∃ l, Coherent s l) _ _ _ hreachable
  · intro s hinitial
    exact ⟨coherent_of_reachable (.initial hinitial), hbooted s hinitial⟩
  · rintro s action s' ⟨l, hcoherent⟩ hsafe hstep
    exact (hcoherent.step hsafe hstep).1
  · rintro s action s' ⟨l, hcoherent⟩ hproperty hsafe hstep
    exact hexact hcoherent hproperty hsafe hstep

def NoDestroy (_ : State) : Action → Prop
  | .call (.destroy _) _ => False
  | _ => True

theorem NoDestroy.call {s : State} {action : Action} (h : NoDestroy s action)
    (tid : ℤ) : action.call? ≠ some (.destroy tid) := by
  cases action with
  | interrupt intrCode trap => simp [Action.call?]
  | call call trap =>
      rintro ⟨⟩
      exact h

/-! ## Computed runs -/

/-- The rounds of a list of actions, each with the given bound on its loops. -/
def rounds (fuel : ℕ) (s : State) : List Action → Option State
  | [] => some s
  | action :: actions => (step s fuel action).bind fun s => rounds fuel s actions

theorem path_of_rounds {allowed : State → Action → Prop} {fuel : ℕ} {s s' : State}
    {actions : List Action} (hrounds : rounds fuel s actions = some s')
    (hallowed : ∀ action ∈ actions, ∀ s, allowed s action) :
    Path kernel allowed s s' := by
  induction actions generalizing s with
  | nil =>
      rw [rounds, Option.some.injEq] at hrounds
      subst hrounds
      exact .refl s
  | cons action actions ih =>
      rw [rounds, Option.bind_eq_some_iff] at hrounds
      obtain ⟨middle, hstep, hrest⟩ := hrounds
      have hfirst : Path kernel allowed s middle :=
        .tail (.refl s) (hallowed action (by simp) s) ⟨fuel, hstep⟩
      exact hfirst.trans (ih hrest fun other hother =>
        hallowed other (by simp [hother]))

def firstActivation (image : Image) (memory : Memory) (now : Word) : Option State :=
  activateNext (launchedState image memory) now

theorem booted_of_firstActivation {image : Image} {memory : Memory} {now : Word}
    {s : State} (hfirst : firstActivation image memory now = some s) : Booted s := by
  refine ⟨image, memory, now, ?_⟩
  rw [rtkLaunch_eq, scheduleAndActivate, scheduleCurrent,
    (prepared_launchedState image memory).currentTask]
  exact hfirst

/-- A computed run reaches its last state. -/
theorem reachable_of_rounds {allowed : State → Action → Prop} {image : Image}
    {memory : Memory} {now : Word} {fuel : ℕ} {s : State} {actions : List Action}
    (hrounds : (firstActivation image memory now).bind
      (fun s => rounds fuel s actions) = some s)
    (hallowed : ∀ action ∈ actions, ∀ s, allowed s action) :
    Reachable kernel allowed s := by
  obtain ⟨start, hfirst, hrest⟩ := Option.bind_eq_some_iff.mp hrounds
  exact ⟨start, booted_of_firstActivation hfirst, path_of_rounds hrest hallowed⟩

/-- An image for computed runs, with the stacks from `0x100000` on. -/
def sampleImage : Image where
  stackArray := 0x100000
  exit := 0x8000
  nullProcess := 0x8004
  init := 0x8008

/-- A trap of a task whose stack pointer is `sp`, over cleared memory. -/
def sampleTrap (sp : ℕ) : Trap where
  memory _ := 0
  sp := sp
  spsr := 0x10
  pc := 0x9000
  timer := ⟨0, false, false, false, 0⟩
  uninit := MsgQueueNode.zero
  uninitLinks := QueueNode.null
  r0 := 0

/-- The state after the first activation of the image and the given actions. -/
def sampleRun (actions : List Action) : Option State :=
  (firstActivation sampleImage (fun _ => 0) 0).bind fun s => rounds 8 s actions

/-- A value computed from a state and its successor belongs to two such states. -/
theorem exists_observed {A B C : Type*} {first : Option A} {second : A → Option B}
    {observe : A → B → C} {value : C}
    (hobserved : (first.bind fun s => (second s).map (observe s)) = some value) :
    ∃ s s', first = some s ∧ second s = some s' ∧ observe s s' = value := by
  obtain ⟨s, hfirst, hrest⟩ := Option.bind_eq_some_iff.mp hobserved
  obtain ⟨s', hsecond, hvalue⟩ := Option.map_eq_some_iff.mp hrest
  exact ⟨s, s', hfirst, hsecond, hvalue⟩

/-- The first task creates a second one, which sends it a message; it receives
and answers it. -/
def sampleActions : List Action :=
  [.call (.create 3 0x9000) (sampleTrap 0x103f00),
    .call (.send 1 0x200 5 0x300 6) (sampleTrap 0x105f00),
    .call (.receive 0x400 0x500 9) (sampleTrap 0x103f00),
    .interrupt (-4) (sampleTrap 0x103f00),
    .call (.reply 2 0x600 4) (sampleTrap 0x103f00)]

/-! ## The null task -/

/-- The null task has descriptor 0, and runs or is ready. -/
structure NullTask (s : State) (c : ℤ) : Prop where
  tid : (s.task 0).tid = 0
  allocated : Allocated s 0
  ready : c = 0 ∨ (s.task 0).state = .ready

/-- Some task that is ready or about to be requeued as ready. -/
def Resting (s : State) (c : ℤ) : Prop :=
  c = 0 ∧ (s.task 0).state = .active ∨ c ≠ 0 ∧ (s.task 0).state = .ready

section NullTask

variable {s s' middle saved : State} {l : Layout} {queues : Lists ℤ ℤ}
  {call : Option Call} {c : ℤ} {lists : Lists TaskQueue ℤ}

theorem Effect.spares (h : Coherent s l) (heffect : Effect s l call queues s')
    (hcall : ∀ tid, call ≠ some (.destroy tid)) : Spares l.current s s' := by
  rcases heffect.cases_handled h with hhandled |
    ⟨index, rest, requested, priority, code, _, hqueue, rfl⟩ |
    ⟨tid, parent, order, hdestroy, _⟩
  · exact hhandled.spares
  · intro other _ hready
    have hne : other ≠ index := by
      rintro rfl
      rw [(h.free_of_available hqueue).2] at hready
      simp at hready
    exact task_created_of_ne priority code hne
  · exact absurd hdestroy (hcall tid)

/-- An interrupt leaves the running task running. -/
theorem Effect.running_of_interrupt (heffect : Effect s l none queues s') :
    (s'.task l.current).state = .active := by
  cases heffect with
  | quiet hquiet hrunning => exact hrunning rfl

/-- Unless the null task makes a system call, it is still there when the next
task is chosen. -/
theorem Effect.resting (h : Coherent s l) (hnull : NullTask s l.current)
    (heffect : Effect s l call queues middle)
    (hcall : ∀ tid, call ≠ some (.destroy tid))
    (hmade : l.current = 0 → call = none)
    (hsaved : Saves middle l.current saved) : Resting saved l.current := by
  by_cases hzero : l.current = 0
  · left
    have hinterrupt := hmade hzero
    subst hinterrupt
    have hrunning := heffect.running_of_interrupt
    rw [hzero] at hrunning
    rw [hsaved.state]
    exact ⟨hzero, hrunning⟩
  · right
    have hready := hnull.ready.resolve_left hzero
    rw [hsaved.state, heffect.spares h hcall 0 (Ne.symm hzero) hready]
    exact ⟨hzero, hready⟩

/-- The null task waits in a ready queue when the next task is chosen. -/
theorem InKernel.exists_dispatch_of_resting (h : InKernel s c lists)
    (hresting : Resting s c) (now : Word) :
    ∃ s', scheduleAndActivate s now = some s' := by
  apply h.exists_dispatch_of_runnable (by decide : InTable 0)
  rcases hresting with ⟨rfl, hactive⟩ | ⟨_, hready⟩
  · exact .inr ⟨rfl, hactive⟩
  · exact .inl hready

/-- The null task runs next, or stays ready. -/
theorem InKernel.null_of_dispatch (h : InKernel s c lists) (hresting : Resting s c)
    {now : Word} (hactivate : scheduleAndActivate s now = some s') :
    s'.currentTask = some 0 ∨ (s'.task 0).state = .ready := by
  obtain ⟨next, links, _, rfl, _⟩ := h.dispatch hactivate
  by_cases hnext : next = 0
  · subst next
    exact .inl rfl
  · right
    rw [activatedState_of_ne now links (Ne.symm hnext), State.withTasks_task]
    rcases hresting with ⟨rfl, hactive⟩ | ⟨hne, hready⟩
    · rw [preempted_self, if_pos hactive]
    · rw [preempted_of_ne (Ne.symm hne), hready]

end NullTask

/-! ## Handlers end -/

section Total

variable {s : State} {l : Layout}

/-- Every handler but `DestroyHandler`, whose recursion has its own bound, ends
from a coherent state. -/
theorem Coherent.exists_handle (h : Coherent s l) (trap : Trap) {call : Call}
    (hcall : ∀ tid, call ≠ .destroy tid) :
    ∃ fuel result, handle s fuel trap call = some result := by
  cases call with
  | getTasksStats container =>
      obtain ⟨fuel, s', hstats⟩ := h.dispatched.exists_tasksStatsHandler container
      refine ⟨fuel, (trap.r0, s'), ?_⟩
      rw [handle, hstats, Option.map_some]
  | destroy tid => exact absurd rfl (hcall tid)
  | _ => exact ⟨0, _, rfl⟩

theorem svcEntry_of_handle {fuel : ℕ} {call : Call} {trap : Trap} {result : ℤ}
    {middle : State}
    (hhandle : handle (entered s trap) fuel trap call = some (result, middle)) :
    svcEntry s fuel call trap =
      some (setCurrentTaskReturnValue
        (saveTaskState middle trap.spsr trap.sp trap.pc trap.timer.entry
          trap.timer.wentOffAtSave) result) := by
  rw [entered] at hhandle
  rw [svcEntry, hhandle]

theorem irqEntry_of_handleIrq {fuel : ℕ} {intrCode : ℤ} {trap : Trap} {time : Word}
    {middle : State}
    (hirq : handleIrq (entered s trap) fuel intrCode trap.timer = some (time, middle)) :
    irqEntry s fuel intrCode trap =
      some (saveTaskState middle trap.spsr trap.sp trap.pc time
        trap.timer.wentOffAtSave) := by
  rw [entered] at hirq
  rw [irqEntry, hirq]

end Total

/-- The node of the running task is in no queue. -/
theorem Addressed.not_inMsgQueue {s : State} {l : Layout} (haddressed : Addressed s l.queues)
    (h : Coherent s l) (queue : ℤ) : ¬InMsgQueue s queue s.current := by
  rw [h.messages.inMsgQueue_iff, h.dispatched.current_eq]
  exact haddressed.unlinked h queue

/-! ## Runs without `Destroy` -/

/-- The state between two rounds of a run without `Destroy`. -/
structure Undestroyed (s : State) (l : Layout) : Prop extends Coherent s l where
  addressed : Addressed s l.queues
  occupied : Occupied s l.queues
  delivered : Delivered s l.queues
  null : NullTask s l.current

section Undestroyed

variable {s s' : State} {l : Layout} {action : Action}

/-- A round of such a run is safe. -/
theorem Undestroyed.safe (h : Undestroyed s l) (hno : NoDestroy s action) :
    Safe s action := by
  have hunlinked := h.addressed.not_inMsgQueue h.toCoherent
  cases action with
  | interrupt intrCode trap => trivial
  | call call trap =>
      cases call with
      | send tid msg msglen reply replylen => exact fun _ => hunlinked
      | receive tid msg msglen =>
          have hcontents := h.messages.represents.contents l.current
          simp only [Safe, h.dispatched.current_eq, hcontents.first]
          cases hqueue : l.queues l.current with
          | nil =>
              rw [← h.dispatched.current_eq]
              exact hunlinked
          | cons head rest =>
              intro _
              have hmem : head ∈ l.queues l.current := by simp [hqueue]
              rw [(h.messages.linked hmem).slot_from]
              exact h.occupied.sender hmem
      | destroy tid => exact hno.elim
      | _ => trivial

/-- The null task makes no system call. -/
theorem Undestroyed.call_of_null (h : Undestroyed s l) (hstep : Step s action s')
    (hzero : l.current = 0) : action.call? = none := by
  obtain ⟨fuel, hstep⟩ := hstep
  cases action with
  | interrupt intrCode trap => rfl
  | call call trap =>
      have htid : getCurrentTid s = 0 := by
        rw [h.dispatched.getCurrentTid_eq, hzero, h.null.tid]
      rw [Kernel.step, if_pos htid] at hstep
      simp at hstep

theorem Undestroyed.step (h : Undestroyed s l) (hno : NoDestroy s action)
    (hstep : Step s action s') : ∃ l', Undestroyed s' l' := by
  obtain ⟨queues, middle, saved, heffect, hsaved, hactivate⟩ :=
    h.toCoherent.round (h.safe hno) hstep
  have hentered := h.toCoherent.enter action.trap
  have hsilent := (silent_entered s action.trap).quiet
  have hcall := hno.call
  obtain ⟨hquiet, l', hcoherent, rfl⟩ := heffect.finish hentered hsaved hactivate
  have haddressed := h.addressed.quiet hsilent
  have hoccupied := h.occupied.quiet hsilent
  have hnull : NullTask (entered s action.trap) l.current :=
    ⟨h.null.tid, h.null.allocated, h.null.ready⟩
  have hresting := heffect.resting hentered hnull hcall
    (h.call_of_null hstep) hsaved
  have hlasting := heffect.lasting hentered hcall 0 h.null.allocated
  obtain ⟨lists, hkernel⟩ := hsaved.quietly.inKernel
  refine ⟨l', hcoherent, ?_, ?_, ?_, ?_, ?_, ?_⟩
  · exact (heffect.addressed hentered haddressed
      (hoccupied.separates hentered _)).quiet hquiet
  · exact (heffect.occupied hentered hoccupied hcall).quiet hquiet
  · exact (heffect.delivered hentered haddressed
      (h.delivered.quiet hsilent)).quiet hquiet
  · rw [hquiet.keeps.tid, hlasting.2]
    exact h.null.tid
  · rw [hquiet.keeps.allocated_iff]
    exact hlasting.1
  · rcases hkernel.null_of_dispatch hresting hactivate with hcurrent | hready
    · rw [hcoherent.dispatched.current, Option.some.injEq] at hcurrent
      exact .inl hcurrent
    · exact .inr hready

/-- What a trap can do in such a run: an interrupt, or a system call that is not
made by the null task. -/
def Enabled (s : State) (action : Action) : Prop :=
  action.call? = none ∨ getCurrentTid s ≠ 0

theorem Undestroyed.nullTask_entered (h : Undestroyed s l) (trap : Trap) :
    NullTask (entered s trap) l.current :=
  ⟨h.null.tid, h.null.allocated, h.null.ready⟩

/-- After a system call some task can run next. -/
theorem Undestroyed.exists_activate_of_svcEntry (h : Undestroyed s l) {call : Call}
    {trap : Trap} (hno : NoDestroy s (.call call trap)) (htid : getCurrentTid s ≠ 0)
    {fuel : ℕ} {saved : State} (hsvc : svcEntry s fuel call trap = some saved)
    (now : Word) : ∃ s', scheduleAndActivate saved now = some s' := by
  have hentered := h.toCoherent.enter trap
  have hcurrent : l.current ≠ 0 := by
    intro hzero
    apply htid
    rw [h.dispatched.getCurrentTid_eq, hzero, h.null.tid]
  have hsafe := (h.safe hno).enter
  obtain ⟨result, middle, hhandle, rfl⟩ := svcEntry_eq_some hsvc
  obtain ⟨queues, heffect⟩ := hentered.effect_handle hsafe hhandle
  obtain ⟨lists, hmiddle⟩ := heffect.inKernel hentered
  have hsaved := (hmiddle.saves_saveTaskState trap.spsr trap.sp trap.pc
    trap.timer.entry trap.timer.wentOffAtSave).setCurrentTaskReturnValue result
  have hresting := heffect.resting hentered (h.nullTask_entered trap) hno.call
    (fun hzero => absurd hzero hcurrent) hsaved
  obtain ⟨lists', hkernel⟩ := hsaved.quietly.inKernel
  exact hkernel.exists_dispatch_of_resting hresting now

/-- After an interrupt some task can run next. -/
theorem Undestroyed.exists_activate_of_irqEntry (h : Undestroyed s l) {intrCode : ℤ}
    {trap : Trap} {fuel : ℕ} {saved : State}
    (hirq : irqEntry s fuel intrCode trap = some saved) (now : Word) :
    ∃ s', scheduleAndActivate saved now = some s' := by
  have hentered := h.toCoherent.enter trap
  obtain ⟨time, middle, hhandle, rfl⟩ := irqEntry_eq_some hirq
  have heffect := hentered.effect_handleIrq hhandle
  obtain ⟨lists, hmiddle⟩ := heffect.inKernel hentered
  have hsaved := hmiddle.saves_saveTaskState trap.spsr trap.sp trap.pc time
    trap.timer.wentOffAtSave
  have hresting := heffect.resting hentered (h.nullTask_entered trap) (by simp)
    (fun _ => rfl) hsaved
  obtain ⟨lists', hkernel'⟩ := hsaved.quietly.inKernel
  exact hkernel'.exists_dispatch_of_resting hresting now

/-- Every trap that can happen is handled, and a next task is found. -/
theorem Undestroyed.exists_step (h : Undestroyed s l) (hno : NoDestroy s action)
    (henabled : Enabled s action) : ∃ s', Step s action s' := by
  have hentered := h.toCoherent.enter action.trap
  cases action with
  | interrupt intrCode trap =>
      obtain ⟨fuel, ⟨time, middle⟩, hirq⟩ :=
        hentered.dispatched.toInKernel.exists_handleIrq intrCode trap.timer
      have hentry : irqEntry s fuel intrCode trap = some _ := irqEntry_of_handleIrq hirq
      obtain ⟨s', hactivate⟩ :=
        h.exists_activate_of_irqEntry hentry trap.timer.activation
      refine ⟨s', fuel, ?_⟩
      rw [Kernel.step, hentry, Option.bind_some]
      exact hactivate
  | call call trap =>
      have htid : getCurrentTid s ≠ 0 := henabled.resolve_left (by simp [Action.call?])
      obtain ⟨fuel, ⟨result, middle⟩, hhandle⟩ := hentered.exists_handle trap
        (fun tid heq => hno.call tid (congrArg some heq))
      have hentry : svcEntry s fuel call trap = some _ := svcEntry_of_handle hhandle
      obtain ⟨s', hactivate⟩ :=
        h.exists_activate_of_svcEntry hno htid hentry trap.timer.activation
      refine ⟨s', fuel, ?_⟩
      rw [Kernel.step, if_neg htid, hentry, Option.bind_some]
      exact hactivate

end Undestroyed

theorem Booted.undestroyed {s : State} (hbooted : Booted s) :
    ∃ l, Undestroyed s l := by
  obtain ⟨depth, hcoherent⟩ := hbooted.coherent
  obtain ⟨htid, hready⟩ := hbooted.task_zero
  have hquiet := hbooted.log_quiet
  have hnone : ∀ {query : Event → Option MsgQueueNode},
      (∀ event, ¬event.IsMessage → query event = none) →
      s.log.filterMap query = [] := by
    intro query hquery
    rw [← List.nil_append s.log, filterMap_quiet hquery hquiet, List.filterMap_nil]
  refine ⟨_, hcoherent, ⟨by simp, by simp⟩, ⟨by simp, by simp⟩, ?_,
    ⟨htid, ?_, .inr hready⟩⟩
  · intro tid
    rw [sentMessages, takenMessages, pendingMessages, hnone (sentTo_quiet tid),
      hnone (takenBy_quiet tid)]
    rfl
  · exact allocated_of_state hready (by decide)

theorem undestroyed_of_reachable {s : State}
    (hreachable : Reachable kernel NoDestroy s) : ∃ l, Undestroyed s l := by
  apply hreachable.invariant
  · exact fun s hbooted => hbooted.undestroyed
  · rintro s action s' ⟨l, hundestroyed⟩ hno hstep
    exact hundestroyed.step hno hstep

/-! ## Runs that keep exchanges apart -/

/-- The condition under which a slot is not used again while it takes part in an
exchange: `Destroy` names no task that is destroyed already, `Receive` does not
take the message of a destroyed task, and `Create` takes a descriptor whose node
is in no queue and whose queue is empty. -/
def Separate (s : State) : Action → Prop
  | .call (.destroy tid) _ => isValidTid tid → NotDestroyed s tid
  | .call (.receive _ _ _) _ =>
      ∀ head, (s.msgQueues.queue s.current).first = some head →
        NotDestroyed s (s.node head).fromTid
  | .call (.create _ _) _ =>
      ∀ index, (s.taskQueues.queue .available).first = some index →
        (s.msgQueues.queue index).first = none ∧ ∀ queue, ¬InMsgQueue s queue index
  | _ => True

/-- The state between two rounds of such a run. -/
structure Separated (s : State) (l : Layout) : Prop extends Coherent s l where
  addressed : Addressed s l.queues
  delivered : Delivered s l.queues

section Separated

variable {s s' : State} {l : Layout} {action : Action}

theorem Separated.safe (h : Separated s l) (hseparate : Separate s action) :
    Safe s action := by
  have hunlinked := h.addressed.not_inMsgQueue h.toCoherent
  cases action with
  | interrupt intrCode trap => trivial
  | call call trap =>
      cases call with
      | send tid msg msglen reply replylen => exact fun _ => hunlinked
      | receive tid msg msglen =>
          simp only [Safe]
          cases hfirst : (s.msgQueues.queue s.current).first with
          | none => exact hunlinked
          | some head => exact hseparate head hfirst
      | destroy tid => exact hseparate
      | _ => trivial

theorem Separated.separates (h : Separated s l) (hseparate : Separate s action) :
    Separates l action.call? := by
  intro requested code index rest hcall hqueue
  cases action with
  | interrupt intrCode trap => simp [Action.call?] at hcall
  | call call trap =>
      simp only [Action.call?, Option.some.injEq] at hcall
      subst hcall
      have hfirst : (s.taskQueues.queue .available).first = some index := by
        rw [(h.dispatched.partition.represents.contents _).first, hqueue,
          List.head?_cons]
      obtain ⟨hempty, hfresh⟩ := hseparate index hfirst
      have hcontents := h.messages.represents.contents index
      constructor
      · rwa [hcontents.first, List.head?_eq_none_iff] at hempty
      · intro queue
        rw [← h.messages.inMsgQueue_iff]
        exact hfresh queue

theorem Separated.step (h : Separated s l) (hseparate : Separate s action)
    (hstep : Step s action s') : ∃ l', Separated s' l' := by
  obtain ⟨queues, middle, saved, heffect, hsaved, hactivate⟩ :=
    h.toCoherent.round (h.safe hseparate) hstep
  have hentered := h.toCoherent.enter action.trap
  have hsilent := (silent_entered s action.trap).quiet
  have haddressed := h.addressed.quiet hsilent
  obtain ⟨hquiet, l', hcoherent, rfl⟩ := heffect.finish hentered hsaved hactivate
  refine ⟨l', hcoherent, ?_, ?_⟩
  · exact (heffect.addressed hentered haddressed (h.separates hseparate)).quiet hquiet
  · exact (heffect.delivered hentered haddressed
      (h.delivered.quiet hsilent)).quiet hquiet

end Separated

theorem separated_of_reachable {s : State}
    (hreachable : Reachable kernel Separate s) : ∃ l, Separated s l := by
  apply hreachable.invariant
  · intro s hbooted
    obtain ⟨l, hundestroyed⟩ := hbooted.undestroyed
    exact ⟨l, hundestroyed.toCoherent, hundestroyed.addressed, hundestroyed.delivered⟩
  · rintro s action s' ⟨l, hseparated⟩ hseparate hstep
    exact hseparated.step hseparate hstep

end Rtk.Kernel
