import Rtk.Invariant.Dispatch

/-!
# Handlers that exchange no messages

`Handled s c s'` says what a handler of task `c` may do to the scheduler: the
partition is kept and a ready task stays as it is.  `HandledQuietly` adds that no
message is exchanged.  It composes, so each handler is followed through its
calls of `SetTaskState` and its writes to the current descriptor.
-/

namespace Rtk.Kernel

open Function
open Rtk.ByteMemory
open Rtk.Lib

/-- Every ready task other than `c` keeps its descriptor. -/
def Spares (c : ℤ) (s s' : State) : Prop :=
  ∀ index, index ≠ c → (s.task index).state = .ready →
    s'.task index = s.task index

theorem Spares.trans {c : ℤ} {s s' s'' : State} (hleft : Spares c s s')
    (hright : Spares c s' s'') : Spares c s s'' := by
  intro index hindex hready
  have hfirst := hleft index hindex hready
  rw [hright index hindex (by rw [hfirst, hready]), hfirst]

structure Handled (s : State) (c : ℤ) (s' : State) : Prop where
  inKernel : ∃ lists, InKernel s' c lists
  keeps : Keeps s s'
  siblings : s'.siblings = s.siblings
  spares : Spares c s s'
  active : ∀ index, (s'.task index).state = .active →
    (s.task index).state = .active

/-- A handler of task `c` that exchanges no message leads from `s` to `s'`. -/
structure HandledQuietly (s : State) (c : ℤ) (s' : State) : Prop where
  inKernel : ∃ lists, InKernel s' c lists
  quiet : Quiet s s'
  spares : Spares c s s'
  active : ∀ index, (s'.task index).state = .active →
    (s.task index).state = .active

theorem HandledQuietly.handled {s s' : State} {c : ℤ}
    (h : HandledQuietly s c s') : Handled s c s' :=
  ⟨h.inKernel, h.quiet.keeps, h.quiet.siblings, h.spares, h.active⟩

theorem HandledQuietly.refl {s : State} {c : ℤ} {lists : Lists TaskQueue ℤ}
    (h : InKernel s c lists) : HandledQuietly s c s :=
  ⟨⟨lists, h⟩, .refl s, fun _ _ _ => rfl, fun _ hactive => hactive⟩

theorem Handled.sole {s s' : State} {c : ℤ} (h : Handled s c s')
    (hsole : Sole s c) : Sole s' c :=
  fun {index} hindex hactive => hsole hindex (h.active index hactive)

theorem InKernel.handled_of_task_eq {s s' : State} {c : ℤ}
    {lists : Lists TaskQueue ℤ} (h : InKernel s c lists)
    (htask : s'.task = s.task) (hcurrent : s'.currentTask = s.currentTask)
    (hqueues : s'.taskQueues = s.taskQueues)
    (hsiblings : s'.siblings = s.siblings) : Handled s c s' where
  inKernel := ⟨lists, h.congr htask hcurrent hqueues⟩
  keeps := .of_task_eq htask
  siblings := hsiblings
  spares := by
    intro index _ _
    rw [htask]
  active := by
    intro index hactive
    rwa [htask] at hactive

theorem Handled.bind {s s' s'' : State} {c : ℤ} (hleft : Handled s c s')
    (hright : ∀ lists, InKernel s' c lists → Handled s' c s'') :
    Handled s c s'' := by
  obtain ⟨lists, hkernel⟩ := hleft.inKernel
  have hnext := hright lists hkernel
  exact ⟨hnext.inKernel, hleft.keeps.trans hnext.keeps,
    hnext.siblings.trans hleft.siblings, hleft.spares.trans hnext.spares,
    fun index hactive => hleft.active index (hnext.active index hactive)⟩

/-- Handlers compose: the second one starts from the partition that the first
one leaves. -/
theorem HandledQuietly.bind {s s' s'' : State} {c : ℤ} (hleft : HandledQuietly s c s')
    (hright : ∀ lists, InKernel s' c lists → HandledQuietly s' c s'') :
    HandledQuietly s c s'' := by
  obtain ⟨lists, hkernel⟩ := hleft.inKernel
  have hnext := hright lists hkernel
  exact ⟨hnext.inKernel, hleft.quiet.trans hnext.quiet,
    hleft.spares.trans hnext.spares,
    fun index hactive => hleft.active index (hnext.active index hactive)⟩

section Steps

variable {s s' : State} {c : ℤ} {lists : Lists TaskQueue ℤ}

theorem InKernel.handled_of_silent (h : InKernel s c lists)
    (hsilent : Silent s s') : HandledQuietly s c s' where
  inKernel := ⟨lists, h.silent hsilent⟩
  quiet := hsilent.quiet
  spares := by
    intro index _ _
    rw [hsilent.task]
  active := by
    intro index hactive
    rw [hsilent.task] at hactive
    exact hactive

/-- A handler may rewrite the descriptor of the running task. -/
theorem InKernel.handled_setCurrent (h : InKernel s c lists) (task : Task)
    (hkeeps : Keeps s (s.setTask c task))
    (hstate : Unaffected (s.task c).state task.state)
    (hactive : task.state = .active → (s.task c).state = .active) :
    HandledQuietly s c (s.setTask c task) where
  inKernel := ⟨lists, h.setCurrent hkeeps⟩
  quiet := .of_update c task rfl rfl rfl rfl rfl hkeeps hstate
  spares := by
    intro index hindex _
    exact update_of_ne hindex _ _
  active := by
    intro index hwas
    by_cases hindex : index = c
    · subst index
      rw [State.setTask_self] at hwas
      exact hactive hwas
    · rwa [State.setTask_of_ne s task hindex] at hwas

theorem spares_withState {tid : ℤ} {state : TaskState}
    {queues : QueueHeap TaskQueue ℤ}
    (hspare : (s.task (slot tid)).tid = tid → slot tid ≠ c →
      (s.task (slot tid)).state ≠ .ready) :
    Spares c s (s.withTasks (withState s.task tid state) queues) := by
  intro index hindex hready
  rw [State.withTasks_task]
  by_cases htid : (s.task (slot tid)).tid = tid
  · by_cases hother : index = slot tid
    · subst index
      exact absurd hready (hspare htid hindex)
    · exact withState_of_ne hother
  · rw [withState_of_tid_ne htid]

theorem active_of_withState {tid : ℤ} {state : TaskState}
    {queues : QueueHeap TaskQueue ℤ} (hactive : state ≠ .active) (index : ℤ)
    (hwas : ((s.withTasks (withState s.task tid state) queues).task index).state =
      .active) : (s.task index).state = .active := by
  rw [State.withTasks_task] at hwas
  by_cases htid : (s.task (slot tid)).tid = tid
  · by_cases hother : index = slot tid
    · subst index
      rw [withState_slot htid] at hwas
      exact absurd hwas hactive
    · rwa [withState_of_ne hother] at hwas
  · rwa [withState_of_tid_ne htid] at hwas

/-- A handler may move a task that is not ready. -/
theorem InKernel.handled_withState {tid : ℤ}
    {state : TaskState} {queues : QueueHeap TaskQueue ℤ}
    {lists' : Lists TaskQueue ℤ}
    (hkernel : InKernel (s.withTasks (withState s.task tid state) queues) c lists')
    (hlive : NotDestroyed s tid) (hstate : 0 ≤ state.value)
    (hactive : state ≠ .active)
    (hspare : (s.task (slot tid)).tid = tid → slot tid ≠ c →
      (s.task (slot tid)).state ≠ .ready) :
    Handled s c (s.withTasks (withState s.task tid state) queues) :=
  ⟨⟨lists', hkernel⟩, keeps_withState rfl hlive hstate, rfl,
    spares_withState hspare, active_of_withState hactive⟩

/-- A handler may move a task that is not ready between states outside any
exchange. -/
theorem InKernel.handled_setTaskState (h : InKernel s c lists) {tid : ℤ}
    {state : TaskState} (hslot : InTable (slot tid)) (hlive : NotDestroyed s tid)
    (hstate : 0 ≤ state.value) (hactive : state ≠ .active)
    (hquiet : (s.task (slot tid)).tid = tid →
      Unaffected (s.task (slot tid)).state state)
    (hspare : (s.task (slot tid)).tid = tid → slot tid ≠ c →
      (s.task (slot tid)).state ≠ .ready) :
    HandledQuietly s c (setTaskState s tid state) := by
  obtain ⟨queues, heq, hkernel⟩ := h.exists_setTaskState hslot hlive hstate
  rw [heq]
  exact ⟨⟨_, hkernel⟩, quiet_withState hlive hstate hquiet,
    spares_withState hspare, active_of_withState hactive⟩

theorem InKernel.handled_setCurrentTaskState (h : InKernel s c lists)
    {state : TaskState} (halloc : Allocated s c) (hstate : 0 ≤ state.value)
    (hactive : state ≠ .active) (hquiet : Unaffected (s.task c).state state) :
    HandledQuietly s c (setCurrentTaskState s state) := by
  rw [setCurrentTaskState, h.current_eq]
  apply h.handled_setCurrent
  · exact .of_update rfl halloc hstate rfl rfl
  · exact hquiet
  · exact fun hwas => absurd hwas hactive

/-- `SaveTaskState` also runs for a task that has destroyed itself. -/
theorem InKernel.handled_saveTaskState (h : InKernel s c lists) (spsr : Word)
    (sp : ℕ) (pc timer : Word) (wentOff : Bool) :
    HandledQuietly s c (saveTaskState s spsr sp pc timer wentOff) := by
  rw [saveTaskState, h.current_eq]
  apply h.handled_setCurrent
  · exact .of_update_same rfl rfl rfl rfl
  · exact .refl _
  · exact id

theorem InKernel.handled_setCurrentTaskReturnValue (h : InKernel s c lists)
    (ret : ℤ) : HandledQuietly s c (setCurrentTaskReturnValue s ret) :=
  h.handled_of_silent (.storeWord _ _ _)

end Steps

/-! ## System calls -/

section Calls

variable {s : State} {c : ℤ} {lists : Lists TaskQueue ℤ}

theorem Dispatched.allocated (h : Dispatched s c lists) : Allocated s c := by
  exact allocated_of_state h.running (by decide)

/-- The running task may take any state in use outside an exchange. -/
theorem Dispatched.unaffected (h : Dispatched s c lists) {state : TaskState}
    (hstate : ¬state.Exchanging) : Unaffected (s.task c).state state := by
  rw [h.running]
  exact .inr ⟨by decide, hstate⟩

theorem Dispatched.silent {s' : State} (h : Dispatched s c lists)
    (hsilent : Silent s s') : Dispatched s' c lists where
  toInKernel := h.toInKernel.silent hsilent
  running := by
    rw [hsilent.task]
    exact h.running
  sole := by
    intro index hindex
    rw [hsilent.task]
    exact h.sole hindex

theorem Dispatched.handled_exitTask (h : Dispatched s c lists) :
    HandledQuietly s c (exitTask s) := by
  have hsilent : Silent s { s with numTasks := s.numTasks - 1 } :=
    .of_log_eq rfl rfl rfl rfl rfl rfl rfl
  have hcount := h.silent hsilent
  apply (h.handled_of_silent hsilent).bind
  intro lists' hkernel
  apply hkernel.handled_setCurrentTaskState hcount.allocated (by decide)
    (by decide)
  exact hcount.unaffected (by decide)

/-- The running task may rewrite its own descriptor but for its state. -/
theorem Dispatched.setCurrent (h : Dispatched s c lists) {task : Task}
    (hkeeps : Keeps s (s.setTask c task)) (hstate : task.state = .active) :
    Dispatched (s.setTask c task) c lists where
  toInKernel := h.toInKernel.setCurrent hkeeps
  running := by
    rw [State.setTask_self]
    exact hstate
  sole := by
    intro index hindex hactive
    by_cases hne : index = c
    · exact hne
    · rw [State.setTask_of_ne s task hne] at hactive
      exact h.sole hindex hactive

theorem Dispatched.handled_awaitEventHandler (h : Dispatched s c lists)
    (intr : Word) : HandledQuietly s c (awaitEventHandler s intr).2 := by
  have hkeeps : Keeps s (s.setTask c { s.task c with awaitingEventId := intr }) :=
    .of_update_same rfl rfl rfl rfl
  have hawait := h.setCurrent hkeeps h.running
  have hblocked : HandledQuietly s c (setCurrentTaskState
      (s.setTask c { s.task c with awaitingEventId := intr }) .eventBlocked) := by
    apply (h.handled_setCurrent _ hkeeps (.refl _) id).bind
    intro lists' hkernel
    apply hkernel.handled_setCurrentTaskState hawait.allocated (by decide)
      (by decide)
    exact hawait.unaffected (by decide)
  rw [awaitEventHandler, h.current_eq]
  apply hblocked.bind
  intro lists' hkernel
  exact hkernel.handled_of_silent (.of_log_eq rfl rfl rfl rfl rfl rfl rfl)

theorem Dispatched.handled_setCurrentTaskPriority (h : Dispatched s c lists)
    (priority : ℕ) : HandledQuietly s c (setCurrentTaskPriority s priority).2 := by
  rw [setCurrentTaskPriority, h.current]
  split_ifs
  · exact .refl h.toInKernel
  · apply h.handled_setCurrent
    · exact .of_update_same rfl rfl rfl rfl
    · exact .refl _
    · exact id

/-- `IsValidPriority` compares the wrong way round and accepts nothing. -/
theorem isValidPriority_eq_false (priority : ℤ) :
    isValidPriority priority = false := by
  rw [isValidPriority, decide_eq_false_iff_not]
  simp only [Priority.value]
  omega

theorem setTaskPriority_eq (s : State) (tid priority : ℤ) :
    setTaskPriority s tid priority = (errSetPriorityInvalidPriority, s) := by
  rw [setTaskPriority, isValidPriority_eq_false]
  rfl

theorem InKernel.handled_taskStatsHandler (h : InKernel s c lists) (tid : ℤ)
    (container : ℕ) : HandledQuietly s c (taskStatsHandler s tid container) := by
  apply (h.handled_of_silent (.useDescriptor s (slot tid))).bind
  intro lists' hkernel
  exact hkernel.handled_of_silent (.storeTaskStats _ container _)

end Calls

end Rtk.Kernel
