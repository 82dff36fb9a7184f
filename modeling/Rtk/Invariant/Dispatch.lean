import Rtk.Invariant.Scheduling

/-!
# Dispatching the next task

`ScheduleAndActivate` requeues the current task and then takes the head of the
first ready queue that is not empty, most urgent priority first.  `Idle` is the
partition between its two halves, and `Dispatched` the partition once a task
runs.
-/

namespace Rtk.Kernel

open Function
open Rtk.ByteMemory
open Rtk.Lib

/-- The head of the first queue of `state` that is not empty. -/
def firstOf (lists : Lists TaskQueue ℤ) (state : TaskState) :
    List Priority → Option ℤ
  | [] => none
  | priority :: priorities =>
      (lists (.states state priority)).head?.or (firstOf lists state priorities)

theorem firstOf_eq_none_iff {lists : Lists TaskQueue ℤ} {state : TaskState}
    {priorities : List Priority} :
    firstOf lists state priorities = none ↔
      ∀ priority ∈ priorities, lists (.states state priority) = [] := by
  induction priorities with
  | nil => simp [firstOf]
  | cons priority priorities ih =>
      simp [firstOf, Option.or_eq_none_iff, ih, List.head?_eq_none_iff]

theorem exists_of_firstOf {lists : Lists TaskQueue ℤ} {state : TaskState}
    {priorities : List Priority} {index : ℤ}
    (hfirst : firstOf lists state priorities = some index) :
    ∃ priority ∈ priorities, index ∈ lists (.states state priority) := by
  induction priorities with
  | nil => simp [firstOf] at hfirst
  | cons priority priorities ih =>
      rw [firstOf, Option.or_eq_some_iff] at hfirst
      rcases hfirst with hhead | ⟨_, hrest⟩
      · exact ⟨priority, by simp, List.mem_of_head? hhead⟩
      · obtain ⟨other, hother, hmem⟩ := ih hrest
        exact ⟨other, by simp [hother], hmem⟩

/-- `DequeuePriorityTaskQueue` takes the head of the first queue that is not
empty. -/
theorem dequeuePriorityTaskQueue_some {s : State} {lists : Lists TaskQueue ℤ}
    {state : TaskState} {priorities : List Priority} {index : ℤ}
    (hrep : Represents s.taskQueues lists)
    (hfirst : firstOf lists state priorities = some index) :
    ∃ queues,
      dequeuePriorityTaskQueue s state priorities =
        (some index, { s with taskQueues := queues }) ∧
      Represents queues (lists.erase index) ∧
      (Tidy s.taskQueues lists → Tidy queues (lists.erase index)) := by
  induction priorities with
  | nil => simp [firstOf] at hfirst
  | cons priority priorities ih =>
      rw [dequeuePriorityTaskQueue]
      cases hqueue : lists (.states state priority) with
      | nil =>
          rw [firstOf, hqueue, List.head?_nil, Option.none_or] at hfirst
          have hnone :
              (s.taskQueues.queue (.states state priority)).first = none := by
            rw [(hrep.contents _).first, hqueue, List.head?_nil]
          rw [s.taskQueues.dequeueQueue_of_first_none _ hnone]
          exact ih hfirst
      | cons head rest =>
          rw [firstOf, hqueue, List.head?_cons, Option.some_or,
            Option.some.injEq] at hfirst
          subst index
          obtain ⟨htaken, hleft⟩ := hrep.dequeueQueue hqueue
          refine ⟨_, ?_, hleft, fun htidy => hrep.tidy_dequeueQueue htidy hqueue⟩
          cases hdequeue : s.taskQueues.dequeueQueue (.states state priority) with
          | mk dequeued queues =>
              simp only [hdequeue] at htaken
              subst dequeued
              rfl

theorem dequeuePriorityTaskQueue_none {s : State} {lists : Lists TaskQueue ℤ}
    {state : TaskState} {priorities : List Priority}
    (hrep : Represents s.taskQueues lists)
    (hfirst : firstOf lists state priorities = none) :
    dequeuePriorityTaskQueue s state priorities = (none, s) := by
  induction priorities with
  | nil => rfl
  | cons priority priorities ih =>
      rw [firstOf, Option.or_eq_none_iff] at hfirst
      have hnone : (s.taskQueues.queue (.states state priority)).first = none := by
        rw [(hrep.contents _).first, hfirst.1]
      rw [dequeuePriorityTaskQueue, s.taskQueues.dequeueQueue_of_first_none _ hnone]
      exact ih hfirst.2

/-- The partition while no task runs. -/
structure Idle (s : State) (lists : Lists TaskQueue ℤ) : Prop where
  partition : Partition s none lists
  named : Named s

/-- The partition while task `c` runs. -/
structure Dispatched (s : State) (c : ℤ) (lists : Lists TaskQueue ℤ) : Prop
    extends InKernel s c lists where
  running : (s.task c).state = .active
  sole : Sole s c

/-- The descriptor of the task that `ScheduleAndActivate` starts. -/
def activated (task : Task) (now : Word) : Task :=
  { task with
    state := .active
    lastActivateAt := now
    allowedUserTime := task.allowedUserTime + now / 100
    numActivates := task.numActivates + 1 }

/-- A task in a ready queue is in the table and `READY`. -/
theorem Idle.ready {s : State} {lists : Lists TaskQueue ℤ} (h : Idle s lists)
    {priority : Priority} {index : ℤ}
    (hmem : index ∈ lists (.states .ready priority)) :
    InTable index ∧ (s.task index).state = .ready := by
  obtain ⟨hindex, hhome⟩ := h.partition.mem_iff.mp hmem
  exact ⟨hindex, (home_eq_states_iff.mp hhome).2.2.1⟩

/-- The state in which `ScheduleAndActivate` returns to task `next`. -/
def activatedState (s : State) (next : ℤ) (now : Word)
    (queues : QueueHeap TaskQueue ℤ) : State :=
  { s.withTasks (update s.task next (activated (s.task next) now)) queues with
    currentTask := some next }

theorem keeps_activatedState {s : State} {next : ℤ} (now : Word)
    (queues : QueueHeap TaskQueue ℤ) (halloc : Allocated s next) :
    Keeps s (activatedState s next now queues) := by
  apply Keeps.of_update rfl halloc
  · simp [activated, TaskState.value]
  · rfl
  · rfl

theorem activatedState_self (s : State) (next : ℤ) (now : Word)
    (queues : QueueHeap TaskQueue ℤ) :
    (activatedState s next now queues).task next = activated (s.task next) now :=
  update_self _ _ _

theorem activatedState_of_ne {s : State} {next index : ℤ} (now : Word)
    (queues : QueueHeap TaskQueue ℤ) (hindex : index ≠ next) :
    (activatedState s next now queues).task index = s.task index :=
  update_of_ne hindex _ _

/-- The dispatcher changes no priority. -/
theorem priority_activatedState (s : State) (c next : ℤ) (now : Word)
    (links links' : QueueHeap TaskQueue ℤ) (index : ℤ) :
    ((activatedState (s.withTasks (preempted s c) links) next now links').task
      index).priority = (s.task index).priority := by
  by_cases hindex : index = next
  · rw [hindex, activatedState_self]
    exact priority_preempted s c next
  · rw [activatedState_of_ne now links' hindex]
    exact priority_preempted s c index

/-- The second half of `ScheduleAndActivate` starts the first ready task. -/
theorem Idle.exists_activateNext {s : State} {lists : Lists TaskQueue ℤ}
    (h : Idle s lists) {next : ℤ} (now : Word)
    (hnext : firstOf lists .ready Priority.all = some next) :
    ∃ queues,
      activateNext s now = some (activatedState s next now queues) ∧
      InKernel (activatedState s next now queues) next (lists.erase next) := by
  obtain ⟨queues, hdequeue, hrep, htidy⟩ :=
    dequeuePriorityTaskQueue_some h.partition.represents hnext
  obtain ⟨priority, _, hmem⟩ := exists_of_firstOf hnext
  obtain ⟨hindex, hready⟩ := h.ready hmem
  have halloc : Allocated s next := allocated_of_state hready (by decide)
  have hkeeps := keeps_activatedState now queues halloc
  refine ⟨queues, ?_, ⟨⟨hrep, htidy h.partition.tidy, ?_⟩, h.named.congr hkeeps,
    rfl, hindex, ?_⟩⟩
  · rw [activateNext, getNextScheduledTask, hdequeue]
    rfl
  · intro queue index
    rw [h.partition.represents.mem_erase_iff, h.partition.mem_iff]
    by_cases hne : index = next
    · subst index
      rw [home_of_running ((hkeeps.allocated_iff next).mpr halloc)]
      simp
    · simp [home, activatedState_of_ne now queues hne, hne, Ne.symm hne]
  · rw [hkeeps.tid]
    exact h.named.tid_emod hindex halloc

theorem quiet_activatedState {s : State} {next : ℤ} (now : Word)
    (queues : QueueHeap TaskQueue ℤ) (hready : (s.task next).state = .ready) :
    Quiet s (activatedState s next now queues) := by
  have halloc : Allocated s next := allocated_of_state hready (by decide)
  apply Quiet.of_update next (activated (s.task next) now)
  all_goals first
    | rfl
    | exact keeps_activatedState now queues halloc
    | skip
  right
  rw [hready]
  exact ⟨by decide, by simp [activated, TaskState.Exchanging]⟩

theorem InKernel.idle {s : State} {c : ℤ} {lists : Lists TaskQueue ℤ}
    (h : InKernel s c lists) :
    Idle (s.withTasks (preempted s c) (requeuedLinks s c))
      (requeued s c lists) where
  partition := h.partition_requeued
  named := h.named.congr (keeps_preempted rfl)

/-- After the current task is requeued no task is `ACTIVE`. -/
theorem Sole.preempted {s : State} {c : ℤ} (hsole : Sole s c) {index : ℤ}
    (hindex : InTable index) : (preempted s c index).state ≠ .active := by
  intro hactive
  by_cases hne : index = c
  · subst index
    rw [preempted_self] at hactive
    by_cases hwas : (s.task c).state = .active
    · simp [hwas] at hactive
    · simp [hwas] at hactive
  · rw [preempted_of_ne hne] at hactive
    exact hne (hsole hindex hactive)

theorem quiet_requeued (s : State) (c : ℤ) :
    Quiet s (s.withTasks (preempted s c) (requeuedLinks s c)) := by
  by_cases hactive : (s.task c).state = .active
  · apply Quiet.of_update c { s.task c with state := .ready }
    · rw [State.withTasks_task, preempted, if_pos hactive]
    all_goals first
      | rfl
      | exact keeps_preempted rfl
      | skip
    right
    rw [hactive]
    exact ⟨by decide, by simp [TaskState.Exchanging]⟩
  · apply Quiet.of_eq
    · rw [State.withTasks_task, preempted, if_neg hactive]
    all_goals first
      | rfl
      | exact ⟨[], by simp⟩

/-- What `ScheduleAndActivate` does after a handler of task `c`: the first task
of the ready queues runs next. -/
theorem InKernel.dispatch {s s' : State} {c : ℤ}
    {lists : Lists TaskQueue ℤ} (h : InKernel s c lists) {now : Word}
    (hstep : scheduleAndActivate s now = some s') :
    ∃ next queues,
      firstOf (requeued s c lists) .ready Priority.all = some next ∧
      s' = activatedState (s.withTasks (preempted s c) (requeuedLinks s c)) next
        now queues ∧
      InKernel s' next ((requeued s c lists).erase next) ∧ Quiet s s' := by
  rw [scheduleAndActivate, scheduleCurrent_eq h.current] at hstep
  cases hnext : firstOf (requeued s c lists) .ready Priority.all with
  | none =>
      rw [activateNext, getNextScheduledTask,
        dequeuePriorityTaskQueue_none h.idle.partition.represents hnext] at hstep
      simp at hstep
  | some next =>
      obtain ⟨queues, heq, hkernel⟩ := h.idle.exists_activateNext now hnext
      obtain ⟨_, _, hmem⟩ := exists_of_firstOf hnext
      rw [heq, Option.some.injEq] at hstep
      subst s'
      refine ⟨next, queues, rfl, rfl, hkernel, (quiet_requeued s c).trans ?_⟩
      exact quiet_activatedState now queues (h.idle.ready hmem).2

/-- The next task is the only `ACTIVE` one. -/
theorem InKernel.dispatched {s s' : State} {c : ℤ}
    {lists : Lists TaskQueue ℤ} (h : InKernel s c lists) (hsole : Sole s c)
    {now : Word} (hstep : scheduleAndActivate s now = some s') :
    ∃ next queues,
      firstOf (requeued s c lists) .ready Priority.all = some next ∧
      s' = activatedState (s.withTasks (preempted s c) (requeuedLinks s c)) next
        now queues ∧
      Dispatched s' next ((requeued s c lists).erase next) ∧ Quiet s s' := by
  obtain ⟨next, queues, hfirst, rfl, hkernel, hquiet⟩ := h.dispatch hstep
  refine ⟨next, queues, hfirst, rfl, ⟨hkernel, ?_, ?_⟩, hquiet⟩
  · rw [activatedState_self]
    rfl
  · intro index hindex hactive
    by_cases hne : index = next
    · exact hne
    · rw [activatedState_of_ne now queues hne] at hactive
      exact absurd hactive (hsole.preempted hindex)

/-- `ScheduleAndActivate` finds a task as long as some task is ready. -/
theorem InKernel.exists_dispatch {s : State} {c : ℤ}
    {lists : Lists TaskQueue ℤ} (h : InKernel s c lists) (now : Word)
    {priority : Priority} {index : ℤ}
    (hready : index ∈ requeued s c lists (.states .ready priority)) :
    ∃ s', scheduleAndActivate s now = some s' := by
  rw [scheduleAndActivate, scheduleCurrent_eq h.current]
  cases hnext : firstOf (requeued s c lists) .ready Priority.all with
  | none =>
      have hempty := firstOf_eq_none_iff.mp hnext priority
        (by cases priority <;> decide)
      rw [hempty] at hready
      simp at hready
  | some next =>
      obtain ⟨queues, heq, _⟩ := h.idle.exists_activateNext now hnext
      exact ⟨_, heq⟩

/-- The task can run: it is ready, or it is the running task and will be. -/
def Runnable (s : State) (c index : ℤ) : Prop :=
  (s.task index).state = .ready ∨ index = c ∧ (s.task index).state = .active

theorem Runnable.preempted {s : State} {c index : ℤ} (h : Runnable s c index) :
    (preempted s c index).state = .ready := by
  by_cases hindex : index = c
  · subst index
    rw [preempted_self]
    rcases h with hready | ⟨_, hactive⟩
    · simp [hready]
    · simp [hactive]
  · rw [preempted_of_ne hindex]
    exact h.resolve_right fun hrunning => hindex hrunning.1

/-- A task that can run waits in a ready queue when the next task is chosen. -/
theorem InKernel.exists_dispatch_of_runnable {s : State} {c index : ℤ}
    {lists : Lists TaskQueue ℤ} (h : InKernel s c lists) (hindex : InTable index)
    (hrunnable : Runnable s c index) (now : Word) :
    ∃ s', scheduleAndActivate s now = some s' := by
  have hready := hrunnable.preempted
  have hmem : index ∈ requeued s c lists
      (.states .ready (Kernel.preempted s c index).priority) := by
    rw [h.partition_requeued.mem_iff]
    refine ⟨hindex, ?_⟩
    rw [home_eq_states_iff, Allocated, State.withTasks_task]
    refine ⟨?_, by simp, hready, rfl⟩
    rw [hready]
    decide
  exact h.exists_dispatch now hmem

end Rtk.Kernel
