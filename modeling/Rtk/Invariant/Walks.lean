import Rtk.Invariant.Handlers

/-!
# Loops over linked queues

`UnblockTaskWaitingOnEvent` and `TasksStatsHandler` follow the `next` links of
scheduler queues.  Over queues that represent lists the loops end and compute
the corresponding list functions; the bound on their steps is then immaterial.
-/

namespace Rtk.Kernel

open Function
open Rtk.ByteMemory
open Rtk.DoublyLinked
open Rtk.Lib

/-- Enough steps to walk each of the given queues. -/
theorem exists_fuel (lists : Lists TaskQueue ℤ) (queues : List TaskQueue) :
    ∃ fuel, ∀ queue ∈ queues, (lists queue).length ≤ fuel := by
  induction queues with
  | nil => exact ⟨0, by simp⟩
  | cons queue queues ih =>
      obtain ⟨fuel, hfuel⟩ := ih
      refine ⟨max (lists queue).length fuel, ?_⟩
      intro other hother
      rcases List.mem_cons.mp hother with rfl | hother
      · exact Nat.le_max_left _ _
      · exact Nat.le_trans (hfuel other hother) (Nat.le_max_right _ _)

def waitsFor (s : State) (intr : Word) (index : ℤ) : Bool :=
  (s.task index).awaitingEventId = intr

/-! ## `UnblockTaskWaitingOnEvent` -/

theorem findWaiting_mono {s : State} {intr : Word} {fuel fuel' : ℕ}
    {head result : Option ℤ} (hfind : findWaiting s intr fuel head = some result)
    (hfuel : fuel ≤ fuel') : findWaiting s intr fuel' head = some result := by
  induction fuel generalizing head fuel' with
  | zero =>
      cases head with
      | none =>
          rw [findWaiting] at hfind ⊢
          exact hfind
      | some head => simp [findWaiting] at hfind
  | succ fuel ih =>
      cases fuel' with
      | zero => omega
      | succ fuel' =>
          cases head with
          | none =>
              rw [findWaiting] at hfind ⊢
              exact hfind
          | some head =>
              rw [findWaiting] at hfind ⊢
              split_ifs at hfind ⊢
              · exact hfind
              · exact ih hfind (by omega)

/-- The inner loop searches the list that the queue represents. -/
theorem findWaiting_eq {s : State} {before : Option ℤ} {nodes : List ℤ}
    (hchain : Chained (fun node => (s.taskQueues.node node).next)
      (fun node => (s.taskQueues.node node).prev) before nodes)
    (intr : Word) {fuel : ℕ} (hfuel : nodes.length ≤ fuel) :
    findWaiting s intr fuel nodes.head? =
      some (nodes.find? (waitsFor s intr)) := by
  induction nodes generalizing before fuel with
  | nil => simp [findWaiting]
  | cons node nodes ih =>
      obtain ⟨hhead, _, hrest⟩ := hchain
      have hnext : (s.taskQueues.node node).next = nodes.head? := hhead
      cases fuel with
      | zero => simp at hfuel
      | succ fuel =>
          rw [List.length_cons, Nat.succ_le_succ_iff] at hfuel
          rw [List.head?_cons, findWaiting, hnext, ih hrest hfuel,
            List.find?_cons]
          by_cases hwaits : (s.task node).awaitingEventId = intr
          · simp [waitsFor, hwaits]
          · simp [waitsFor, hwaits]

theorem findWaiting_of_some {s : State} {before : Option ℤ} {nodes : List ℤ}
    (hchain : Chained (fun node => (s.taskQueues.node node).next)
      (fun node => (s.taskQueues.node node).prev) before nodes)
    {intr : Word} {fuel : ℕ} {result : Option ℤ}
    (hfind : findWaiting s intr fuel nodes.head? = some result) :
    result = nodes.find? (waitsFor s intr) := by
  have hmore := findWaiting_mono hfind (Nat.le_max_left fuel nodes.length)
  rw [findWaiting_eq hchain intr (Nat.le_max_right fuel nodes.length)] at hmore
  exact (Option.some.inj hmore).symm

/-- The task that `UnblockTaskWaitingOnEvent` finds: the first one waiting for
the interrupt, most urgent priority first. -/
def firstWaiting (s : State) (lists : Lists TaskQueue ℤ) (intr : Word) :
    List Priority → Option ℤ
  | [] => none
  | priority :: priorities =>
      ((lists (.states .eventBlocked priority)).find? (waitsFor s intr)).or
        (firstWaiting s lists intr priorities)

theorem exists_of_firstWaiting {s : State} {lists : Lists TaskQueue ℤ}
    {intr : Word} {priorities : List Priority} {index : ℤ}
    (hfirst : firstWaiting s lists intr priorities = some index) :
    ∃ priority ∈ priorities, index ∈ lists (.states .eventBlocked priority) := by
  induction priorities with
  | nil => simp [firstWaiting] at hfirst
  | cons priority priorities ih =>
      rw [firstWaiting, Option.or_eq_some_iff] at hfirst
      rcases hfirst with hfound | ⟨_, hrest⟩
      · exact ⟨priority, by simp, List.mem_of_find?_eq_some hfound⟩
      · obtain ⟨other, hother, hmem⟩ := ih hrest
        exact ⟨other, by simp [hother], hmem⟩

theorem firstWaiting_waits {s : State} {lists : Lists TaskQueue ℤ} {intr : Word}
    {priorities : List Priority} {index : ℤ}
    (hfirst : firstWaiting s lists intr priorities = some index) :
    (s.task index).awaitingEventId = intr := by
  induction priorities with
  | nil => simp [firstWaiting] at hfirst
  | cons priority priorities ih =>
      rw [firstWaiting, Option.or_eq_some_iff] at hfirst
      rcases hfirst with hfound | ⟨_, hrest⟩
      · have hwaits := List.find?_some hfound
        rwa [waitsFor, decide_eq_true_iff] at hwaits
      · exact ih hrest

/-- A task that waits for the interrupt is found. -/
theorem exists_firstWaiting {s : State} {lists : Lists TaskQueue ℤ} {intr : Word} {index : ℤ}
    {priority : Priority} {priorities : List Priority} (hpriority : priority ∈ priorities)
    (hmem : index ∈ lists (.states .eventBlocked priority))
    (hwaits : (s.task index).awaitingEventId = intr) :
    ∃ head, firstWaiting s lists intr priorities = some head := by
  induction priorities with
  | nil => simp at hpriority
  | cons first priorities ih =>
      rw [firstWaiting]
      cases hfind : (lists (.states .eventBlocked first)).find? (waitsFor s intr) with
      | some head => exact ⟨head, rfl⟩
      | none =>
          rw [Option.none_or]
          apply ih
          apply (List.mem_cons.mp hpriority).resolve_left
          rintro rfl
          exact List.find?_eq_none.mp hfind index hmem (decide_eq_true hwaits)

theorem firstWaiting_congr {s s' : State} (htask : s'.task = s.task)
    (lists : Lists TaskQueue ℤ) (intr : Word) (priorities : List Priority) :
    firstWaiting s' lists intr priorities = firstWaiting s lists intr priorities := by
  have hwaits : waitsFor s' intr = waitsFor s intr := by
    funext index
    rw [waitsFor, waitsFor, htask]
  induction priorities with
  | nil => rfl
  | cons priority priorities ih => rw [firstWaiting, hwaits, ih, firstWaiting]

/-- The descriptors once the task that was found is `READY`. -/
def awakened (task : ℤ → Task) : Option ℤ → ℤ → Task
  | none => task
  | some head => update task head { task head with state := .ready }

/-- The effect of `UnblockTaskWaitingOnEvent` on the task it finds. -/
def unblocked (s : State) : Option ℤ → State
  | none => s
  | some head =>
      setTaskReturnValue (setTaskState s (s.task head).tid .ready)
        (s.task head).tid errCollectDataAndReenableInterrupts

section Unblock

variable {s : State} {lists : Lists TaskQueue ℤ}

theorem unblockTaskWaitingOnEventFrom_eq (hrep : Represents s.taskQueues lists)
    (intr : Word) {fuel : ℕ} {priorities : List Priority}
    (hfuel : ∀ priority ∈ priorities,
      (lists (.states .eventBlocked priority)).length ≤ fuel) :
    unblockTaskWaitingOnEventFrom s fuel intr priorities =
      some (unblocked s (firstWaiting s lists intr priorities)) := by
  induction priorities with
  | nil => rfl
  | cons priority priorities ih =>
      have hcontents := hrep.contents (.states .eventBlocked priority)
      rw [unblockTaskWaitingOnEventFrom, hcontents.first,
        findWaiting_eq hcontents.chained intr (hfuel priority (by simp)),
        firstWaiting]
      cases (lists (.states .eventBlocked priority)).find? (waitsFor s intr) with
      | none =>
          rw [Option.none_or]
          exact ih fun other hother => hfuel other (by simp [hother])
      | some head => rfl

theorem unblockTaskWaitingOnEventFrom_of_some
    (hrep : Represents s.taskQueues lists) {intr : Word} {fuel : ℕ}
    {priorities : List Priority} {s' : State}
    (hunblock : unblockTaskWaitingOnEventFrom s fuel intr priorities = some s') :
    s' = unblocked s (firstWaiting s lists intr priorities) := by
  induction priorities with
  | nil =>
      rw [unblockTaskWaitingOnEventFrom, Option.some.injEq] at hunblock
      exact hunblock.symm
  | cons priority priorities ih =>
      have hcontents := hrep.contents (.states .eventBlocked priority)
      rw [unblockTaskWaitingOnEventFrom, hcontents.first] at hunblock
      cases hfind : findWaiting s intr fuel
          (lists (.states .eventBlocked priority)).head? with
      | none => simp [hfind] at hunblock
      | some result =>
          rw [firstWaiting, ← findWaiting_of_some hcontents.chained hfind]
          cases result with
          | none =>
              rw [Option.none_or]
              apply ih
              simpa [hfind] using hunblock
          | some head =>
              rw [hfind, Option.some.injEq] at hunblock
              exact hunblock.symm

/-- The loops of `UnblockTaskWaitingOnEvent` end. -/
theorem exists_unblockTaskWaitingOnEvent (hrep : Represents s.taskQueues lists)
    (intr : Word) :
    ∃ fuel s', unblockTaskWaitingOnEvent s fuel intr = some s' := by
  obtain ⟨fuel, hfuel⟩ := exists_fuel lists
    (Priority.all.map fun priority => .states .eventBlocked priority)
  refine ⟨fuel, _, unblockTaskWaitingOnEventFrom_eq hrep intr ?_⟩
  intro priority hpriority
  exact hfuel _ (List.mem_map_of_mem hpriority)

end Unblock

section Interrupt

variable {s : State} {c : ℤ} {lists : Lists TaskQueue ℤ}

/-- A task in the queue of a blocked state is not the running one and has that
state. -/
theorem InKernel.of_mem_states (h : InKernel s c lists) {state : TaskState}
    {priority : Priority} {index : ℤ}
    (hmem : index ∈ lists (.states state priority)) :
    InTable index ∧ Allocated s index ∧ index ≠ c ∧
      (s.task index).state = state ∧ (s.task index).priority = priority := by
  obtain ⟨hindex, hhome⟩ := h.partition.mem_iff.mp hmem
  obtain ⟨halloc, hrunning, hstate, hpriority⟩ := home_eq_states_iff.mp hhome
  refine ⟨hindex, halloc, ?_, hstate, hpriority⟩
  rintro rfl
  exact hrunning rfl

theorem InKernel.handled_unblocked (h : InKernel s c lists) (intr : Word)
    (priorities : List Priority) :
    HandledQuietly s c (unblocked s (firstWaiting s lists intr priorities)) := by
  cases hfirst : firstWaiting s lists intr priorities with
  | none => exact .refl h
  | some head =>
      obtain ⟨_, _, hmem⟩ := exists_of_firstWaiting hfirst
      obtain ⟨hindex, halloc, _, hstate, _⟩ := h.of_mem_states hmem
      have hslot := h.named.slot_tid hindex halloc
      have hready : HandledQuietly s c (setTaskState s (s.task head).tid .ready) := by
        apply h.handled_setTaskState
        · rw [hslot]
          exact hindex
        · intro _
          rw [hslot]
          exact halloc
        · decide
        · decide
        · intro _
          rw [hslot, hstate]
          exact .inr ⟨by decide, by decide⟩
        · intro _ _
          rw [hslot, hstate]
          decide
      apply hready.bind
      intro lists' hkernel
      exact hkernel.handled_of_silent (.setTaskReturnValue _ _ _)

theorem InKernel.handled_unblockTaskWaitingOnEvent (h : InKernel s c lists)
    {intr : Word} {fuel : ℕ} {s' : State}
    (hunblock : unblockTaskWaitingOnEvent s fuel intr = some s') :
    HandledQuietly s c s' := by
  rw [unblockTaskWaitingOnEventFrom_of_some h.partition.represents hunblock]
  exact h.handled_unblocked intr _

/-- The controller is told of the interrupt before a task is woken. -/
theorem silent_acknowledge (s : State) (intr : Word) (wentOff : Bool) :
    Silent s
      (if isTimerInterrupt intr then
        if wentOff then s.emit .clearedTimerInterrupt else s
      else disableInterrupt s intr) := by
  split_ifs
  · exact .emit s (by simp [Event.IsMessage])
  · exact .refl s
  · exact .of_log_eq rfl rfl rfl rfl rfl rfl rfl

theorem InKernel.handled_handleIrq (h : InKernel s c lists) {fuel : ℕ}
    {intrCode : ℤ} {timer : TimerReadings} {time : Word} {s' : State}
    (hirq : handleIrq s fuel intrCode timer = some (time, s')) :
    HandledQuietly s c s' := by
  by_cases hneg : intrCode < 0
  · simp only [handleIrq, if_pos hneg, Option.map_eq_some_iff,
      Prod.mk.injEq] at hirq
    obtain ⟨woken, hunblock, _, rfl⟩ := hirq
    apply (h.handled_of_silent (silent_acknowledge s _ timer.wentOffAtClear)).bind
    intro lists' hkernel
    exact hkernel.handled_unblockTaskWaitingOnEvent hunblock
  · simp only [handleIrq, if_neg hneg, Option.some.injEq, Prod.mk.injEq] at hirq
    rw [← hirq.2]
    exact .refl h

/-- Only the task that is found becomes `READY`. -/
theorem InKernel.task_unblocked (h : InKernel s c lists) (intr : Word)
    (priorities : List Priority) :
    (unblocked s (firstWaiting s lists intr priorities)).task =
      awakened s.task (firstWaiting s lists intr priorities) := by
  cases hfirst : firstWaiting s lists intr priorities with
  | none => rfl
  | some head =>
      obtain ⟨_, _, hmem⟩ := exists_of_firstWaiting hfirst
      obtain ⟨hindex, halloc, _⟩ := h.of_mem_states hmem
      have hslot := h.named.slot_tid hindex halloc
      have hinTable : InTable (slot (s.task head).tid) := by
        rw [hslot]
        exact hindex
      have hlive : NotDestroyed s (s.task head).tid := by
        intro _
        rw [hslot]
        exact halloc
      obtain ⟨queues, heq, _⟩ := h.exists_setTaskState hinTable hlive
        (by decide : 0 ≤ TaskState.ready.value)
      rw [unblocked, heq, (Silent.setTaskReturnValue _ _ _).task, State.withTasks_task,
        withState, hslot, if_pos rfl, awakened]

/-- An interrupt wakes the first task that waits for it. -/
theorem InKernel.task_handleIrq_eq (h : InKernel s c lists) {fuel : ℕ}
    {intrCode : ℤ} {timer : TimerReadings} {time : Word} {s' : State}
    (hirq : handleIrq s fuel intrCode timer = some (time, s')) :
    s'.task = if intrCode < 0 then
      awakened s.task (firstWaiting s lists ((1 : Word) <<< (-intrCode).toNat) Priority.all)
    else s.task := by
  split_ifs with hneg
  · simp only [handleIrq, if_pos hneg, Option.map_eq_some_iff,
      Prod.mk.injEq] at hirq
    obtain ⟨woken, hunblock, _, rfl⟩ := hirq
    have hsilent := silent_acknowledge s ((1 : Word) <<< (-intrCode).toNat)
      timer.wentOffAtClear
    have hkernel := h.silent hsilent
    rw [unblockTaskWaitingOnEventFrom_of_some hkernel.partition.represents hunblock,
      hkernel.task_unblocked, firstWaiting_congr hsilent.task, hsilent.task]
  · simp only [handleIrq, if_neg hneg, Option.some.injEq, Prod.mk.injEq] at hirq
    rw [← hirq.2]

/-- Waking a task leaves the running one as it is. -/
theorem InKernel.task_handleIrq (h : InKernel s c lists) {fuel : ℕ}
    {intrCode : ℤ} {timer : TimerReadings} {time : Word} {s' : State}
    (hirq : handleIrq s fuel intrCode timer = some (time, s')) :
    s'.task c = s.task c := by
  rw [h.task_handleIrq_eq hirq]
  split_ifs
  · cases hfirst : firstWaiting s lists ((1 : Word) <<< (-intrCode).toNat) Priority.all with
    | none => rfl
    | some head =>
        obtain ⟨_, _, hmem⟩ := exists_of_firstWaiting hfirst
        exact update_of_ne (Ne.symm (h.of_mem_states hmem).2.2.1) _ _
  · rfl

/-- `HandleIrq` ends. -/
theorem InKernel.exists_handleIrq (h : InKernel s c lists) (intrCode : ℤ)
    (timer : TimerReadings) :
    ∃ fuel result, handleIrq s fuel intrCode timer = some result := by
  by_cases hneg : intrCode < 0
  · have hkernel := h.silent (silent_acknowledge s ((1 : Word) <<< (-intrCode).toNat)
      timer.wentOffAtClear)
    obtain ⟨fuel, s', hunblock⟩ := exists_unblockTaskWaitingOnEvent
      hkernel.partition.represents ((1 : Word) <<< (-intrCode).toNat)
    refine ⟨fuel, (if timer.wentOffAtIrq then 0 else timer.entry, s'), ?_⟩
    simp only [handleIrq, if_pos hneg, hunblock, Option.map_some]
  · refine ⟨0, (if timer.wentOffAtIrq then 0 else timer.entry, s), ?_⟩
    simp only [handleIrq, if_neg hneg]

end Interrupt

/-! ## `TasksStatsHandler` -/

theorem statsFrom_eq {s : State} {before : Option ℤ} {nodes : List ℤ}
    (hchain : Chained (fun node => (s.taskQueues.node node).next)
      (fun node => (s.taskQueues.node node).prev) before nodes)
    {fuel : ℕ} (hfuel : nodes.length ≤ fuel) :
    statsFrom s fuel nodes.head? =
      some (nodes.map fun index => statsOf (s.task index)) := by
  induction nodes generalizing before fuel with
  | nil => simp [statsFrom]
  | cons node nodes ih =>
      obtain ⟨hhead, _, hrest⟩ := hchain
      have hnext : (s.taskQueues.node node).next = nodes.head? := hhead
      cases fuel with
      | zero => simp at hfuel
      | succ fuel =>
          rw [List.length_cons, Nat.succ_le_succ_iff] at hfuel
          rw [List.head?_cons, statsFrom, hnext, ih hrest hfuel, Option.map_some,
            List.map_cons]

theorem statsFrom_of_some {s : State} {before : Option ℤ} {nodes : List ℤ}
    (hchain : Chained (fun node => (s.taskQueues.node node).next)
      (fun node => (s.taskQueues.node node).prev) before nodes)
    {fuel : ℕ} {tasks : List TaskStats} (hstats : statsFrom s fuel nodes.head? = some tasks) :
    tasks = nodes.map fun index => statsOf (s.task index) := by
  induction nodes generalizing before fuel tasks with
  | nil =>
      rw [List.head?_nil, statsFrom, Option.some.injEq] at hstats
      exact hstats.symm
  | cons node nodes ih =>
      obtain ⟨hhead, _, hrest⟩ := hchain
      have hnext : (s.taskQueues.node node).next = nodes.head? := hhead
      cases fuel with
      | zero => simp [statsFrom] at hstats
      | succ fuel =>
          rw [List.head?_cons, statsFrom, hnext, Option.map_eq_some_iff] at hstats
          obtain ⟨rest, hstats, rfl⟩ := hstats
          rw [ih hrest hstats, List.map_cons]

theorem statsOfQueues_eq {s : State} {lists : Lists TaskQueue ℤ}
    (hrep : Represents s.taskQueues lists) {fuel : ℕ} {queues : List TaskQueue}
    (hfuel : ∀ queue ∈ queues, (lists queue).length ≤ fuel) :
    statsOfQueues s fuel queues =
      some ((queues.flatMap lists).map fun index => statsOf (s.task index)) := by
  induction queues with
  | nil => rfl
  | cons queue queues ih =>
      have hcontents := hrep.contents queue
      rw [statsOfQueues, hcontents.first,
        statsFrom_eq hcontents.chained (hfuel queue (by simp)),
        ih fun other hother => hfuel other (by simp [hother])]
      simp

theorem statsOfQueues_of_some {s : State} {lists : Lists TaskQueue ℤ}
    (hrep : Represents s.taskQueues lists) {fuel : ℕ} {queues : List TaskQueue}
    {tasks : List TaskStats} (hstats : statsOfQueues s fuel queues = some tasks) :
    tasks = (queues.flatMap lists).map fun index => statsOf (s.task index) := by
  induction queues generalizing tasks with
  | nil =>
      rw [statsOfQueues, Option.some.injEq] at hstats
      exact hstats.symm
  | cons queue queues ih =>
      have hcontents := hrep.contents queue
      rw [statsOfQueues, hcontents.first] at hstats
      simp only [Option.bind_eq_bind, Option.bind_eq_some_iff, Option.pure_def,
        Option.some.injEq] at hstats
      obtain ⟨first, hfirst, rest, hrest, rfl⟩ := hstats
      rw [statsFrom_of_some hcontents.chained hfirst, ih hrest, List.flatMap_cons,
        List.map_append]

section Stats

variable {s : State} {c : ℤ} {lists : Lists TaskQueue ℤ}

/-- The links of the scheduler while the statistics are taken: the current task
is in the queue of its state. -/
def countedLinks (s : State) (c : ℤ) : QueueHeap TaskQueue ℤ :=
  s.taskQueues.enqueueQueue (.states .active (s.task c).priority) c

/-- The links of the scheduler once they are. -/
def restoredLinks (s : State) (c : ℤ) : QueueHeap TaskQueue ℤ :=
  (countedLinks s c).removeQueueNode (.states .active (s.task c).priority) c

theorem Dispatched.represents_countedLinks (h : Dispatched s c lists) :
    Represents (countedLinks s c)
      (lists.append (.states .active (s.task c).priority) c) :=
  h.partition.represents.enqueueQueue
    (h.partition.free_of_home_none (home_of_running h.allocated))

theorem Dispatched.tidy_countedLinks (h : Dispatched s c lists) :
    Tidy (countedLinks s c)
      (lists.append (.states .active (s.task c).priority) c) :=
  h.partition.represents.tidy_enqueueQueue h.partition.tidy

/-- `TasksStatsHandler` puts the current task into the queue of its state and
takes it out again. -/
theorem Dispatched.tasksStatsHandler_eq (h : Dispatched s c lists) (fuel container : ℕ) :
    tasksStatsHandler s fuel container =
      (statsOfQueues { s with taskQueues := countedLinks s c } fuel
        TaskQueue.visited).map fun tasks =>
          { s with taskQueues := restoredLinks s c }.storeTasksStats container
            ⟨tasks.length, s.numTasks, tasks⟩ := by
  have henqueue : enqueueStatefulPriorityTaskQueue s s.current =
      { s with taskQueues := countedLinks s c } := by
    rw [h.current_eq, enqueueStatefulPriorityTaskQueue_eq h.allocated, h.running]
    rfl
  have hcurrent : State.current { s with taskQueues := countedLinks s c } = c :=
    h.current_eq
  have halloc : Allocated { s with taskQueues := countedLinks s c } c :=
    h.allocated
  rw [tasksStatsHandler, henqueue]
  simp only [hcurrent, removeStatefulPriorityTaskQueueNode_eq halloc, h.running]
  cases statsOfQueues { s with taskQueues := countedLinks s c } fuel
    TaskQueue.visited <;> rfl

theorem Dispatched.eq_of_tasksStatsHandler (h : Dispatched s c lists) {fuel container : ℕ}
    {s' : State} (hstats : tasksStatsHandler s fuel container = some s') :
    ∃ tasks : List TaskStats, { s with taskQueues := restoredLinks s c }.storeTasksStats
      container ⟨tasks.length, s.numTasks, tasks⟩ = s' := by
  rw [h.tasksStatsHandler_eq, Option.map_eq_some_iff] at hstats
  obtain ⟨tasks, _, hlast⟩ := hstats
  exact ⟨tasks, hlast⟩

/-- Putting the current task into a queue and taking it out restores the queues. -/
theorem Dispatched.restored (h : Dispatched s c lists) :
    Represents (restoredLinks s c) lists ∧ Tidy (restoredLinks s c) lists := by
  have hfresh := h.partition.free_of_home_none (home_of_running h.allocated)
  have hmem : ∀ other,
      c ∈ lists.append (.states .active (s.task c).priority) c other →
        other = .states .active (s.task c).priority := by
    intro other hother
    rw [Lists.mem_append_iff] at hother
    exact (hother.resolve_left (hfresh other)).1
  have hrep := h.represents_countedLinks.removeQueueNode h.tidy_countedLinks hmem
  have htidy :=
    h.represents_countedLinks.tidy_removeQueueNode h.tidy_countedLinks hmem
  rw [Lists.erase_append hfresh] at hrep htidy
  exact ⟨hrep, htidy⟩

theorem Dispatched.handled_tasksStatsHandler (h : Dispatched s c lists)
    {fuel container : ℕ} {s' : State}
    (hstats : tasksStatsHandler s fuel container = some s') : HandledQuietly s c s' := by
  obtain ⟨hrep, htidy⟩ := h.restored
  obtain ⟨tasks, rfl⟩ := h.eq_of_tasksStatsHandler hstats
  refine ⟨⟨lists, ⟨hrep, htidy, h.partition.mem_iff⟩, ?_, h.current, h.inTable,
    h.tid_emod⟩, ?_, fun _ _ _ => rfl, fun _ hactive => hactive⟩
  · exact h.named.congr (.of_task_eq rfl)
  · exact .of_eq rfl rfl rfl rfl ⟨[.tasksStats container ⟨tasks.length, s.numTasks, tasks⟩],
      rfl, by simp [Event.IsMessage]⟩

/-- The loops of `TasksStatsHandler` end. -/
theorem Dispatched.exists_tasksStatsHandler (h : Dispatched s c lists) (container : ℕ) :
    ∃ fuel s', tasksStatsHandler s fuel container = some s' := by
  obtain ⟨fuel, hfuel⟩ := exists_fuel
    (lists.append (.states .active (s.task c).priority) c) TaskQueue.visited
  have hstats := h.tasksStatsHandler_eq fuel container
  have hrep : Represents
      { s with taskQueues := countedLinks s c }.taskQueues _ :=
    h.represents_countedLinks
  rw [statsOfQueues_eq hrep hfuel, Option.map_some] at hstats
  exact ⟨fuel, _, hstats⟩

end Stats

end Rtk.Kernel
