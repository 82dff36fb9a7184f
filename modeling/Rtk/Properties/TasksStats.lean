import Mathlib.Data.Int.Interval
import Rtk.Invariant.Containers
import Rtk.Invariant.Run

/-!
# The statistics of all tasks

`TasksStatsHandler` links the current task into a queue, walks the queues of the scheduler
and takes the task out again.  The queues hold every descriptor in use once, so each has
one entry, and in the end every link is what it was.
-/

namespace Rtk.Kernel

open Rtk.ByteMemory
open Rtk.Lib
open Rtk.Transition

/-- The statistics have one entry for each descriptor in use. -/
structure Complete (s : State) (stats : TasksStats) : Prop where
  tasks : ∃ indices : List ℤ, indices.Nodup ∧
    (∀ index, index ∈ indices ↔
      InTable index ∧ (s.task index).state ≠ .free ∧ (s.task index).state ≠ .destroyed) ∧
    stats.tasks = indices.map fun index => statsOf (s.task index)
  nodup : (stats.tasks.map TaskStats.tid).Nodup
  current : ∃ index, s.currentTask = some index ∧ statsOf (s.task index) ∈ stats.tasks
  bounded : (stats.tasks.length : ℤ) ≤ maxTasks
  numTasks : stats.numTasks = stats.tasks.length
  numAliveTasks : stats.numAliveTasks = s.numTasks

/-- From `s` to `s'` the kernel fills the caller's record, and changes nothing else. -/
structure Fills (s : State) (container : ℕ) (stats : TasksStats) (s' : State) : Prop where
  holds : HoldsTasksStats s'.memory container stats
  memory : ∀ address, ¬InRange container tasksStatsSizeBytes address →
    s'.memory address = s.memory address
  eq : s' = { s with memory := s'.memory }.emit (.tasksStats container stats)

/-- `TasksStatsHandler` ends, wherever the record of the caller is.  It fills the record
with complete statistics, and changes nothing else. -/
def ReportsTasks (s : State) : Prop :=
  ∃ stats, Complete s stats ∧ ∀ container,
    (∃ fuel s', tasksStatsHandler s fuel container = some s') ∧
    ∀ fuel s', tasksStatsHandler s fuel container = some s' → Fills s container stats s'

section Stats

variable {s : State} {c : ℤ} {lists : Lists TaskQueue ℤ}

/-- The queues are the ones of the scheduler. -/
theorem mem_visited {state : TaskState} {priority : Priority} :
    .states state priority ∈ TaskQueue.visited ↔ 0 ≤ state.value := by
  cases state <;> cases priority <;> decide

theorem nodup_visited : TaskQueue.visited.Nodup := by
  decide

/-- The descriptors in the order in which `TasksStatsHandler` visits them. -/
def visitedTasks (s : State) (c : ℤ) (lists : Lists TaskQueue ℤ) : List ℤ :=
  TaskQueue.visited.flatMap (lists.append (.states .active (s.task c).priority) c)

theorem Dispatched.nodup_visitedTasks (h : Dispatched s c lists) :
    (visitedTasks s c lists).Nodup := by
  have hrep := h.represents_countedLinks
  apply List.nodup_flatMap.mpr
  refine ⟨fun queue _ => hrep.nodup queue, ?_⟩
  apply nodup_visited.imp
  intro queue other hne index hmem hother
  exact hne (hrep.disjoint hmem hother)

theorem Dispatched.mem_visitedTasks_iff (h : Dispatched s c lists) {index : ℤ} :
    index ∈ visitedTasks s c lists ↔ InTable index ∧ Allocated s index := by
  rw [visitedTasks, List.mem_flatMap]
  constructor
  · rintro ⟨queue, hqueue, hmem⟩
    rcases Lists.mem_append_iff.mp hmem with hmem | ⟨_, rfl⟩
    · cases queue with
      | available => exact absurd hqueue (by decide)
      | states state priority =>
          obtain ⟨hindex, halloc, _⟩ := h.of_mem_states hmem
          exact ⟨hindex, halloc⟩
    · exact ⟨h.inTable, h.allocated⟩
  · rintro ⟨hindex, halloc⟩
    refine ⟨.states (s.task index).state (s.task index).priority, mem_visited.mpr halloc, ?_⟩
    rw [Lists.mem_append_iff]
    by_cases hcurrent : index = c
    · subst hcurrent
      rw [h.running]
      exact .inr ⟨rfl, rfl⟩
    · left
      rw [h.partition.mem_iff, home_of_not_running halloc]
      · exact ⟨hindex, rfl⟩
      · rw [ne_eq, Option.some.injEq]
        exact Ne.symm hcurrent

/-- Descriptors that are all different are at most as many as the table has. -/
theorem length_le_of_inTable {indices : List ℤ} (hnodup : indices.Nodup)
    (htable : ∀ index ∈ indices, InTable index) : (indices.length : ℤ) ≤ maxTasks := by
  have hsubset : indices.toFinset ⊆ Finset.Ico 0 maxTasks := by
    intro index hmem
    exact Finset.mem_Ico.mpr (htable index (List.mem_toFinset.mp hmem))
  have hcard : indices.length ≤ maxTasks.toNat := by
    calc
      indices.length = indices.toFinset.card := (List.toFinset_card_of_nodup hnodup).symm
      _ ≤ (Finset.Ico 0 maxTasks).card := Finset.card_le_card hsubset
      _ = maxTasks.toNat := by rw [Int.card_Ico, Int.sub_zero]
  have hmax : (maxTasks.toNat : ℤ) = maxTasks := rfl
  omega

theorem Dispatched.complete (h : Dispatched s c lists) :
    Complete s ⟨(visitedTasks s c lists).length, s.numTasks,
      (visitedTasks s c lists).map fun index => statsOf (s.task index)⟩ where
  tasks := by
    refine ⟨visitedTasks s c lists, h.nodup_visitedTasks, ?_, rfl⟩
    intro index
    rw [h.mem_visitedTasks_iff, allocated_iff]
  nodup := by
    rw [List.map_map]
    apply h.nodup_visitedTasks.map_on
    intro index hindex other hother htid
    obtain ⟨htable, halloc⟩ := h.mem_visitedTasks_iff.mp hindex
    obtain ⟨htable', halloc'⟩ := h.mem_visitedTasks_iff.mp hother
    have hsame : (s.task index).tid = (s.task other).tid := htid
    rw [← h.named.tid_emod htable halloc, hsame, h.named.tid_emod htable' halloc']
  current := by
    refine ⟨c, h.current, List.mem_map_of_mem ?_⟩
    exact h.mem_visitedTasks_iff.mpr ⟨h.inTable, h.allocated⟩
  bounded := by
    rw [List.length_map]
    exact length_le_of_inTable h.nodup_visitedTasks fun index hmem =>
      (h.mem_visitedTasks_iff.mp hmem).1
  numTasks := (List.length_map _).symm
  numAliveTasks := rfl

/-- A record with at most as many entries as the table has descriptors is filled within
its bounds. -/
theorem fills_storeTasksStats {stats : TasksStats}
    (hbounded : (stats.tasks.length : ℤ) ≤ maxTasks) (container : ℕ) :
    Fills s container stats (s.storeTasksStats container stats) where
  holds := holdsTasksStats_storeTasksStats s.memory container stats
  memory address haddress := by
    apply storeTasksStats_of_not_inRange
    simp only [InRange, tasksStatsSizeBytes, taskStatsSizeBytes, maxTasks] at *
    omega
  eq := rfl

/-- Once the current task is taken out again every link is what it was. -/
theorem Dispatched.restoredLinks_eq (h : Dispatched s c lists) :
    restoredLinks s c = s.taskQueues :=
  h.restored.1.heap_eq h.restored.2 h.partition.represents h.partition.tidy

/-- In the end the record is filled, and nothing else is changed. -/
theorem Dispatched.exists_storeTasksStats (h : Dispatched s c lists) :
    ∃ stats, Complete s stats ∧ ∀ {fuel container : ℕ} {s' : State},
      tasksStatsHandler s fuel container = some s' → s' = s.storeTasksStats container stats := by
  have hrep : Represents { s with taskQueues := countedLinks s c }.taskQueues
      (lists.append (.states .active (s.task c).priority) c) := h.represents_countedLinks
  refine ⟨_, h.complete, ?_⟩
  intro fuel container s' hstats
  rw [h.tasksStatsHandler_eq, Option.map_eq_some_iff] at hstats
  obtain ⟨tasks, hwalked, rfl⟩ := hstats
  obtain rfl := statsOfQueues_of_some hrep hwalked
  rw [h.restoredLinks_eq, List.length_map]
  rfl

theorem Dispatched.reportsTasks (h : Dispatched s c lists) : ReportsTasks s := by
  obtain ⟨stats, hcomplete, heq⟩ := h.exists_storeTasksStats
  refine ⟨stats, hcomplete, fun container => ⟨h.exists_tasksStatsHandler container, ?_⟩⟩
  intro fuel s' hstats
  rw [heq hstats]
  exact fills_storeTasksStats hcomplete.bounded container

end Stats

/-- Without `Destroy`, `TasksStatsHandler` fills the caller's record with one entry for each
descriptor in use, within its array, and leaves the descriptors, the queues and the memory
around the record as they were.  The calling task may have changed its memory before. -/
theorem reportsTasks_of_reachable {s : State} (hreachable : Reachable kernel NoDestroy s)
    (trap : Trap) : ReportsTasks (entered s trap) := by
  obtain ⟨l, hundestroyed⟩ := undestroyed_of_reachable hreachable
  exact (hundestroyed.toCoherent.enter trap).dispatched.reportsTasks

/-- The theorem at a state with a task that waits for an interrupt. -/
theorem reportsTasks_sample :
    ∃ s, sampleRun [.call (.create 3 0x9000) (sampleTrap 0x103f00),
        .call (.awaitEvent 0x1000) (sampleTrap 0x105f00)] = some s ∧
      ReportsTasks (entered s (sampleTrap 0x103f00)) := by
  have hsome : (sampleRun [.call (.create 3 0x9000) (sampleTrap 0x103f00),
      .call (.awaitEvent 0x1000) (sampleTrap 0x105f00)]).isSome := by decide +kernel
  obtain ⟨s, hrun⟩ := Option.isSome_iff_exists.mp hsome
  have hreachable : Reachable kernel NoDestroy s := by
    apply reachable_of_rounds hrun
    simp [NoDestroy]
  exact ⟨s, hrun, reportsTasks_of_reachable hreachable _⟩

end Rtk.Kernel
