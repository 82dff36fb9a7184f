import Rtk.Kernel.State

/-!
# The records of the statistics

`GetTaskStats` and `GetTasksStats` fill a record of the caller field by field.  The stores
go to the bytes of the record and nowhere else, and the record then holds what was stored.
-/

namespace Rtk.Kernel

open Function
open Rtk.ByteMemory

/-- The `struct TaskStats` at the address has these fields. -/
structure HoldsTaskStats (memory : Memory) (container : ℕ) (stats : TaskStats) : Prop where
  tid : loadWord memory container = BitVec.ofInt 32 stats.tid
  priority : memory (container + 4) = BitVec.ofInt 8 stats.priority.value
  state : loadWord memory (container + 8) = BitVec.ofInt 32 stats.state.value
  numActivates : loadWord memory (container + 12) = stats.numActivates
  allowedUserTime : loadWord memory (container + 16) = stats.allowedUserTime
  usedUserTime : loadWord memory (container + 20) = stats.usedUserTime

/-- The `struct TasksStats` at the address has these fields, and in `tasks` these
elements. -/
structure HoldsTasksStats (memory : Memory) (container : ℕ) (stats : TasksStats) :
    Prop where
  numTasks : loadWord memory container = BitVec.ofNat 32 stats.numTasks
  numAliveTasks : loadWord memory (container + 4) = BitVec.ofInt 32 stats.numAliveTasks
  tasks : ∀ (index : ℕ) (element : TaskStats), stats.tasks[index]? = some element →
    HoldsTaskStats memory (container + tasksOffset + taskStatsSizeBytes * index) element

section Containers

variable {memory memory' : Memory} {container address : ℕ}

theorem HoldsTaskStats.congr {stats : TaskStats} (h : HoldsTaskStats memory container stats)
    (hsame : ∀ target, InRange container taskStatsSizeBytes target →
      memory' target = memory target) : HoldsTaskStats memory' container stats := by
  have hword : ∀ offset, offset + 4 ≤ taskStatsSizeBytes →
      loadWord memory' (container + offset) = loadWord memory (container + offset) := by
    intro offset hoffset
    apply loadWord_congr
    intro target htarget
    apply hsame
    simp only [InRange] at *
    omega
  refine ⟨(hword 0 (by decide)).trans h.tid, ?_, (hword 8 (by decide)).trans h.state,
    (hword 12 (by decide)).trans h.numActivates,
    (hword 16 (by decide)).trans h.allowedUserTime,
    (hword 20 (by decide)).trans h.usedUserTime⟩
  rw [hsame _ ⟨Nat.le_add_right _ _, by simp [taskStatsSizeBytes]⟩, h.priority]

/-- The bytes around a record keep their values. -/
theorem storeTaskStats_of_not_inRange (stats : TaskStats)
    (haddress : ¬InRange container taskStatsSizeBytes address) :
    storeTaskStats memory container stats address = memory address := by
  have hword : ∀ (memory : Memory) (offset : ℕ) (word : Word),
      offset + 4 ≤ taskStatsSizeBytes →
      storeWord memory (container + offset) word address = memory address := by
    intro memory offset word hoffset
    apply storeWord_of_not_inRange
    simp only [InRange] at *
    omega
  have hbyte : address ≠ container + 4 := by
    rintro rfl
    exact haddress ⟨Nat.le_add_right _ _, by simp [taskStatsSizeBytes]⟩
  rw [storeTaskStats, hword _ 20 _ (by decide), hword _ 16 _ (by decide),
    hword _ 12 _ (by decide), hword _ 8 _ (by decide), update_of_ne hbyte]
  exact hword _ 0 _ (by decide)

/-- The stores behind a field leave it. -/
theorem holdsTaskStats_storeTaskStats (memory : Memory) (container : ℕ) (stats : TaskStats) :
    HoldsTaskStats (storeTaskStats memory container stats) container stats := by
  have hbehind : ∀ (memory : Memory) (offset other : ℕ) (word : Word), offset + 4 ≤ other →
      loadWord (storeWord memory (container + other) word) (container + offset) =
        loadWord memory (container + offset) := by
    intro memory offset other word hother
    apply loadWord_storeWord_of_disjoint
    intro target htarget
    simp only [InRange] at *
    omega
  have htid : ∀ (memory : Memory) (byte : Byte),
      loadWord (update memory (container + 4) byte) container = loadWord memory container := by
    intro memory byte
    apply loadWord_congr
    intro target htarget
    exact update_of_ne (Nat.ne_of_lt htarget.2) _ _
  have hpriority : ∀ (memory : Memory) (other : ℕ) (word : Word), 5 ≤ other →
      storeWord memory (container + other) word (container + 4) = memory (container + 4) := by
    intro memory other word hother
    apply storeWord_of_not_inRange
    simp only [InRange]
    omega
  rw [storeTaskStats]
  refine ⟨?_, ?_, ?_, ?_, ?_, ?_⟩
  · have hfirst := fun memory other word => hbehind memory 0 other word
    simp only [Nat.add_zero] at hfirst
    rw [hfirst _ 20 _ (by decide), hfirst _ 16 _ (by decide), hfirst _ 12 _ (by decide),
      hfirst _ 8 _ (by decide), htid]
    exact loadWord_storeWord _ _ _
  · rw [hpriority _ 20 _ (by decide), hpriority _ 16 _ (by decide),
      hpriority _ 12 _ (by decide), hpriority _ 8 _ (by decide), update_self]
  · rw [hbehind _ 8 20 _ (by decide), hbehind _ 8 16 _ (by decide),
      hbehind _ 8 12 _ (by decide)]
    exact loadWord_storeWord _ _ _
  · rw [hbehind _ 12 20 _ (by decide), hbehind _ 12 16 _ (by decide)]
    exact loadWord_storeWord _ _ _
  · rw [hbehind _ 16 20 _ (by decide)]
    exact loadWord_storeWord _ _ _
  · exact loadWord_storeWord _ _ _

/-- The bytes around the elements keep their values. -/
theorem storeElements_of_not_inRange {tasks : List TaskStats}
    (haddress : ¬InRange container (taskStatsSizeBytes * tasks.length) address) :
    storeElements memory container tasks address = memory address := by
  induction tasks generalizing memory container with
  | nil => rfl
  | cons stats tasks ih =>
      simp only [InRange, List.length_cons, taskStatsSizeBytes] at haddress ih
      rw [storeElements, taskStatsSizeBytes, ih (by omega)]
      apply storeTaskStats_of_not_inRange
      simp only [InRange, taskStatsSizeBytes]
      omega

theorem holdsTaskStats_storeElements {tasks : List TaskStats} {index : ℕ}
    {element : TaskStats} (helement : tasks[index]? = some element) :
    HoldsTaskStats (storeElements memory container tasks)
      (container + taskStatsSizeBytes * index) element := by
  induction tasks generalizing memory container index with
  | nil => simp at helement
  | cons stats tasks ih =>
      rw [storeElements]
      cases index with
      | zero =>
          obtain rfl : stats = element := Option.some.inj helement
          -- the elements behind are stored elsewhere
          apply (holdsTaskStats_storeTaskStats memory container stats).congr
          intro target htarget
          apply storeElements_of_not_inRange
          simp only [InRange] at *
          omega
      | succ index =>
          have hnext := @ih (storeTaskStats memory container stats)
            (container + taskStatsSizeBytes) _ helement
          rwa [Nat.add_assoc, Nat.add_comm taskStatsSizeBytes, ← Nat.mul_succ] at hnext

/-- The bytes around the record keep their values. -/
theorem storeTasksStats_of_not_inRange {stats : TasksStats}
    (haddress : ¬InRange container (tasksOffset + taskStatsSizeBytes * stats.tasks.length)
      address) : storeTasksStats memory container stats address = memory address := by
  simp only [InRange, tasksOffset] at haddress
  rw [storeTasksStats]
  rw [storeWord_of_not_inRange, storeElements_of_not_inRange, storeWord_of_not_inRange]
  all_goals
    simp only [InRange, tasksOffset]
    omega

theorem holdsTasksStats_storeTasksStats (memory : Memory) (container : ℕ)
    (stats : TasksStats) :
    HoldsTasksStats (storeTasksStats memory container stats) container stats := by
  rw [storeTasksStats]
  refine ⟨loadWord_storeWord _ _ _, ?_, ?_⟩
  · have hkept : ∀ target, InRange (container + 4) 4 target →
        ¬InRange container 4 target ∧
          ¬InRange (container + tasksOffset) (taskStatsSizeBytes * stats.tasks.length)
            target := by
      intro target htarget
      simp only [InRange, tasksOffset] at *
      omega
    rw [loadWord_storeWord_of_disjoint _ _ fun target htarget => (hkept target htarget).1,
      loadWord_congr fun target htarget =>
        storeElements_of_not_inRange (hkept target htarget).2]
    exact loadWord_storeWord _ _ _
  · intro index element helement
    apply (holdsTaskStats_storeElements helement).congr
    intro target htarget
    apply storeWord_of_not_inRange
    simp only [InRange, tasksOffset] at *
    omega

end Containers

end Rtk.Kernel
