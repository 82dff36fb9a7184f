import Mathlib.Data.Finset.Card
import Rtk.Invariant.Fates

/-!
# The count of tasks

`ExitTask` and `DestroyHandler` both take the task that ends off `num_tasks`.  So the count
is the number of tasks that are alive until a zombie is destroyed, and too low from then on.
-/

namespace Rtk.Kernel

open Function
open Rtk.ByteMemory
open Rtk.Lib
open Rtk.Transition

/-- The descriptors whose state is greater than `ZOMBIE`. -/
def aliveDescriptors (s : State) : Finset ℤ :=
  {index ∈ (Finset.range maxTasks.toNat).map ⟨Int.ofNat, @Int.ofNat.inj⟩ |
    TaskState.zombie.value < (s.task index).state.value}

def numAlive (s : State) : ℤ := (aliveDescriptors s).card

/-- `num_tasks` is the number of the descriptors that are alive, and `TasksStatsHandler`
reports it. -/
structure TasksCounted (s : State) : Prop where
  numTasks : s.numTasks = numAlive s
  reported : ∀ {fuel trap container result s'},
    handle (entered s trap) fuel trap (.getTasksStats container) = some (result, s') →
    ∃ stats, s'.log = s.log ++ [.tasksStats container stats] ∧
      HoldsTasksStats s'.memory container stats ∧ stats.numAliveTasks = numAlive s

/-- The action destroys a zombie: the task named, or a descendant of it. -/
def DestroysZombie (s : State) : Action → Prop
  | .call (.destroy tid) _ =>
      IsNamed s tid ∧ ∃ index, Descends s (slot tid) index ∧ (s.task index).state = .zombie
  | _ => False

section Counting

variable {s s' : State} {l : Layout} {action : Action}

theorem mem_aliveDescriptors {index : ℤ} :
    index ∈ aliveDescriptors s ↔ InTable index ∧ 0 < (s.task index).state.value := by
  have hindex : index ∈ (Finset.range maxTasks.toNat).map ⟨Int.ofNat, @Int.ofNat.inj⟩ ↔
      InTable index := by
    rw [Finset.mem_map, InTable]
    constructor
    · rintro ⟨n, hn, rfl⟩
      exact ⟨Int.natCast_nonneg n, Int.lt_toNat.mp (Finset.mem_range.mp hn)⟩
    · rintro ⟨hnonneg, hlt⟩
      exact ⟨index.toNat, Finset.mem_range.mpr ((Int.toNat_lt_toNat (by decide)).mpr hlt),
        Int.toNat_of_nonneg hnonneg⟩
  rw [aliveDescriptors, Finset.mem_filter, hindex, TaskState.value]

/-- `TasksStatsHandler` reports `num_tasks`, whatever it is. -/
theorem tasksCounted_iff :
    TasksCounted s ↔ s.numTasks = numAlive s := by
  constructor
  · exact TasksCounted.numTasks
  · intro hnum
    refine ⟨hnum, ?_⟩
    intro fuel trap container result s' hhandle
    obtain ⟨tasks, _, hlog, hholds⟩ := exists_tasksStats (tasksStats_of_handle hhandle)
    exact ⟨_, hlog, hholds, hnum⟩

theorem aliveDescriptors_of_stirs (hstirs : ∀ index, Stirs (s.task index) (s'.task index)) :
    aliveDescriptors s' = aliveDescriptors s := by
  ext index
  rw [mem_aliveDescriptors, mem_aliveDescriptors, (hstirs index).alive_iff]

/-- Who waits for an event is alive, and so is who is woken. -/
theorem Coherent.aliveDescriptors_of_interrupt (h : Coherent s l) {intrCode : ℤ} {trap : Trap}
    (hstep : Step s (.interrupt intrCode trap) s') :
    aliveDescriptors s' = aliveDescriptors s := by
  obtain ⟨hstirs, _⟩ := h.stirs_interrupt hstep
  ext index
  rw [mem_aliveDescriptors, mem_aliveDescriptors, (hstirs index).alive_iff]
  cases hwoken : wokenBy s l.lists intrCode with
  | none => rfl
  | some head =>
      rw [awakened]
      by_cases hindex : index = head
      · subst index
        rw [update_self, (h.of_wokenBy hwoken).2.1]
        exact and_congr_right fun _ =>
          iff_of_true (by decide : 0 < TaskState.ready.value) (by decide)
      · rw [update_of_ne hindex]

/-- The running task is alive. -/
theorem Coherent.mem_aliveDescriptors (h : Coherent s l) : l.current ∈ aliveDescriptors s :=
  Kernel.mem_aliveDescriptors.mpr ⟨h.dispatched.inTable, h.stirring_current.1⟩

/-- The other tasks stay as they are. -/
theorem aliveDescriptors_of_others {index : ℤ} {state : TaskState} (hindex : InTable index)
    (hself : (s'.task index).state = state)
    (hothers : ∀ other, other ≠ index → s'.task other = s.task other) :
    aliveDescriptors s' =
      if 0 < state.value then insert index (aliveDescriptors s)
      else (aliveDescriptors s).erase index := by
  subst hself
  ext other
  by_cases hother : other = index
  · subst other
    split_ifs with halive
    · simp [mem_aliveDescriptors, hindex, halive]
    · simp [mem_aliveDescriptors, halive]
  · have hsame := hothers other hother
    split_ifs
    · simp [mem_aliveDescriptors, hother, hsame]
    · simp [mem_aliveDescriptors, hother, hsame]

def zombiesOf (s : State) (order : List ℤ) : Finset ℤ :=
  {index ∈ order.toFinset | (s.task index).state = .zombie}

/-- Of the tasks that are destroyed the count takes off all, and only those that are no
zombies were alive. -/
theorem numAlive_of_reaped {order : List ℤ} (htask : s'.task = reapedTasks s order)
    (hlive : ∀ index ∈ order, InTable index ∧ Allocated s index) (hnodup : order.Nodup) :
    numAlive s' - (zombiesOf s order).card = numAlive s - order.length := by
  have halive : aliveDescriptors s' = aliveDescriptors s \ order.toFinset := by
    ext index
    rw [Finset.mem_sdiff, mem_aliveDescriptors, mem_aliveDescriptors, List.mem_toFinset, htask]
    by_cases hindex : index ∈ order
    · have hnot := not_allocated_freed (s.task index)
      rw [reapedTasks_of_mem hindex]
      constructor
      · exact fun hfreed => absurd (Int.le_of_lt hfreed.2) hnot
      · exact fun hkept => absurd hindex hkept.2
    · rw [reapedTasks_of_not_mem hindex]
      exact (and_iff_left hindex).symm
  have hzombies : zombiesOf s order = order.toFinset \ aliveDescriptors s := by
    ext index
    rw [zombiesOf, Finset.mem_filter, Finset.mem_sdiff, mem_aliveDescriptors,
      List.mem_toFinset]
    apply and_congr_right
    intro hindex
    obtain ⟨htable, halloc⟩ := hlive index hindex
    rw [Allocated] at halloc
    cases hstate : (s.task index).state <;> simp [hstate, TaskState.value, htable] at halloc ⊢
  have hcount := Finset.card_sdiff_add_card_inter (aliveDescriptors s) order.toFinset
  have horder := Finset.card_sdiff_add_card_inter order.toFinset (aliveDescriptors s)
  rw [Finset.inter_comm, List.toFinset_card_of_nodup hnodup] at horder
  rw [numAlive, numAlive, halive, hzombies]
  omega

/-- The tasks decide what a `Destroy` destroys. -/
theorem destroysZombie_congr (htask : s'.task = s.task) :
    DestroysZombie s' action ↔ DestroysZombie s action := by
  cases action with
  | interrupt intrCode trap => exact Iff.rfl
  | call call trap =>
      cases call with
      | destroy tid => simp only [DestroysZombie, IsNamed, descends_congr htask, htask]
      | _ => exact Iff.rfl

/-- What a system call adds to `num_tasks` but for the zombies destroyed, it adds to the
tasks that are alive. -/
theorem Coherent.balance_of_fate (h : Coherent s l) {call : Call} {trap : Trap}
    (hfate : Fate s l.current call s') :
    ∃ zombies : Finset ℤ,
      s'.numTasks - numAlive s' = s.numTasks - numAlive s - zombies.card ∧
      (zombies.Nonempty ↔ DestroysZombie s (.call call trap)) := by
  cases hfate with
  | stirs hroutine hstirs hrefused =>
      refine ⟨∅, ?_, ?_⟩
      · rw [hroutine.numTasks, numAlive, aliveDescriptors_of_stirs hstirs, ← numAlive,
          Finset.card_empty, Int.natCast_zero, Int.sub_zero]
      · apply iff_of_false (by simp)
        cases call with
        | destroy tid => exact fun hzombie => hrefused tid rfl hzombie.1
        | _ => exact id
  | exits hself hothers hnum =>
      refine ⟨∅, ?_, iff_of_false (by simp) id⟩
      have hzombie : (s'.task l.current).state = .zombie := congrArg Task.state hself
      have halive := aliveDescriptors_of_others h.dispatched.inTable hzombie hothers
      rw [if_neg (by decide)] at halive
      have hcard := Finset.card_erase_add_one h.mem_aliveDescriptors
      rw [hnum, numAlive, numAlive, halive, Finset.card_empty]
      omega
  | awaits hself hothers hnum =>
      refine ⟨∅, ?_, iff_of_false (by simp) id⟩
      have hwaits : (s'.task l.current).state = .eventBlocked := congrArg Task.state hself
      have halive := aliveDescriptors_of_others h.dispatched.inTable hwaits hothers
      rw [if_pos (by decide), Finset.insert_eq_of_mem h.mem_aliveDescriptors] at halive
      rw [hnum, numAlive, numAlive, halive, Finset.card_empty, Int.natCast_zero, Int.sub_zero]
  | @creates index _ _ _ _ hindex hfree hself hothers hnum =>
      refine ⟨∅, ?_, iff_of_false (by simp) id⟩
      have hready : (s'.task index).state = .ready := congrArg Task.state hself
      have halive := aliveDescriptors_of_others hindex hready hothers
      have hnew : index ∉ aliveDescriptors s := by
        rw [Kernel.mem_aliveDescriptors, hfree]
        simp [TaskState.value]
      rw [if_pos (by decide)] at halive
      have hcard := Finset.card_insert_of_notMem hnew
      rw [hnum, numAlive, numAlive, halive, Finset.card_empty]
      omega
  | @destroys tid order _ hnamed hmem hlive hnodup htask hnum =>
      refine ⟨zombiesOf s order, ?_, ?_⟩
      · have hcount := numAlive_of_reaped htask hlive hnodup
        omega
      · constructor
        · rintro ⟨index, hindex⟩
          rw [zombiesOf, Finset.mem_filter, List.mem_toFinset] at hindex
          exact ⟨hnamed, index, (hmem index).mp hindex.1, hindex.2⟩
        · rintro ⟨_, index, hdescends, hzombie⟩
          refine ⟨index, ?_⟩
          rw [zombiesOf, Finset.mem_filter, List.mem_toFinset]
          exact ⟨(hmem index).mpr hdescends, hzombie⟩

theorem Coherent.balance (h : Coherent s l) (hsafe : Safe s action) (hstep : Step s action s') :
    ∃ zombies : Finset ℤ,
      s'.numTasks - numAlive s' = s.numTasks - numAlive s - zombies.card ∧
      (zombies.Nonempty ↔ DestroysZombie s action) := by
  cases action with
  | interrupt intrCode trap =>
      obtain ⟨_, hnum, _⟩ := h.stirs_interrupt hstep
      refine ⟨∅, ?_, iff_of_false (by simp) id⟩
      rw [hnum, numAlive, h.aliveDescriptors_of_interrupt hstep, ← numAlive,
        Finset.card_empty, Int.natCast_zero, Int.sub_zero]
  | call call trap =>
      obtain ⟨middle, hfate, hstirs, hnum, _⟩ := h.exists_fate hsafe hstep
      obtain ⟨zombies, hbalance, hdestroys⟩ :=
        @Coherent.balance_of_fate _ _ _ (h.enter trap) _ trap hfate
      refine ⟨zombies, ?_, ?_⟩
      · rw [hnum, numAlive, aliveDescriptors_of_stirs hstirs]
        exact hbalance
      · rw [hdestroys]
        exact destroysZombie_congr rfl

/-- The count stays right exactly when no zombie is destroyed. -/
theorem Coherent.tasksCounted_step (h : Coherent s l) (hcounted : TasksCounted s)
    (hsafe : Safe s action) (hstep : Step s action s') :
    TasksCounted s' ↔ ¬DestroysZombie s action := by
  obtain ⟨zombies, hbalance, hdestroys⟩ := h.balance hsafe hstep
  have hnum := hcounted.numTasks
  rw [tasksCounted_iff, ← hdestroys, Finset.not_nonempty_iff_eq_empty, ← Finset.card_eq_zero]
  omega

end Counting

/-- The count at the first activation. -/
theorem Booted.tasksCounted {s : State} (hbooted : Booted s) : TasksCounted s := by
  obtain ⟨depth, hcoherent⟩ := hbooted.coherent
  have halive : aliveDescriptors s = {0, 1} := by
    ext index
    rw [mem_aliveDescriptors, Finset.mem_insert, Finset.mem_singleton]
    constructor
    · rintro ⟨hindex, hvalue⟩
      by_contra hnot
      rw [not_or] at hnot
      rw [hbooted.state_free hindex hnot.1 hnot.2] at hvalue
      simp [TaskState.value] at hvalue
    · rintro (rfl | rfl)
      · rw [hbooted.task_zero.2]
        decide
      · exact mem_aliveDescriptors.mp hcoherent.mem_aliveDescriptors
  obtain ⟨image, memory, now, middle, index, hroutine, rfl⟩ :=
    exists_activateNext_of_booted hbooted
  rw [tasksCounted_iff, numAlive, halive]
  exact hroutine.numTasks

/-- `num_tasks` is the number of tasks that are alive in runs in which no zombie is
destroyed, and no longer once one is. -/
theorem tasksCounted_of_reachable {s : State} (hreachable :
    Reachable kernel (fun s action => Safe s action ∧ ¬DestroysZombie s action) s) :
    TasksCounted s ∧ ∀ {action s'}, Safe s action → Step s action s' →
      (TasksCounted s' ↔ ¬DestroysZombie s action) :=
  kept_iff_of_reachable hreachable (fun _ hbooted => hbooted.tasksCounted)
    Coherent.tasksCounted_step

/-- The second task exits, and is destroyed by its parent. -/
theorem tasksCounted_sample :
    ∃ s s', sampleRun [.call (.create 3 0x9000) (sampleTrap 0x103f00),
        .call .exit (sampleTrap 0x105f00)] = some s ∧
      Step s (.call (.destroy 2) (sampleTrap 0x103f00)) s' ∧
      TasksCounted s ∧ ¬TasksCounted s' := by
  have hobserved : ((sampleRun [.call (.create 3 0x9000) (sampleTrap 0x103f00),
      .call .exit (sampleTrap 0x105f00)]).bind fun s =>
        (step s 2 (.call (.destroy 2) (sampleTrap 0x103f00))).map fun _ =>
          decide (IsNamed s 2 ∧ (s.task (slot 2)).state = .zombie)) = some true := by
    decide +kernel
  obtain ⟨s, s', hrun, hstep, hzombie⟩ := exists_observed hobserved
  rw [decide_eq_true_eq] at hzombie
  have hreachable : Reachable kernel
      (fun s action => Safe s action ∧ ¬DestroysZombie s action) s := by
    apply reachable_of_rounds hrun
    simp [Safe, DestroysZombie]
  have hsafe : Safe s (.call (.destroy 2) (sampleTrap 0x103f00)) := by
    intro _ _
    exact allocated_of_state hzombie.2 (by decide)
  obtain ⟨hcounted, hlater⟩ := tasksCounted_of_reachable hreachable
  refine ⟨s, s', hrun, ⟨2, hstep⟩, hcounted, ?_⟩
  rw [hlater hsafe ⟨2, hstep⟩, not_not]
  exact ⟨hzombie.1, _, .self, hzombie.2⟩

/-- A zombie that is destroyed is taken off the count twice. -/
theorem not_tasksCounted : ¬∀ s, Reachable kernel Safe s → TasksCounted s := by
  intro hclaim
  have hobserved : ((sampleRun [.call (.create 3 0x9000) (sampleTrap 0x103f00),
      .call .exit (sampleTrap 0x105f00)]).bind fun s =>
        (step s 2 (.call (.destroy 2) (sampleTrap 0x103f00))).map fun s' =>
          ((s.task (slot 2)).state, s'.numTasks, numAlive s')) = some (.zombie, 1, 2) := by
    decide +kernel
  obtain ⟨s, s', hrun, hstep, hvalues⟩ := exists_observed hobserved
  obtain ⟨hzombie, hnum, halive⟩ := by simpa only [Prod.mk.injEq] using hvalues
  have hreachable : Reachable kernel Safe s := by
    apply reachable_of_rounds hrun
    simp [Safe]
  have hsafe : Safe s (.call (.destroy 2) (sampleTrap 0x103f00)) := by
    intro _ _
    exact allocated_of_state hzombie (by decide)
  have hcounted := (hclaim s' (hreachable.step hsafe ⟨2, hstep⟩)).numTasks
  rw [hnum, halive] at hcounted
  exact absurd hcounted (by decide)

end Rtk.Kernel
