import Rtk.Invariant.Run

/-!
# What `Destroy` destroys

`DestroyHandler` of a task with a parent frees the task and its descendants and
nothing else.  The next `ScheduleAndActivate` needs a task that is left to run;
the null task, which is always ready, is there for that.
-/

namespace Rtk.Kernel

open Function
open Rtk.ByteMemory
open Rtk.Lib
open Rtk.Lib.QueueHeap
open Rtk.Transition

/-- The scheduler and free-list partition and the family of the tasks, while the
kernel works for task `c`. -/
structure Organized (s : State) (c : ℤ) (lists : Lists TaskQueue ℤ)
    (children : Lists ℤ ℤ) (depth : ℤ → ℕ) : Prop where
  inKernel : InKernel s c lists
  family : Family s Whole children depth

/-- Exactly the task at `root` and its descendants are destroyed, in the given order.
They leave their queues, and those that can be used again join
`available_descriptors`. -/
structure DestroysSubtree (s : State) (lists : Lists TaskQueue ℤ)
    (children : Lists ℤ ℤ) (root : ℤ) (order : List ℤ) (s' : State) : Prop where
  nodup : order.Nodup
  mem_iff : ∀ other, other ∈ order ↔ Descends s root other
  destroyed : ∀ other ∈ order, s'.task other = freed (s.task other)
  kept : ∀ other, other ∉ order → s'.task other = s.task other
  taskQueues : Represents s'.taskQueues (reapedLists s lists order)
  siblings : Represents s'.siblings (reapedChildren children order)
  children : ∀ parent, parent ∉ order →
    reapedChildren children order parent = (children parent).erase root
  numTasks : s'.numTasks = s.numTasks - order.length
  faults : s'.faults = s.faults

/-- A task that can run is left: a ready one, or the running one. -/
def Survives (s : State) (c root : ℤ) : Prop :=
  ∃ other, InTable other ∧ ¬Descends s root other ∧ Runnable s c other

section Subtree

variable {s s' : State} {c : ℤ} {lists : Lists TaskQueue ℤ} {children : Lists ℤ ℤ}
  {depth : ℤ → ℕ} {root : ℤ} {order : List ℤ}

/-- Of the children of a task that is left only the root is destroyed. -/
theorem Family.reapedChildren_eq_erase (h : Family s Whole children depth)
    (hmem : ∀ other, other ∈ order ↔ Descends s root other) {parent : ℤ}
    (hparent : parent ∉ order) :
    reapedChildren children order parent = (children parent).erase root := by
  rw [reapedChildren, (h.represents.nodup parent).erase_eq_filter]
  apply List.filter_congr
  intro child hchild
  have hiff : child ∈ order ↔ child = root := by
    rw [hmem]
    constructor
    · intro hdescends
      cases hdescends with
      | self => rfl
      | @child other _ hpath hisChild =>
          have hother : other = parent := by
            rw [h.eq_parent_of_mem hchild]
            exact hisChild.2.2.2.symm
          rw [hother] at hpath
          exact absurd ((hmem parent).mpr hpath) hparent
    · rintro rfl
      exact .self
  by_cases hroot : child = root
  · rw [hroot] at hiff ⊢
    simp [hiff]
  · simp [hiff, hroot]

/-- `DestroyHandler` of a task with a parent. -/
theorem Organized.exists_destroysSubtree (h : Organized s c lists children depth)
    (hroot : InTable root) (halloc : Allocated s root)
    (hparent : (s.task root).parentTid ≠ -1) :
    ∃ fuel s' order,
      destroyHandler s (s.task root).tid fuel = some (returnStatusOk, s') ∧
      DestroysSubtree s lists children root order s' ∧
      Organized s' c (reapedLists s lists order) (reapedChildren children order)
        depth := by
  obtain ⟨fuel, s', order, hdestroy, hreaped, hbelow⟩ :=
    exists_destroyHandler h.inKernel h.family hroot halloc
  have hup := inTable_slot (h.family.parent_nonneg hroot halloc hparent)
  rw [useDescriptor_of_inTable hup] at hreaped
  have hmem : ∀ other, other ∈ order ++ [root] ↔ Descends s root other := by
    intro other
    constructor
    · intro hother
      rcases List.mem_append.mp hother with hother | hother
      · exact (hbelow other hother).1
      · rw [List.mem_singleton.mp hother]
        exact .self
    · exact fun hdescends => hreaped.mem_of_descends (by simp) hdescends
  refine ⟨fuel, s', order ++ [root], hdestroy, ?_, hreaped.inKernel, hreaped.family⟩
  constructor
  · exact hreaped.nodup
  · exact hmem
  · intro other hother
    rw [hreaped.task, reapedTasks_of_mem hother]
  · intro other hother
    rw [hreaped.task, reapedTasks_of_not_mem hother]
  · exact hreaped.inKernel.partition.represents
  · exact hreaped.family.represents
  · exact fun parent hnot => h.family.reapedChildren_eq_erase hmem hnot
  · exact hreaped.numTasks
  · exact hreaped.untouched.faults

/-- Both invariants hold again once the next task is dispatched. -/
theorem Organized.activated (h : Organized s c lists children depth) (trap : Trap)
    (result : ℤ) {now : Word}
    (hactivate : scheduleAndActivate (savedCall s trap result) now = some s') :
    ∃ next lists', Organized s' next lists' children depth := by
  have hsaved := h.inKernel.savedCall trap result
  obtain ⟨next, queues, _, _, hkernel, hquiet⟩ := hsaved.dispatch hactivate
  have hkeeps : Keeps s (savedCall s trap result) :=
    ((h.inKernel.saves_saveTaskState _ _ _ _ _).setCurrentTaskReturnValue
      result).quietly.quiet.keeps
  have hfamily : Family (Kernel.savedCall s trap result) Whole children depth :=
    h.family.congr hkeeps rfl
  exact ⟨next, _, hkernel, hfamily.congr hquiet.keeps hquiet.siblings⟩

/-- A task that is left to run is found. -/
theorem DestroysSubtree.exists_activated (h : DestroysSubtree s lists children root order s')
    (hkernel : InKernel s' c (reapedLists s lists order)) (hsurvives : Survives s c root)
    (trap : Trap) (result : ℤ) (now : Word) :
    ∃ s'', scheduleAndActivate (savedCall s' trap result) now = some s'' := by
  obtain ⟨other, hindex, hnot, hrunnable⟩ := hsurvives
  have hkept := h.kept other fun hmem => hnot ((h.mem_iff other).mp hmem)
  apply (hkernel.savedCall trap result).exists_dispatch_of_runnable hindex
  rw [Runnable, (hkernel.task_savedCall trap result other).1, hkept]
  exact hrunnable

/-- Both invariants allow for any states of the tasks. -/
theorem Organized.setTaskState (h : Organized s c lists children depth) {tid : ℤ}
    {state : TaskState} (hslot : InTable (slot tid)) (hlive : NotDestroyed s tid)
    (hstate : 0 ≤ state.value) :
    ∃ lists', Organized (setTaskState s tid state) c lists' children depth := by
  obtain ⟨queues, heq, hkernel⟩ := h.inKernel.exists_setTaskState hslot hlive hstate
  rw [heq]
  exact ⟨_, hkernel, h.family.congr (keeps_withState rfl hlive hstate) rfl⟩

end Subtree

/-- `Destroy` of a task with a parent, in any state in which both invariants hold:
it ends, destroys the task and its descendants and nothing else, and both invariants
hold after the next `ScheduleAndActivate`, which finds a task if one is left to run. -/
theorem destroysSubtree {s : State} {c : ℤ} {lists : Lists TaskQueue ℤ}
    {children : Lists ℤ ℤ} {depth : ℤ → ℕ} (h : Organized s c lists children depth)
    {root : ℤ} (hroot : InTable root) (halloc : Allocated s root)
    (hparent : (s.task root).parentTid ≠ -1) :
    ∃ fuel s' order,
      destroyHandler s (s.task root).tid fuel = some (returnStatusOk, s') ∧
      DestroysSubtree s lists children root order s' ∧
      ∀ trap now,
        (∀ s'', scheduleAndActivate (savedCall s' trap returnStatusOk) now = some s'' →
          ∃ next lists', Organized s'' next lists' (reapedChildren children order)
            depth) ∧
        (Survives s c root →
          ∃ s'', scheduleAndActivate (savedCall s' trap returnStatusOk) now = some s'') := by
  obtain ⟨fuel, s', order, hdestroy, hsubtree, horganized⟩ :=
    h.exists_destroysSubtree hroot halloc hparent
  refine ⟨fuel, s', order, hdestroy, hsubtree, fun trap now => ⟨?_, ?_⟩⟩
  · exact fun s'' hactivate => horganized.activated trap returnStatusOk hactivate
  · exact fun hsurvives =>
      hsubtree.exists_activated horganized.inKernel hsurvives trap returnStatusOk now

def sampleFamily : List Action :=
  [.call (.create 3 0x9000) (sampleTrap 0x103f00),
    .call (.create 3 0x9100) (sampleTrap 0x105f00),
    .call .pass (sampleTrap 0x103f00),
    .call (.create 3 0x9200) (sampleTrap 0x107f00),
    .call .pass (sampleTrap 0x105f00)]

instance (s : State) (parent child : ℤ) : Decidable (IsChild s parent child) :=
  inferInstanceAs (Decidable (_ ∧ _ ∧ _ ∧ _))

/-- The first task destroys the second one with its child and its grandchild, and is left to
run. -/
theorem destroysSubtree_sample :
    ∃ s lists children, sampleRun sampleFamily = some s ∧
      ∃ fuel s' order, destroyHandler s (s.task 2).tid fuel = some (returnStatusOk, s') ∧
        DestroysSubtree s lists children 2 order s' ∧ 3 ∈ order ∧ 4 ∈ order ∧
        ∀ trap now, ∃ s'',
          scheduleAndActivate (savedCall s' trap returnStatusOk) now = some s'' := by
  have hobserved : (sampleRun sampleFamily).map (fun s =>
      decide (s.currentTask = some 1 ∧ (s.task 1).state = .active ∧ (s.task 1).parentTid = -1 ∧
        Allocated s 2 ∧ (s.task 2).parentTid ≠ -1 ∧ IsChild s 2 3 ∧ IsChild s 3 4)) =
          some true := by
    decide +kernel
  obtain ⟨s, hrun, hvalues⟩ := Option.map_eq_some_iff.mp hobserved
  rw [decide_eq_true_eq] at hvalues
  obtain ⟨hone, hactive, hfirst, halloc, hparent, hchild, hgrandchild⟩ := hvalues
  have hreachable : Reachable kernel Safe s := by
    apply reachable_of_rounds hrun
    simp [sampleFamily, Safe]
  obtain ⟨l, h⟩ := coherent_of_reachable hreachable
  obtain ⟨fuel, s', order, hdestroy, hsubtree, hnext⟩ :=
    destroysSubtree ⟨h.dispatched.toInKernel, h.family⟩ (by decide : InTable 2) halloc hparent
  have hthree : Descends s 2 3 := .child .self hchild
  have hfour : Descends s 2 4 := .child hthree hgrandchild
  have hcurrent : l.current = 1 := Option.some.inj (h.dispatched.current.symm.trans hone)
  have hsurvives : Survives s l.current 2 := by
    refine ⟨1, by decide, ?_, .inr ⟨hcurrent.symm, hactive⟩⟩
    intro hdescends
    cases hdescends with
    | child _ hisChild => exact hisChild.2.2.1 hfirst
  exact ⟨s, l.lists, l.children, hrun, fuel, s', order, hdestroy, hsubtree,
    (hsubtree.mem_iff 3).mpr hthree, (hsubtree.mem_iff 4).mpr hfour,
    fun trap now => (hnext trap now).2 hsurvives⟩

/-- When all other tasks are blocked, the null task among them, a task that destroys
itself leaves none to run, although both invariants hold. -/
theorem not_destroysSubtree :
    ¬∀ (s : State) (c : ℤ) (lists : Lists TaskQueue ℤ) (children : Lists ℤ ℤ)
      (depth : ℤ → ℕ) (root : ℤ), Organized s c lists children depth → InTable root →
      Allocated s root → (s.task root).parentTid ≠ -1 →
      ∃ fuel s' order,
        destroyHandler s (s.task root).tid fuel = some (returnStatusOk, s') ∧
        DestroysSubtree s lists children root order s' ∧
        ∀ trap now, ∃ s'' next lists' children',
          scheduleAndActivate (savedCall s' trap returnStatusOk) now = some s'' ∧
          Organized s'' next lists' children' depth := by
  intro hclaim
  have hobserved : ((sampleRun [.call (.create 3 0x9000) (sampleTrap 0x103f00)]).bind
      fun s =>
        let blocked := setTaskState (setTaskState s 0 .eventBlocked) 1 .eventBlocked
        (destroyHandler blocked 2 2).map fun outcome =>
          (decide (Allocated s 0 ∧ Allocated (setTaskState s 0 .eventBlocked) 1 ∧
              Allocated blocked 2 ∧ (blocked.task 2).parentTid ≠ -1),
            (blocked.task 2).tid,
            (scheduleAndActivate (savedCall outcome.2 (sampleTrap 0x105f00) 0) 0).isNone)) =
      some (true, 2, true) := by
    decide +kernel
  obtain ⟨s, ⟨result, destroyed⟩, hrun, hdestroy, hvalues⟩ := exists_observed hobserved
  simp only [Prod.mk.injEq, decide_eq_true_eq, Option.isNone_iff_eq_none] at hvalues
  obtain ⟨⟨hfirst, hsecond, halloc, hparent⟩, htid, hnone⟩ := hvalues
  have hreachable : Reachable kernel Safe s := by
    apply reachable_of_rounds hrun
    simp [Safe]
  obtain ⟨l, h⟩ := coherent_of_reachable hreachable
  have horganized : Organized s l.current l.lists l.children l.depth :=
    ⟨h.dispatched.toInKernel, h.family⟩
  have hblocked : (0 : ℤ) ≤ TaskState.eventBlocked.value := by decide
  obtain ⟨_, hone⟩ :=
    horganized.setTaskState (by decide : InTable (slot 0)) (fun _ => hfirst) hblocked
  obtain ⟨_, hboth⟩ :=
    hone.setTaskState (by decide : InTable (slot 1)) (fun _ => hsecond) hblocked
  obtain ⟨fuel, s', order, hdestroy', _, hnext⟩ :=
    hclaim _ _ _ _ _ 2 hboth (by decide) halloc hparent
  rw [htid] at hdestroy'
  obtain ⟨_, rfl⟩ := Prod.mk.inj (destroyHandler_unique hdestroy hdestroy')
  obtain ⟨s'', _, _, _, hactivate, _⟩ := hnext (sampleTrap 0x105f00) 0
  rw [returnStatusOk, hnone] at hactivate
  simp at hactivate

end Rtk.Kernel
