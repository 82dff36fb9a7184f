import Rtk.Invariant.Reaping

/-!
# `DestroyHandler`

The recursion of `DestroyHandler` ends because every child is deeper than its
parent, and frees exactly the task and its descendants.  A child has already
left its parent's queue when its own call tries to take it out, so that
`RemoveQueueNode` finds `NULL` links.
-/

namespace Rtk.Kernel

open Function
open Rtk.ByteMemory
open Rtk.Lib

/-! ## The bound on the steps -/

theorem destroy_mono (fuel : ℕ) :
    (∀ {s : State} {tid : ℤ} {result : ℤ × State} {fuel' : ℕ},
      destroyHandler s tid fuel = some result → fuel ≤ fuel' →
        destroyHandler s tid fuel' = some result) ∧
    ∀ {s s' : State} {index : ℤ} {fuel' : ℕ},
      destroyChildren s index fuel = some s' → fuel ≤ fuel' →
        destroyChildren s index fuel' = some s' := by
  induction fuel with
  | zero =>
      constructor
      · intro s tid result fuel' hdestroy
        simp [destroyHandler] at hdestroy
      · intro s s' index fuel' hdestroy
        simp [destroyChildren] at hdestroy
  | succ fuel ih =>
      obtain ⟨ihHandler, ihChildren⟩ := ih
      constructor
      · intro s tid result fuel' hdestroy hfuel
        obtain ⟨more, rfl⟩ : ∃ more, fuel' = more + 1 := ⟨fuel' - 1, by omega⟩
        rw [destroyHandler] at hdestroy ⊢
        split_ifs at hdestroy ⊢
        · exact hdestroy
        · simp only at hdestroy ⊢
          split_ifs at hdestroy ⊢
          · exact hdestroy
          · cases hchildren : destroyChildren
              (leaveParent (s.useDescriptor (slot tid)) (slot tid)) (slot tid)
              fuel with
            | none => simp [hchildren] at hdestroy
            | some s' =>
                rw [hchildren] at hdestroy
                rw [ihChildren hchildren (by omega)]
                exact hdestroy
      · intro s s' index fuel' hdestroy hfuel
        obtain ⟨more, rfl⟩ : ∃ more, fuel' = more + 1 := ⟨fuel' - 1, by omega⟩
        rw [destroyChildren] at hdestroy ⊢
        cases hdequeue : s.siblings.dequeueQueue index with
        | mk dequeued queues =>
            rw [hdequeue] at hdestroy
            cases dequeued with
            | none => exact hdestroy
            | some child =>
                simp only at hdestroy ⊢
                cases hchild : destroyHandler { s with siblings := queues }
                    (s.task child).tid fuel with
                | none => simp [hchild] at hdestroy
                | some result =>
                    rw [hchild] at hdestroy
                    rw [ihHandler hchild (by omega)]
                    exact ihChildren hdestroy (by omega)

/-- Two bounds within which a call ends give the same outcome. -/
theorem destroyHandler_unique {s : State} {tid : ℤ} {fuel fuel' : ℕ}
    {outcome outcome' : ℤ × State}
    (hdestroy : destroyHandler s tid fuel = some outcome)
    (hdestroy' : destroyHandler s tid fuel' = some outcome') : outcome = outcome' := by
  have hleft := (destroy_mono _).1 hdestroy (Nat.le_max_left _ fuel')
  have hright := (destroy_mono _).1 hdestroy' (Nat.le_max_right fuel _)
  exact Option.some.inj (hleft.symm.trans hright)

/-! ## One call -/

theorem isValidTid_iff {tid : ℤ} : isValidTid tid ↔ 0 ≤ tid ∧ tid ≤ longMax := by
  rw [isValidTid, decide_eq_true_eq]

/-- A tid that is in no descriptor is refused. -/
theorem destroyHandler_refused {s : State} {tid : ℤ} {fuel : ℕ}
    (hrefused : isValidTid tid → (s.task (slot tid)).tid ≠ tid) :
    ∃ error < 0, destroyHandler s tid (fuel + 1) = some (error, s) := by
  by_cases hvalid : isValidTid tid
  · refine ⟨errDestroyNonexistentTask, by decide, ?_⟩
    have hslot := inTable_slot (isValidTid_iff.mp hvalid).1
    simp [destroyHandler, hvalid, useDescriptor_of_inTable hslot, hrefused hvalid]
  · exact ⟨errDestroyImpossibleTid, by decide, by simp [destroyHandler, hvalid]⟩

/-- A tid that is in its descriptor is never refused. -/
theorem destroyHandler_accepted {s s' : State} {tid : ℤ} {fuel : ℕ} {result : ℤ}
    (hvalid : isValidTid tid) (htid : (s.task (slot tid)).tid = tid)
    (hdestroy : destroyHandler s tid fuel = some (result, s')) :
    result = returnStatusOk := by
  cases fuel with
  | zero => simp [destroyHandler] at hdestroy
  | succ fuel =>
      have hslot := inTable_slot (isValidTid_iff.mp hvalid).1
      simp only [destroyHandler, hvalid, useDescriptor_of_inTable hslot, htid,
        Bool.not_true, Bool.false_eq_true, if_false, ne_eq, not_true_eq_false]
        at hdestroy
      cases hchildren : destroyChildren (leaveParent s (slot tid)) (slot tid) fuel with
      | none => simp [hchildren] at hdestroy
      | some destroyed =>
          simp only [hchildren, Option.some.injEq, Prod.mk.injEq] at hdestroy
          exact hdestroy.1.symm

/-- Past its checks a call takes the task out of its parent's queue, destroys
the children and then the task. -/
theorem destroyHandler_succ {s s' : State} {index : ℤ} {fuel : ℕ}
    (hvalid : isValidTid (s.task index).tid) (hindex : InTable index)
    (hslot : slot (s.task index).tid = index)
    (hchildren : destroyChildren (leaveParent s index) index fuel = some s') :
    destroyHandler s (s.task index).tid (fuel + 1) =
      some (returnStatusOk, destroySelf s' (s.task index).tid) := by
  rw [destroyHandler, hvalid]
  simp only [Bool.not_true, Bool.false_eq_true, if_false, hslot,
    useDescriptor_of_inTable hindex, ne_eq, not_true_eq_false, hchildren]

/-- A task that is in no queue does not find itself in its parent's. -/
theorem leaveParent_of_unlinked {s : State} {children : Lists ℤ ℤ} {index : ℤ}
    (hrep : Represents s.siblings children) (htidy : Tidy s.siblings children)
    (hunlinked : ∀ parent, index ∉ children parent)
    (hparent : InTable (slot (s.task index).parentTid)) :
    leaveParent s index = s := by
  rw [leaveParent, useDescriptor_of_inTable hparent]
  simp only [hrep.removeQueueNode_unlinked htidy hunlinked]

/-- What destroying the children of `index` and then `index` itself must do. -/
def Destroyable (c : ℤ) (depth : ℤ → ℕ) (index : ℤ) : Prop :=
  ∀ {s : State} {lists : Lists TaskQueue ℤ} {detached : ℤ → Prop}
    {children : Lists ℤ ℤ}, InKernel s c lists → Family s detached children depth →
    InTable index → Allocated s index → detached index →
    (∀ other, InTable other → Allocated s other → detached other →
      depth other ≤ depth index) →
    ∃ fuel s' order,
      destroyChildren s index fuel = some s' ∧
      Reaped s c lists detached children depth (order ++ [index])
        (destroySelf s' (s.task index).tid) ∧
      ∀ other ∈ order, Descends s index other ∧ depth index < depth other

section Recursion

variable {s s' : State} {c : ℤ} {lists : Lists TaskQueue ℤ}
  {detached : ℤ → Prop} {children : Lists ℤ ℤ} {depth : ℤ → ℕ}

def State.dequeueChild (s : State) (index : ℤ) : State :=
  { s with siblings := (s.siblings.dequeueQueue index).2 }

/-- Taking a child out of its queue does not show once the child is freed. -/
theorem Reaped.of_unlinked {queues : QueueHeap ℤ ℤ} {order : List ℤ} {child : ℤ}
    (hnodup : ∀ parent, (children parent).Nodup) (hchild : child ∈ order)
    (h : Reaped { s with siblings := queues } c lists
      (fun other => detached other ∨ other = child) (children.erase child) depth
      order s') :
    Reaped s c lists detached children depth order s' where
  inKernel := h.inKernel
  family := by
    rw [← reapedChildren_erase hnodup hchild]
    apply h.family.congr_detached
    intro other _ halloc
    have hkept := ((allocated_reaped_iff h.task other).mp halloc).2
    constructor
    · rintro (hdetached | rfl)
      · exact hdetached
      · exact absurd hchild hkept
    · exact Or.inl
  task := h.task
  nodup := h.nodup
  live := h.live
  untouched := ⟨h.untouched.image, h.untouched.node, h.untouched.msgQueues,
    h.untouched.memory, h.untouched.faults, h.untouched.log⟩
  numTasks := h.numTasks

/-- The dequeued child is detached and in no queue. -/
theorem Family.dequeueChild (h : Family s detached children depth)
    {index child : ℤ} {rest : List ℤ} (hqueue : children index = child :: rest) :
    Family (s.dequeueChild index) (fun other => detached other ∨ other = child)
      (children.erase child) depth :=
  h.detach (.of_task_eq rfl) (h.represents.dequeueQueue hqueue).2
    (h.represents.tidy_dequeueQueue h.tidy hqueue)

theorem Family.not_mem_erase (h : Family s detached children depth)
    (child parent : ℤ) : child ∉ children.erase child parent := by
  intro hmem
  exact (h.represents.mem_erase_iff.mp hmem).2 rfl

/-- One round of the loop destroys a child with its descendants. -/
theorem exists_destroyChild {index child : ℤ} {rest : List ℤ}
    (hdeeper : ∀ child, depth index < depth child → Destroyable c depth child)
    (hkernel : InKernel s c lists) (hfamily : Family s detached children depth)
    (hdepth : ∀ other, InTable other → Allocated s other → detached other →
      depth other ≤ depth index)
    (hqueue : children index = child :: rest) :
    ∃ fuel s' order,
      destroyHandler (s.dequeueChild index) (s.task child).tid fuel =
        some (returnStatusOk, s') ∧
      Reaped s c lists detached children depth order s' ∧ child ∈ order ∧
      ∀ other ∈ order, Descends s index other ∧ depth index < depth other := by
  have hmem : child ∈ children index := by simp [hqueue]
  obtain ⟨hchild, halloc, _, hne, hparent⟩ := hfamily.mem_iff.mp hmem
  have hlt := hfamily.depth_lt_of_mem hmem
  have hdequeued := hfamily.dequeueChild hqueue
  have hdetached : ∀ other, InTable other → Allocated s other →
      detached other ∨ other = child → depth other ≤ depth child := by
    intro other hother hlive hdetached
    rcases hdetached with hdetached | rfl
    · exact Nat.le_trans (hdepth other hother hlive hdetached) (Nat.le_of_lt hlt)
    · exact Nat.le_refl _
  have hkernel' : InKernel (s.dequeueChild index) c lists :=
    hkernel.congr rfl rfl rfl
  obtain ⟨fuel, s', order, hchildren, hreaped, hbelow⟩ :=
    hdeeper child hlt hkernel' hdequeued hchild halloc (.inr rfl) hdetached
  have hleave : leaveParent (s.dequeueChild index) child = s.dequeueChild index := by
    apply leaveParent_of_unlinked hdequeued.represents hdequeued.tidy
    · exact hfamily.not_mem_erase child
    · exact inTable_slot (hfamily.parent_nonneg hchild halloc hne)
  have hvalid : isValidTid (s.task child).tid :=
    isValidTid_iff.mpr ⟨hkernel.named.tid_nonneg hchild halloc,
      hkernel.named.tid_le hchild halloc⟩
  have hisChild : IsChild s index child := ⟨hchild, halloc, hne, hparent.symm⟩
  refine ⟨fuel + 1, destroySelf s' (s.task child).tid, order ++ [child], ?_,
    hreaped.of_unlinked hfamily.represents.nodup (by simp), by simp, ?_⟩
  · rw [← hleave] at hchildren
    exact @destroyHandler_succ (s.dequeueChild index) s' child fuel hvalid hchild
      (hkernel.named.slot_tid hchild halloc) hchildren
  · intro other hother
    rcases List.mem_append.mp hother with hother | hother
    · obtain ⟨hdescends, hdeep⟩ := hbelow other hother
      have hsame : Descends s child other :=
        hdescends.mono (fun _ hlive => hlive) fun _ => rfl
      exact ⟨(Descends.self.child hisChild).trans hsame, Nat.lt_trans hlt hdeep⟩
    · rw [List.mem_singleton] at hother
      subst other
      exact ⟨Descends.self.child hisChild, hlt⟩

theorem destroyChildren_nil {index : ℤ} (fuel : ℕ)
    (hfamily : Family s detached children depth) (hempty : children index = []) :
    destroyChildren s index (fuel + 1) = some s := by
  have hfirst : (s.siblings.queue index).first = none := by
    rw [(hfamily.represents.contents index).first, hempty, List.head?_nil]
  rw [destroyChildren, s.siblings.dequeueQueue_of_first_none index hfirst]

theorem destroyChildren_cons {s₁ s₂ : State} {index child : ℤ} {rest : List ℤ}
    {front back : ℕ} {status : ℤ} (hfamily : Family s detached children depth)
    (hqueue : children index = child :: rest)
    (hchild : destroyHandler (s.dequeueChild index) (s.task child).tid front =
      some (status, s₁))
    (hrest : destroyChildren s₁ index back = some s₂) :
    destroyChildren s index (max front back + 1) = some s₂ := by
  have hfirst : (s.siblings.dequeueQueue index).1 = some child :=
    (hfamily.represents.dequeueQueue hqueue).1
  rw [destroyChildren]
  cases hdequeue : s.siblings.dequeueQueue index with
  | mk dequeued queues =>
      have hstate : { s with siblings := queues } = s.dequeueChild index := by
        rw [State.dequeueChild, hdequeue]
      simp only [hdequeue] at hfirst
      subst dequeued
      simp only [hstate]
      rw [(destroy_mono front).1 hchild (Nat.le_max_left _ _)]
      exact (destroy_mono back).2 hrest (Nat.le_max_right _ _)

/-- The loop destroys the children of a task with all their descendants; the
bound `count` on their number carries the induction. -/
theorem exists_destroyChildren {index : ℤ}
    (hdeeper : ∀ child, depth index < depth child → Destroyable c depth child)
    (count : ℕ) :
    ∀ {s : State} {lists : Lists TaskQueue ℤ} {children : Lists ℤ ℤ},
      (children index).length ≤ count → InKernel s c lists →
      Family s detached children depth →
      (∀ other, InTable other → Allocated s other → detached other →
        depth other ≤ depth index) →
      ∃ fuel s' order,
        destroyChildren s index fuel = some s' ∧
        Reaped s c lists detached children depth order s' ∧
        reapedChildren children order index = [] ∧
        ∀ other ∈ order, Descends s index other ∧ depth index < depth other := by
  induction count with
  | zero =>
      intro s lists children hcount hkernel hfamily _
      have hempty : children index = [] :=
        List.length_eq_zero_iff.mp (Nat.le_zero.mp hcount)
      exact ⟨1, s, [], destroyChildren_nil 0 hfamily hempty,
        .refl hkernel hfamily, by simp [reapedChildren, hempty], by simp⟩
  | succ count ih =>
      intro s lists children hcount hkernel hfamily hdepth
      cases hqueue : children index with
      | nil =>
          exact ⟨1, s, [], destroyChildren_nil 0 hfamily hqueue,
            .refl hkernel hfamily, by simp [reapedChildren, hqueue], by simp⟩
      | cons child rest =>
          obtain ⟨front, s₁, first, hhandler, hreaped, hmem, hbelow⟩ :=
            exists_destroyChild hdeeper hkernel hfamily hdepth hqueue
          have hlive := allocated_reaped_iff hreaped.task
          have hshorter :
              (reapedChildren children first index).length ≤ count := by
            have hle := List.length_filter_le
              (fun index => decide (index ∉ first)) rest
            rw [hqueue, List.length_cons] at hcount
            simp only [reapedChildren, hqueue]
            rw [List.filter_cons_of_neg (by simpa using hmem)]
            omega
          obtain ⟨back, s₂, second, hrest, hreaped', hempty, hbelow'⟩ :=
            ih hshorter hreaped.inKernel hreaped.family
              fun other hother halloc hdetached =>
                hdepth other hother ((hlive other).mp halloc).1 hdetached
          refine ⟨_, s₂, first ++ second,
            destroyChildren_cons hfamily hqueue hhandler hrest,
            hreaped.trans hreaped', ?_, ?_⟩
          · rw [← reapedChildren_append]
            exact hempty
          · intro other hother
            rcases List.mem_append.mp hother with hother | hother
            · exact hbelow other hother
            · obtain ⟨hdescends, hdeep⟩ := hbelow' other hother
              refine ⟨hdescends.mono ?_ ?_, hdeep⟩
              · exact fun index halloc => ((hlive index).mp halloc).1
              · intro index
                rw [hreaped.task, parentTid_reapedTasks]

/-- A task is destroyed with its descendants, by induction on how far it lies
above the deepest task. -/
theorem destroyable {bound : ℕ} (hbound : ∀ index, InTable index → depth index ≤ bound)
    (count : ℕ) : ∀ index, bound < depth index + count → Destroyable c depth index := by
  induction count with
  | zero =>
      intro index hcount s lists detached children hkernel hfamily hindex
      have hle := hbound index hindex
      omega
  | succ count ih =>
      intro index hcount s lists detached children hkernel hfamily hindex halloc
        hself hdepth
      have hdeeper : ∀ child, depth index < depth child →
          Destroyable c depth child := by
        intro child hlt
        apply ih
        omega
      obtain ⟨fuel, s', order, hchildren, hreaped, hempty, hbelow⟩ :=
        exists_destroyChildren hdeeper _ (Nat.le_refl _) hkernel hfamily hdepth
      have hlive := allocated_reaped_iff hreaped.task
      have hnot : index ∉ order := by
        intro hmem
        exact Nat.lt_irrefl _ (hbelow index hmem).2
      refine ⟨fuel, s', order, hchildren, ?_, hbelow⟩
      have hgone : Reaped s' c (reapedLists s lists order) detached
          (reapedChildren children order) depth [index]
          (destroySelf s' (s'.task index).tid) :=
        hreaped.family.reaped_destroySelf hreaped.inKernel hindex
          ((hlive index).mpr ⟨halloc, hnot⟩) hself hempty
          fun other hother halloc' hdetached =>
            hdepth other hother ((hlive other).mp halloc').1 hdetached
      have htid : (s'.task index).tid = (s.task index).tid := by
        rw [hreaped.task, tid_reapedTasks]
      rw [htid] at hgone
      exact hreaped.trans hgone

end Recursion

/-! ## The call of a task -/

/-- The table is finite, so some depth is the greatest. -/
theorem exists_depth_bound (depth : ℤ → ℕ) :
    ∃ bound, ∀ index, InTable index → depth index ≤ bound := by
  have hcount : ∀ count : ℕ, ∃ bound, ∀ index : ℤ, 0 ≤ index → index < count →
      depth index ≤ bound := by
    intro count
    induction count with
    | zero => exact ⟨0, fun index hlow hhigh => by omega⟩
    | succ count ih =>
        obtain ⟨bound, hbound⟩ := ih
        refine ⟨max bound (depth count), fun index hlow hhigh => ?_⟩
        by_cases hlast : index = count
        · subst index
          exact Nat.le_max_right _ _
        · exact Nat.le_trans (hbound index hlow (by omega)) (Nat.le_max_left _ _)
  obtain ⟨bound, hbound⟩ := hcount 1024
  exact ⟨bound, fun index hindex => hbound index hindex.1 hindex.2⟩

section Root

variable {s s' : State} {c : ℤ} {lists : Lists TaskQueue ℤ}
  {children : Lists ℤ ℤ} {depth : ℤ → ℕ} {index : ℤ}

theorem Family.leaveParent (h : Family s Whole children depth) (index : ℤ) :
    Family (Kernel.leaveParent s index) (fun other => Whole other ∨ other = index)
      (children.erase index) depth := by
  have hmem : ∀ parent, index ∈ children parent →
      parent = slot (s.task index).parentTid := fun _ => h.eq_parent_of_mem
  have hkeeps : Keeps s (Kernel.leaveParent s index) := by
    apply Keeps.of_task_eq
    exact (Silent.useDescriptor s _).task
  have hsiblings : (Kernel.leaveParent s index).siblings =
      s.siblings.removeQueueNode (slot (s.task index).parentTid) index := by
    rw [Kernel.leaveParent]
    simp only [(Silent.useDescriptor s _).siblings]
  apply h.detach hkeeps
  · rw [hsiblings]
    exact h.represents.removeQueueNode h.tidy hmem
  · rw [hsiblings]
    exact h.represents.tidy_removeQueueNode h.tidy hmem

/-- `DestroyHandler` of a task in use frees it with its descendants.  The only
index it may use outside the table is that of a missing parent. -/
theorem exists_destroyHandler (hkernel : InKernel s c lists)
    (hfamily : Family s Whole children depth) (hindex : InTable index)
    (halloc : Allocated s index) :
    ∃ fuel s' order,
      destroyHandler s (s.task index).tid fuel = some (returnStatusOk, s') ∧
      Reaped (s.useDescriptor (slot (s.task index).parentTid)) c lists Whole
        children depth (order ++ [index]) s' ∧
      ∀ other ∈ order, Descends s index other ∧ depth index < depth other := by
  have htask : (leaveParent s index).task = s.task :=
    (Silent.useDescriptor s _).task
  have hleft : InKernel (leaveParent s index) c lists :=
    hkernel.congr htask (Silent.useDescriptor s _).currentTask
      (Silent.useDescriptor s _).taskQueues
  have hlive : ∀ other, Allocated (leaveParent s index) other ↔
      Allocated s other := by
    intro other
    rw [Allocated, Allocated, htask]
  obtain ⟨bound, hbound⟩ := exists_depth_bound depth
  have hdestroyable : Destroyable c depth index :=
    destroyable hbound (bound + 1) index (by omega)
  have hdetached : ∀ other, InTable other → Allocated (leaveParent s index) other →
      Whole other ∨ other = index → depth other ≤ depth index := by
    intro other _ _ hdetached
    exact Nat.le_of_eq (congrArg depth (hdetached.resolve_left id))
  obtain ⟨fuel, s', order, hchildren, hreaped, hbelow⟩ :=
    hdestroyable hleft (hfamily.leaveParent index) hindex ((hlive index).mpr halloc)
      (.inr rfl) hdetached
  have hvalid : isValidTid (s.task index).tid :=
    isValidTid_iff.mpr ⟨hkernel.named.tid_nonneg hindex halloc,
      hkernel.named.tid_le hindex halloc⟩
  rw [htask] at hreaped
  refine ⟨fuel + 1, destroySelf s' (s.task index).tid, order,
    destroyHandler_succ hvalid hindex (hkernel.named.slot_tid hindex halloc)
      hchildren,
    hreaped.of_unlinked hfamily.represents.nodup (by simp), ?_⟩
  intro other hother
  obtain ⟨hdescends, hdeep⟩ := hbelow other hother
  refine ⟨hdescends.mono (fun other => (hlive other).mp) ?_, hdeep⟩
  intro other
  rw [htask]

/-- The tasks that are destroyed with a task include its descendants. -/
theorem Reaped.mem_of_descends {order : List ℤ} {root other : ℤ}
    (h : Reaped s c lists Whole children depth order s') (hroot : root ∈ order)
    (hdescends : Descends s root other) : other ∈ order := by
  induction hdescends with
  | self => exact hroot
  | @child parent child _ hchild ih =>
      obtain ⟨hindex, halloc, hne, hslot⟩ := hchild
      by_contra hnot
      have hkept := (allocated_reaped_iff h.task child).mpr ⟨halloc, hnot⟩
      have hparent : (s'.task child).parentTid = (s.task child).parentTid := by
        rw [h.task, parentTid_reapedTasks]
      have hlive := h.family.parent_allocated hindex hkept (by rwa [hparent])
      rw [hparent, hslot] at hlive
      exact ((allocated_reaped_iff h.task parent).mp hlive).2 ih

end Root

end Rtk.Kernel
