import Rtk.Invariant.Frame

/-!
# The family of tasks

Every task in use except the first two is linked in the `children` queue of its
parent.  While `DestroyHandler` walks the tree, the tasks it is about to destroy
are detached: still in use but already taken out of their parent's queue.
-/

namespace Rtk.Kernel

open Function
open Rtk.ByteMemory
open Rtk.Lib

/-- The parent of a task in use is in use and was created before it, which
`depth` records. -/
structure Ancestry (s : State) (depth : ℤ → ℕ) : Prop where
  parent_nonneg : ∀ {child}, InTable child → Allocated s child →
    (s.task child).parentTid ≠ -1 → 0 ≤ (s.task child).parentTid
  parent_allocated : ∀ {child}, InTable child → Allocated s child →
    (s.task child).parentTid ≠ -1 → Allocated s (slot (s.task child).parentTid)
  parent_tid : ∀ {child}, InTable child → Allocated s child →
    (s.task child).parentTid ≠ -1 →
    (s.task (slot (s.task child).parentTid)).tid = (s.task child).parentTid
  depth_lt : ∀ {child}, InTable child → Allocated s child →
    (s.task child).parentTid ≠ -1 →
    depth (slot (s.task child).parentTid) < depth child

/-- The children queues hold the tasks in use that are not detached, each with
its parent. -/
structure Family (s : State) (detached : ℤ → Prop) (children : Lists ℤ ℤ)
    (depth : ℤ → ℕ) : Prop extends Ancestry s depth where
  represents : Represents s.siblings children
  tidy : Tidy s.siblings children
  mem_iff : ∀ {parent child}, child ∈ children parent ↔
    InTable child ∧ Allocated s child ∧ ¬detached child ∧
      (s.task child).parentTid ≠ -1 ∧ parent = slot (s.task child).parentTid

/-- No task is detached, as between two destructions. -/
abbrev Whole : ℤ → Prop := fun _ => False

/-- Parents depend on which tasks are in use, their tids and parents. -/
theorem Ancestry.congr {s s' : State} {depth : ℤ → ℕ} (h : Ancestry s depth)
    (hkeeps : Keeps s s') : Ancestry s' depth where
  parent_nonneg := by
    intro child hchild halloc
    rw [hkeeps.parentTid]
    exact h.parent_nonneg hchild ((hkeeps.allocated_iff _).mp halloc)
  parent_allocated := by
    intro child hchild halloc
    rw [hkeeps.parentTid, hkeeps.allocated_iff]
    exact h.parent_allocated hchild ((hkeeps.allocated_iff _).mp halloc)
  parent_tid := by
    intro child hchild halloc
    rw [hkeeps.parentTid, hkeeps.tid]
    exact h.parent_tid hchild ((hkeeps.allocated_iff _).mp halloc)
  depth_lt := by
    intro child hchild halloc
    rw [hkeeps.parentTid]
    exact h.depth_lt hchild ((hkeeps.allocated_iff _).mp halloc)

section Family

variable {s s' : State} {detached : ℤ → Prop} {children : Lists ℤ ℤ}
  {depth : ℤ → ℕ}

theorem Family.congr (h : Family s detached children depth)
    (hkeeps : Keeps s s') (hsiblings : s'.siblings = s.siblings) :
    Family s' detached children depth where
  toAncestry := h.toAncestry.congr hkeeps
  represents := by
    rw [hsiblings]
    exact h.represents
  tidy := by
    rw [hsiblings]
    exact h.tidy
  mem_iff := by
    intro parent child
    rw [h.mem_iff, hkeeps.allocated_iff, hkeeps.parentTid]

/-- Whether a task that is not in use counts as detached is immaterial. -/
theorem Family.congr_detached (h : Family s detached children depth)
    {detached' : ℤ → Prop}
    (hdetached : ∀ child, InTable child → Allocated s child →
      (detached child ↔ detached' child)) :
    Family s detached' children depth where
  toAncestry := h.toAncestry
  represents := h.represents
  tidy := h.tidy
  mem_iff := by
    intro parent child
    rw [h.mem_iff]
    constructor
    · rintro ⟨hchild, halloc, hnot, hparent⟩
      exact ⟨hchild, halloc, fun hdet =>
        hnot ((hdetached child hchild halloc).mpr hdet), hparent⟩
    · rintro ⟨hchild, halloc, hnot, hparent⟩
      exact ⟨hchild, halloc, fun hdet =>
        hnot ((hdetached child hchild halloc).mp hdet), hparent⟩

theorem Family.not_mem_of_not_allocated (h : Family s detached children depth)
    {index : ℤ} (halloc : ¬Allocated s index) (parent : ℤ) :
    index ∉ children parent := by
  rw [h.mem_iff]
  exact fun hmem => halloc hmem.2.1

/-- A descriptor that is not in use has no children. -/
theorem Family.children_of_not_allocated (h : Family s detached children depth)
    {index : ℤ} (halloc : ¬Allocated s index) : children index = [] := by
  rw [List.eq_nil_iff_forall_not_mem]
  intro child hmem
  obtain ⟨hchild, hlive, _, hparent, hindex⟩ := h.mem_iff.mp hmem
  rw [hindex] at halloc
  exact halloc (h.parent_allocated hchild hlive hparent)

/-- A task is linked with its own parent if at all. -/
theorem Family.eq_parent_of_mem (h : Family s detached children depth)
    {child parent : ℤ} (hmem : child ∈ children parent) :
    parent = slot (s.task child).parentTid :=
  (h.mem_iff.mp hmem).2.2.2.2

theorem Family.depth_lt_of_mem (h : Family s detached children depth)
    {child parent : ℤ} (hmem : child ∈ children parent) :
    depth parent < depth child := by
  obtain ⟨hchild, halloc, _, hparent, rfl⟩ := h.mem_iff.mp hmem
  exact h.depth_lt hchild halloc hparent

/-- Taking a task out of its parent's queue detaches it. -/
theorem Family.detach (h : Family s detached children depth) {index : ℤ}
    (hkeeps : Keeps s s')
    (hrep : Represents s'.siblings (children.erase index))
    (htidy : Tidy s'.siblings (children.erase index)) :
    Family s' (fun other => detached other ∨ other = index)
      (children.erase index) depth where
  toAncestry := h.toAncestry.congr hkeeps
  represents := hrep
  tidy := htidy
  mem_iff := by
    intro parent child
    rw [h.represents.mem_erase_iff, h.mem_iff, hkeeps.allocated_iff,
      hkeeps.parentTid]
    tauto

end Family

/-- A parent and its child, both of them in use. -/
def IsChild (s : State) (parent child : ℤ) : Prop :=
  InTable child ∧ Allocated s child ∧ (s.task child).parentTid ≠ -1 ∧
    slot (s.task child).parentTid = parent

inductive Descends (s : State) (root : ℤ) : ℤ → Prop
  | self : Descends s root root
  | child {parent child : ℤ} (path : Descends s root parent)
      (hchild : IsChild s parent child) : Descends s root child

theorem Descends.trans {s : State} {root middle index : ℤ}
    (hleft : Descends s root middle) (hright : Descends s middle index) :
    Descends s root index := by
  induction hright with
  | self => exact hleft
  | child _ hchild ih => exact ih.child hchild

/-- Descendants of a later state, in which fewer tasks are in use, are
descendants. -/
theorem Descends.mono {s s' : State} {root index : ℤ}
    (hdescends : Descends s' root index)
    (halloc : ∀ other, Allocated s' other → Allocated s other)
    (hparent : ∀ other, (s'.task other).parentTid = (s.task other).parentTid) :
    Descends s root index := by
  induction hdescends with
  | self => exact .self
  | child _ hchild ih =>
      obtain ⟨hindex, hlive, hne, hslot⟩ := hchild
      rw [hparent] at hne hslot
      exact ih.child ⟨hindex, halloc _ hlive, hne, hslot⟩

/-- The tasks decide who descends from whom. -/
theorem descends_congr {s s' : State} (htask : s'.task = s.task) {root index : ℤ} :
    Descends s' root index ↔ Descends s root index := by
  constructor
  · intro hdescends
    apply hdescends.mono <;> simp [Allocated, htask]
  · intro hdescends
    apply hdescends.mono <;> simp [Allocated, htask]

end Rtk.Kernel
