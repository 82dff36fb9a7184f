import Mathlib.Data.List.Sort
import Mathlib.Tactic.SplitIfs
import Rtk.Core.ByteMemory

/-!
# The sorted list

`lib/sortedlist.c` over any type of nodes.  A list variable and the links of all
nodes form a heap; an insertion goes behind the nodes of equal priority.
-/

namespace Rtk.Lib

open Function
open Rtk.ByteMemory

structure SortedListNode (N : Type*) where
  next : Option N
  priority : Word

structure SortedList (N : Type*) where
  first : Option N
  node : N → SortedListNode N

section Operations

variable {N : Type*} [DecidableEq N]

def SortedList.setNext (l : SortedList N) (node : N) (next : Option N) : SortedList N :=
  { l with node := update l.node node { l.node node with next := next } }

/-- `*at`, where `at` points to the list variable or to the link of a node. -/
def SortedList.read (l : SortedList N) : Option N → Option N
  | none => l.first
  | some node => (l.node node).next

/-- `*at = next`. -/
def SortedList.write (l : SortedList N) (next : Option N) : Option N → SortedList N
  | none => { l with first := next }
  | some node => l.setNext node next

/-- The loop of `SortedListInsert` from `at` on, which is `none` when it has not ended
after `fuel` rounds. -/
def sortedListInsertFrom (l : SortedList N) (node : N) :
    ℕ → Option N → Option (SortedList N)
  | 0, _ => none
  | fuel + 1, at' =>
      match l.read at' with
      | none => some ((l.setNext node none).write (some node) at')
      | some here =>
          if (l.node node).priority.slt (l.node here).priority then
            some ((l.setNext node (some here)).write (some node) at')
          else if (l.node here).next = none then
            some ((l.setNext here (some node)).setNext node none)
          else sortedListInsertFrom l node fuel (some here)

def sortedListInsert (l : SortedList N) (node : N) (fuel : ℕ) : Option (SortedList N) :=
  sortedListInsertFrom l node fuel none

end Operations

/-! ## The list that the links represent -/

section Linked

variable {N : Type*}

/-- From `first` on the links run through the nodes and end. -/
def Linked (node : N → SortedListNode N) : Option N → List N → Prop
  | first, [] => first = none
  | first, head :: rest => first = some head ∧ Linked node (node head).next rest

theorem Linked.congr {node node' : N → SortedListNode N} {first : Option N}
    {nodes : List N} (h : Linked node first nodes)
    (hsame : ∀ index ∈ nodes, (node' index).next = (node index).next) :
    Linked node' first nodes := by
  induction nodes generalizing first with
  | nil => exact h
  | cons head rest ih =>
      obtain ⟨hfirst, hrest⟩ := h
      refine ⟨hfirst, ?_⟩
      rw [hsame head List.mem_cons_self]
      exact ih hrest fun index hindex => hsame index (List.mem_cons_of_mem _ hindex)

variable [DecidableEq N] {l : SortedList N} {node : N}

/-- `left` is strictly more urgent, as the comparison of the loop has it. -/
def SortedList.Before (l : SortedList N) (left right : N) : Prop :=
  (l.node left).priority.slt (l.node right).priority

instance (l : SortedList N) : DecidableRel l.Before :=
  fun _ _ => inferInstanceAs (Decidable (_ = true))

/-- What the loop leaves of a list when it inserts `node` behind `at`. -/
structure InsertedAt (l : SortedList N) (node : N) (at' : Option N) (nodes : List N)
    (l' : SortedList N) : Prop where
  linked : Linked l'.node (l'.read at') (nodes.orderedInsert l.Before node)
  priority : ∀ index, (l'.node index).priority = (l.node index).priority
  others : ∀ index, index ≠ node → index ∉ nodes → at' ≠ some index →
    l'.node index = l.node index
  first : at' ≠ none → l'.first = l.first

theorem setNext_self (l : SortedList N) (node : N) (next : Option N) :
    (l.setNext node next).node node = { l.node node with next := next } :=
  update_self _ _ _

theorem setNext_of_ne (l : SortedList N) {node index : N} (next : Option N)
    (hindex : index ≠ node) : (l.setNext node next).node index = l.node index :=
  update_of_ne hindex _ _

@[simp]
theorem priority_setNext (l : SortedList N) (node : N) (next : Option N) (index : N) :
    ((l.setNext node next).node index).priority = (l.node index).priority := by
  by_cases hindex : index = node
  · rw [hindex, setNext_self]
  · rw [setNext_of_ne l next hindex]

@[simp]
theorem next_setNext_self (l : SortedList N) (node : N) (next : Option N) :
    ((l.setNext node next).node node).next = next := by
  rw [setNext_self]

/-- Linking the node in front of the rest of the list. -/
theorem insertedAt_write {at' : Option N} {nodes : List N}
    (hlinked : Linked l.node (l.read at') nodes) (hnode : node ∉ nodes)
    (hat : ∀ index, at' = some index → index ≠ node ∧ index ∉ nodes)
    (hbefore : nodes.orderedInsert l.Before node = node :: nodes) :
    InsertedAt l node at' nodes ((l.setNext node (l.read at')).write (some node) at') := by
  cases at' with
  | none =>
      refine ⟨?_, priority_setNext l node _, ?_, fun hnot => absurd rfl hnot⟩
      · rw [hbefore]
        refine ⟨rfl, ?_⟩
        have hnext : (((l.setNext node l.first).write (some node) none).node node).next =
            l.first := next_setNext_self l node _
        rw [SortedList.read, hnext]
        apply hlinked.congr
        intro index hindex
        have hne : index ≠ node := ne_of_mem_of_not_mem hindex hnode
        have hsame : ((l.setNext node l.first).write (some node) none).node index =
            l.node index := setNext_of_ne l _ hne
        rw [hsame]
      · exact fun index hindex _ _ => setNext_of_ne l _ hindex
  | some here =>
      obtain ⟨hne, hfresh⟩ := hat here rfl
      have hother : ∀ index, index ≠ node → index ≠ here →
          ((l.setNext node (l.node here).next).setNext here (some node)).node index =
            l.node index := by
        intro index hindex hhere
        rw [setNext_of_ne _ _ hhere, setNext_of_ne _ _ hindex]
      refine ⟨?_, ?_, ?_, fun _ => rfl⟩
      · rw [hbefore, SortedList.write, SortedList.read, SortedList.read, next_setNext_self]
        refine ⟨rfl, ?_⟩
        rw [setNext_of_ne _ _ hne.symm, next_setNext_self]
        apply hlinked.congr
        intro index hindex
        rw [hother]
        · rintro rfl
          exact hnode hindex
        · rintro rfl
          exact hfresh hindex
      · intro index
        rw [SortedList.write, priority_setNext, priority_setNext]
      · intro index hindex _ hhere
        apply hother index hindex
        rintro rfl
        exact hhere rfl

theorem setNext_comm (l : SortedList N) {left right : N} (next next' : Option N)
    (hne : left ≠ right) :
    (l.setNext left next).setNext right next' =
      (l.setNext right next').setNext left next := by
  have hleft : (l.setNext right next').node left = l.node left := setNext_of_ne l _ hne
  have hright : (l.setNext left next).node right = l.node right :=
    setNext_of_ne l _ hne.symm
  rw [SortedList.setNext, hright, SortedList.setNext, SortedList.setNext, hleft,
    SortedList.setNext]
  simp only [update_comm hne]

omit [DecidableEq N] in
/-- What is inserted behind the head of a list is inserted into the list. -/
theorem InsertedAt.behind {l' : SortedList N} {at' : Option N} {head : N} {rest : List N}
    (h : InsertedAt l node (some head) rest l') (hread : l.read at' = some head)
    (hat : ∀ index, at' = some index → index ≠ node ∧ index ∉ head :: rest)
    (hbehind : ¬l.Before node head) : InsertedAt l node at' (head :: rest) l' where
  linked := by
    have hsame : l'.read at' = l.read at' := by
      cases at' with
      | none => exact h.first nofun
      | some here =>
          obtain ⟨hne, hfresh⟩ := hat here rfl
          rw [List.mem_cons, not_or] at hfresh
          have hother : some head ≠ some here := by
            rintro heq
            exact hfresh.1 (Option.some.inj heq).symm
          rw [SortedList.read, h.others here hne hfresh.2 hother]
          rfl
    rw [List.orderedInsert_of_not_le _ rest hbehind, hsame, hread]
    exact ⟨rfl, h.linked⟩
  priority := h.priority
  others := by
    intro index hindex hfresh _
    rw [List.mem_cons, not_or] at hfresh
    apply h.others index hindex hfresh.2
    rintro heq
    exact hfresh.1 (Option.some.inj heq).symm
  first _ := h.first nofun

theorem sortedListInsertFrom_of_some {at' : Option N} {head : N} (fuel : ℕ)
    (hread : l.read at' = some head) :
    sortedListInsertFrom l node (fuel + 1) at' =
      if (l.node node).priority.slt (l.node head).priority then
        some ((l.setNext node (some head)).write (some node) at')
      else if (l.node head).next = none then
        some ((l.setNext head (some node)).setNext node none)
      else sortedListInsertFrom l node fuel (some head) := by
  rw [sortedListInsertFrom, hread]

/-- The loop ends when it gets one round more than there are nodes. -/
theorem exists_sortedListInsertFrom {at' : Option N} {nodes : List N} {fuel : ℕ}
    (hlinked : Linked l.node (l.read at') nodes) (hnode : node ∉ nodes)
    (hnodup : nodes.Nodup)
    (hat : ∀ index, at' = some index → index ≠ node ∧ index ∉ nodes)
    (hfuel : nodes.length < fuel) :
    ∃ l', sortedListInsertFrom l node fuel at' = some l' ∧
      InsertedAt l node at' nodes l' := by
  induction nodes generalizing at' fuel with
  | nil =>
      cases fuel with
      | zero => omega
      | succ fuel =>
          have hread : l.read at' = none := hlinked
          have hinserted := insertedAt_write hlinked hnode hat rfl
          rw [hread] at hinserted
          refine ⟨_, ?_, hinserted⟩
          rw [sortedListInsertFrom, hread]
  | cons head rest ih =>
      cases fuel with
      | zero => omega
      | succ fuel =>
          have hread : l.read at' = some head := hlinked.1
          have hrest : Linked l.node (l.read (some head)) rest := hlinked.2
          rw [List.mem_cons, not_or] at hnode
          rw [List.nodup_cons] at hnodup
          rw [List.length_cons] at hfuel
          have hhead : ∀ index, some head = some index → index ≠ node ∧ index ∉ rest := by
            intro index heq
            obtain rfl := Option.some.inj heq
            exact ⟨Ne.symm hnode.1, hnodup.1⟩
          rw [sortedListInsertFrom_of_some fuel hread]
          by_cases hbefore : (l.node node).priority.slt (l.node head).priority
          · have hinserted := insertedAt_write hlinked
              (by rw [List.mem_cons, not_or]; exact hnode) hat
              (List.orderedInsert_cons_of_le _ rest hbefore)
            rw [hread] at hinserted
            rw [if_pos hbefore]
            exact ⟨_, rfl, hinserted⟩
          · rw [if_neg hbefore]
            by_cases hlast : (l.node head).next = none
            · have hnil : rest = [] := by
                cases rest with
                | nil => rfl
                | cons second tail =>
                    have hnext : (l.node head).next = some second := hrest.1
                    rw [hlast] at hnext
                    exact absurd hnext nofun
              subst hnil
              have hinserted := insertedAt_write hrest List.not_mem_nil hhead rfl
              have hlink : l.read (some head) = none := hlast
              rw [hlink, SortedList.write, setNext_comm l none _ hnode.1] at hinserted
              rw [if_pos hlast]
              exact ⟨_, rfl, hinserted.behind hread hat hbefore⟩
            · rw [if_neg hlast]
              obtain ⟨l', hinsert, hinserted⟩ :=
                ih hrest hnode.2 hnodup.2 hhead (Nat.lt_of_succ_lt_succ hfuel)
              exact ⟨l', hinsert, hinserted.behind hread hat hbefore⟩

/-- More rounds do not change the outcome. -/
theorem sortedListInsertFrom_add {at' : Option N} {l' : SortedList N} {fuel : ℕ}
    (hinsert : sortedListInsertFrom l node fuel at' = some l') (more : ℕ) :
    sortedListInsertFrom l node (fuel + more) at' = some l' := by
  induction fuel generalizing at' with
  | zero => simp [sortedListInsertFrom] at hinsert
  | succ fuel ih =>
      rw [Nat.succ_add]
      cases hread : l.read at' with
      | none =>
          rw [sortedListInsertFrom, hread] at hinsert ⊢
          exact hinsert
      | some head =>
          rw [sortedListInsertFrom_of_some _ hread] at hinsert ⊢
          split_ifs at hinsert ⊢
          · exact hinsert
          · exact hinsert
          · exact ih hinsert

theorem sortedListInsert_unique {left right : SortedList N} {fuel fuel' : ℕ}
    (hleft : sortedListInsert l node fuel = some left)
    (hright : sortedListInsert l node fuel' = some right) : left = right := by
  have hmore := sortedListInsertFrom_add hleft fuel'
  have hmore' := sortedListInsertFrom_add hright fuel
  rw [Nat.add_comm, hmore, Option.some.injEq] at hmore'
  exact hmore'

/-- `SortedListInsert` of a node that is not in the list. -/
theorem exists_sortedListInsert {nodes : List N} {fuel : ℕ}
    (hlinked : Linked l.node l.first nodes) (hnode : node ∉ nodes)
    (hnodup : nodes.Nodup) (hfuel : nodes.length < fuel) :
    ∃ l', sortedListInsert l node fuel = some l' ∧
      Linked l'.node l'.first (nodes.orderedInsert l.Before node) ∧
      ∀ index, (l'.node index).priority = (l.node index).priority := by
  obtain ⟨l', hinsert, hinserted⟩ :=
    @exists_sortedListInsertFrom _ _ l node none nodes fuel hlinked hnode hnodup nofun hfuel
  exact ⟨l', hinsert, hinserted.linked, hinserted.priority⟩

end Linked

/-! ## The order of arrival -/

/-- Inserting the latest element keeps a list in order, when the insertion goes in
front of exactly the elements that it is to precede. -/
theorem pairwise_orderedInsert {A : Type*} {before earlier : A → A → Prop}
    [DecidableRel before] {elements : List A} {new : A}
    (hsorted : elements.Pairwise earlier)
    (hbefore : ∀ element ∈ elements, before new element → earlier new element)
    (hafter : ∀ element ∈ elements, ¬before new element → earlier element new)
    (htrans : ∀ {left right}, before new left → earlier left right → before new right) :
    (elements.orderedInsert before new).Pairwise earlier := by
  induction elements with
  | nil => simp
  | cons head rest ih =>
      rw [List.pairwise_cons] at hsorted
      by_cases hhead : before new head
      · rw [List.orderedInsert_cons_of_le _ rest hhead, List.pairwise_cons,
          List.pairwise_cons]
        refine ⟨?_, hsorted⟩
        intro element helement
        apply hbefore element helement
        rcases List.mem_cons.mp helement with rfl | hrest
        · exact hhead
        · exact htrans hhead (hsorted.1 element hrest)
      · rw [List.orderedInsert_of_not_le _ rest hhead, List.pairwise_cons]
        constructor
        · intro element helement
          rcases (List.mem_orderedInsert before).mp helement with rfl | hrest
          · exact hafter head List.mem_cons_self hhead
          · exact hsorted.1 element hrest
        · exact ih hsorted.2
            (fun element helement => hbefore element (List.mem_cons_of_mem _ helement))
            (fun element helement => hafter element (List.mem_cons_of_mem _ helement))

end Rtk.Lib
