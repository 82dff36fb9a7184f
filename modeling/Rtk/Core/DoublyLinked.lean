import Mathlib.Data.List.Basic

/-!
# Doubly linked chains

A chain is described by two partial maps: the successor and the predecessor of
a node.  A list is chained when the two maps name the list neighbours of each
of its nodes.  This file states how a chain grows at its end, loses a node, and
that the successor map alone determines it.
-/

namespace Rtk.DoublyLinked

variable {N : Type*}

/-- The maps `next` and `prev` link the listed nodes in order.  The predecessor
of the first node is `before`, which is `none` for a complete queue and a
dangling node for one whose first back link is stale. -/
def Chained (next prev : N → Option N) : Option N → List N → Prop
  | _, [] => True
  | before, node :: nodes =>
      next node = nodes.head? ∧ prev node = before ∧
        Chained next prev (some node) nodes

/-- Only the links of the chained nodes matter. -/
theorem Chained.congr {next prev next' prev' : N → Option N}
    {before : Option N} {nodes : List N}
    (hchain : Chained next prev before nodes)
    (hnext : ∀ node ∈ nodes, next' node = next node)
    (hprev : ∀ node ∈ nodes, prev' node = prev node) :
    Chained next' prev' before nodes := by
  induction nodes generalizing before with
  | nil => trivial
  | cons first rest ih =>
      obtain ⟨hfirst, hbefore, hrest⟩ := hchain
      refine ⟨?_, ?_, ih hrest ?_ ?_⟩
      · rw [hnext first (by simp), hfirst]
      · rw [hprev first (by simp), hbefore]
      · exact fun node hnode => hnext node (by simp [hnode])
      · exact fun node hnode => hprev node (by simp [hnode])

/-- Two chains over one successor map that start at the same node are the same
list. -/
theorem Chained.eq_of_head {next prev prev' : N → Option N}
    {before before' : Option N} {left right : List N}
    (hleft : Chained next prev before left)
    (hright : Chained next prev' before' right)
    (hhead : left.head? = right.head?) : left = right := by
  induction left generalizing before before' right with
  | nil =>
      cases right with
      | nil => rfl
      | cons first rest => simp at hhead
  | cons node nodes ih =>
      cases right with
      | nil => simp at hhead
      | cons first rest =>
          simp only [List.head?_cons, Option.some.injEq] at hhead
          subst first
          obtain ⟨hnext, _, hnodes⟩ := hleft
          obtain ⟨hnext', _, hrest⟩ := hright
          rw [ih hnodes hrest (hnext.symm.trans hnext')]

/-- The listed nodes have the same neighbours in any two chains. -/
theorem Chained.agree {next prev next' prev' : N → Option N} {before : Option N}
    {nodes : List N} (hchain : Chained next prev before nodes)
    (hchain' : Chained next' prev' before nodes) {node : N} (hnode : node ∈ nodes) :
    next node = next' node ∧ prev node = prev' node := by
  induction nodes generalizing before with
  | nil => exact absurd hnode List.not_mem_nil
  | cons first rest ih =>
      obtain ⟨hnext, hprev, hrest⟩ := hchain
      obtain ⟨hnext', hprev', hrest'⟩ := hchain'
      rcases List.mem_cons.mp hnode with rfl | hnode
      · exact ⟨hnext.trans hnext'.symm, hprev.trans hprev'.symm⟩
      · exact ih hrest hrest' hnode

private theorem getLast?_cons_or (first : N) (rest : List N)
    (before : Option N) :
    (first :: rest).getLast?.or before = rest.getLast?.or (some first) := by
  rw [List.getLast?_cons]
  cases rest.getLast? <;> rfl

private theorem getLast?_cons_of_mem {first node : N} {rest : List N}
    (hnode : node ∈ rest) :
    (first :: rest).getLast? = rest.getLast? := by
  cases rest with
  | nil => simp at hnode
  | cons second tail => exact List.getLast?_cons_cons

/-- The node a chain continues with: the successors inside a chain are the
list successors. -/
theorem Chained.next_of_split {next prev : N → Option N} {before : Option N}
    {front back : List N} {node : N}
    (hchain : Chained next prev before (front ++ node :: back)) :
    next node = back.head? ∧ prev node = front.getLast?.or before := by
  induction front generalizing before with
  | nil =>
      obtain ⟨hnext, hprev, _⟩ := hchain
      exact ⟨hnext, by simpa using hprev⟩
  | cons first rest ih =>
      rw [getLast?_cons_or]
      exact ih hchain.2.2

variable [DecidableEq N]

omit [DecidableEq N] in
/-- The first of several nodes is not the last one. -/
theorem getLast?_cons_cons_ne {first second : N} {tail : List N}
    (hfresh : first ∉ second :: tail) :
    (first :: second :: tail).getLast? ≠ some first := by
  rw [List.getLast?_cons_cons]
  intro hlast
  exact hfresh (List.mem_of_getLast? hlast)

/-- A chain grows at its end: the old last node points to the new one, which
points back to it and nowhere on. -/
theorem Chained.concat {next prev next' prev' : N → Option N}
    {before : Option N} {nodes : List N} {node : N}
    (hchain : Chained next prev before nodes)
    (hnodup : nodes.Nodup)
    (hnext : ∀ other ∈ nodes,
      next' other = if nodes.getLast? = some other then some node else next other)
    (hprev : ∀ other ∈ nodes, prev' other = prev other)
    (hnode : next' node = none)
    (hback : prev' node = nodes.getLast?.or before) :
    Chained next' prev' before (nodes ++ [node]) := by
  induction nodes generalizing before with
  | nil => exact ⟨hnode, by simpa using hback, trivial⟩
  | cons first rest ih =>
      obtain ⟨hfirst, hbefore, hrest⟩ := hchain
      obtain ⟨hfresh, hnodup⟩ := List.nodup_cons.mp hnodup
      refine ⟨?_, ?_, ih hrest hnodup ?_ ?_ ?_⟩
      · rw [hnext first (by simp)]
        cases rest with
        | nil => simp
        | cons second tail =>
            rw [if_neg (getLast?_cons_cons_ne hfresh), hfirst]
            rfl
      · rw [hprev first (by simp), hbefore]
      · intro other hother
        rw [hnext other (by simp [hother]), getLast?_cons_of_mem hother]
      · exact fun other hother => hprev other (by simp [hother])
      · rw [hback, getLast?_cons_or]

/-- A chain loses its first node: the back link of the next one is reset. -/
theorem Chained.tail {next prev next' prev' : N → Option N}
    {before before' : Option N} {nodes : List N} {node : N}
    (hchain : Chained next prev before (node :: nodes))
    (hnodup : nodes.Nodup)
    (hnext : ∀ other ∈ nodes, next' other = next other)
    (hprev : ∀ other ∈ nodes,
      prev' other = if nodes.head? = some other then before' else prev other) :
    Chained next' prev' before' nodes := by
  cases nodes with
  | nil => trivial
  | cons first rest =>
      obtain ⟨_, _, hfirst, _, hrest⟩ := hchain
      obtain ⟨hfresh, _⟩ := List.nodup_cons.mp hnodup
      refine ⟨?_, ?_, hrest.congr ?_ ?_⟩
      · rw [hnext first (by simp), hfirst]
      · rw [hprev first (by simp)]
        simp
      · exact fun other hother => hnext other (by simp [hother])
      · intro other hother
        have hne : (first :: rest).head? ≠ some other := by
          rintro ⟨⟩
          exact hfresh hother
        rw [hprev other (by simp [hother]), if_neg hne]

/-- A chain loses a node: its two neighbours are linked past it. -/
theorem Chained.remove {next prev next' prev' : N → Option N}
    {before : Option N} {front back : List N} {node : N}
    (hchain : Chained next prev before (front ++ node :: back))
    (hnodup : (front ++ node :: back).Nodup)
    (hfrontNext : ∀ other ∈ front,
      next' other =
        if front.getLast? = some other then back.head? else next other)
    (hbackNext : ∀ other ∈ back, next' other = next other)
    (hfrontPrev : ∀ other ∈ front, prev' other = prev other)
    (hbackPrev : ∀ other ∈ back,
      prev' other =
        if back.head? = some other then front.getLast?.or before
        else prev other) :
    Chained next' prev' before (front ++ back) := by
  induction front generalizing before with
  | nil =>
      exact hchain.tail (List.nodup_cons.mp hnodup).2 hbackNext
        (by simpa using hbackPrev)
  | cons first rest ih =>
      obtain ⟨hfirst, hbefore, hrest⟩ := hchain
      obtain ⟨hfresh, hnodup⟩ := List.nodup_cons.mp hnodup
      refine ⟨?_, ?_, ih hrest hnodup ?_ ?_ ?_⟩
      · rw [hfrontNext first (by simp)]
        cases rest with
        | nil => simp
        | cons second tail =>
            have hne := getLast?_cons_cons_ne fun hmem =>
              hfresh (List.mem_append_left (node :: back) hmem)
            rw [if_neg hne, hfirst]
            rfl
      · rw [hfrontPrev first (by simp), hbefore]
      · intro other hother
        rw [hfrontNext other (by simp [hother]), getLast?_cons_of_mem hother]
      · exact fun other hother => hfrontPrev other (by simp [hother])
      · intro other hother
        rw [hbackPrev other hother, getLast?_cons_or]

end Rtk.DoublyLinked
