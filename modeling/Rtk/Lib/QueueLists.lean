import Rtk.Lib.Queue

/-!
# Queues as lists

`Represents heap lists` says that the links of a `QueueHeap` spell out one list
for each queue and that no node is in two of them.  The three functions of
`lib/queue.c` then act on these lists: `EnqueueQueue` appends, and
`DequeueQueue` and `RemoveQueueNode` erase.
-/

namespace Rtk.Lib

open Function
open Rtk.DoublyLinked
open Rtk.Lib.QueueHeap

variable {Q N : Type*} [DecidableEq Q] [DecidableEq N]

/-- The links of `queue` spell out `nodes`.  The back link of the first node is
`before`. -/
structure Holds (heap : QueueHeap Q N) (queue : Q) (before : Option N)
    (nodes : List N) : Prop where
  first : (heap.queue queue).first = nodes.head?
  last : (heap.queue queue).last = nodes.getLast?
  chained : Chained (fun node => (heap.node node).next)
    (fun node => (heap.node node).prev) before nodes
  nodup : nodes.Nodup

def Contents (heap : QueueHeap Q N) (queue : Q) (nodes : List N) : Prop :=
  Holds heap queue none nodes

abbrev Lists (Q N : Type*) := Q → List N

namespace Lists

def append (lists : Lists Q N) (queue : Q) (node : N) : Lists Q N :=
  update lists queue (lists queue ++ [node])

def erase (lists : Lists Q N) (node : N) : Lists Q N :=
  fun queue => (lists queue).erase node

omit [DecidableEq N] in
@[simp]
theorem append_self (lists : Lists Q N) (queue : Q) (node : N) :
    lists.append queue node queue = lists queue ++ [node] := by
  simp [append]

omit [DecidableEq N] in
@[simp]
theorem append_of_ne (lists : Lists Q N) {queue other : Q} (node : N)
    (hother : other ≠ queue) : lists.append queue node other = lists other := by
  simp [append, hother]

omit [DecidableEq N] in
@[simp]
theorem mem_append_iff {lists : Lists Q N} {queue other : Q} {node member : N} :
    member ∈ lists.append queue node other ↔
      member ∈ lists other ∨ other = queue ∧ member = node := by
  by_cases hother : other = queue
  · subst other
    simp
  · simp [hother]

/-- A node that joins a queue and leaves again leaves no trace. -/
theorem erase_append {lists : Lists Q N} {queue : Q} {node : N}
    (hnode : ∀ other, node ∉ lists other) :
    (lists.append queue node).erase node = lists := by
  funext other
  by_cases hother : other = queue
  · subst other
    rw [erase, append_self, List.erase_append_right _ (hnode queue)]
    simp
  · rw [erase, append_of_ne _ _ hother]
    exact List.erase_of_not_mem (hnode other)

omit [DecidableEq Q] in
theorem erase_of_not_mem {lists : Lists Q N} {node : N} {queue : Q}
    (hnode : node ∉ lists queue) : lists.erase node queue = lists queue :=
  List.erase_of_not_mem hnode

end Lists

/-- The heap is the given family of disjoint lists. -/
structure Represents (heap : QueueHeap Q N) (lists : Lists Q N) : Prop where
  contents : ∀ queue, Contents heap queue (lists queue)
  disjoint : ∀ {queue other node},
    node ∈ lists queue → node ∈ lists other → queue = other

/-- A node in no queue has `NULL` links. -/
def Tidy (heap : QueueHeap Q N) (lists : Lists Q N) : Prop :=
  ∀ node, (∀ queue, node ∉ lists queue) → heap.node node = QueueNode.null

omit [DecidableEq Q] [DecidableEq N] in
/-- The content of a queue is determined by its links. -/
theorem Contents.unique {heap : QueueHeap Q N} {queue : Q} {left right : List N}
    (hleft : Contents heap queue left) (hright : Contents heap queue right) :
    left = right :=
  hleft.chained.eq_of_head hright.chained (hleft.first.symm.trans hright.first)

omit [DecidableEq Q] [DecidableEq N] in
/-- The links of a heap represent one family of lists. -/
theorem Represents.unique {heap : QueueHeap Q N} {lists lists' : Lists Q N}
    (hrep : Represents heap lists) (hrep' : Represents heap lists') : lists = lists' := by
  funext queue
  exact (hrep.contents queue).unique (hrep'.contents queue)

omit [DecidableEq Q] [DecidableEq N] in
/-- The lists determine the links, when nodes in no list have none. -/
theorem Represents.heap_eq {heap heap' : QueueHeap Q N} {lists : Lists Q N}
    (hrep : Represents heap lists) (htidy : Tidy heap lists)
    (hrep' : Represents heap' lists) (htidy' : Tidy heap' lists) : heap = heap' := by
  have hqueue : heap.queue = heap'.queue := by
    funext queue
    apply Queue.ext
    · rw [(hrep.contents queue).first, (hrep'.contents queue).first]
    · rw [(hrep.contents queue).last, (hrep'.contents queue).last]
  have hnode : heap.node = heap'.node := by
    funext node
    by_cases hlinked : ∃ queue, node ∈ lists queue
    · obtain ⟨queue, hmem⟩ := hlinked
      obtain ⟨hnext, hprev⟩ :=
        (hrep.contents queue).chained.agree (hrep'.contents queue).chained hmem
      exact QueueNode.ext hnext hprev
    · have hfree : ∀ queue, node ∉ lists queue := fun queue hmem =>
        hlinked ⟨queue, hmem⟩
      rw [htidy node hfree, htidy' node hfree]
  cases heap
  cases heap'
  obtain rfl := hqueue
  obtain rfl := hnode
  rfl

omit [DecidableEq Q] [DecidableEq N] in
theorem Represents.nodup {heap : QueueHeap Q N} {lists : Lists Q N}
    (hrep : Represents heap lists) (queue : Q) : (lists queue).Nodup :=
  (hrep.contents queue).nodup

omit [DecidableEq Q] in
@[simp]
theorem Represents.mem_erase_iff {heap : QueueHeap Q N} {lists : Lists Q N}
    (hrep : Represents heap lists) {queue : Q} {node member : N} :
    member ∈ lists.erase node queue ↔ member ∈ lists queue ∧ member ≠ node := by
  rw [Lists.erase, (hrep.nodup queue).mem_erase_iff, and_comm]

omit [DecidableEq Q] [DecidableEq N] in
/-- A queue whose nodes and ends keep their links keeps its content. -/
theorem Holds.congr {heap heap' : QueueHeap Q N} {queue : Q}
    {before : Option N} {nodes : List N} (hholds : Holds heap queue before nodes)
    (hqueue : heap'.queue queue = heap.queue queue)
    (hnode : ∀ node ∈ nodes, heap'.node node = heap.node node) :
    Holds heap' queue before nodes where
  first := by rw [hqueue, hholds.first]
  last := by rw [hqueue, hholds.last]
  chained := hholds.chained.congr
    (fun node hmem => by simp only [hnode node hmem])
    (fun node hmem => by simp only [hnode node hmem])
  nodup := hholds.nodup

/-! ## `EnqueueQueue` -/

/-- A node in no place of the queue joins its end.  The back link of the first
node may be stale. -/
theorem Holds.enqueueQueue {heap : QueueHeap Q N} {queue : Q}
    {before : Option N} {nodes : List N} {node : N}
    (hholds : Holds heap queue before nodes) (hnode : node ∉ nodes) :
    Holds (heap.enqueueQueue queue node) queue
      (if nodes = [] then none else before) (nodes ++ [node]) where
  first := by
    rw [queue_enqueueQueue, if_pos rfl, hholds.first]
    cases nodes <;> rfl
  last := by
    rw [queue_enqueueQueue, if_pos rfl]
    simp
  chained := by
    have hne : ∀ other ∈ nodes, other ≠ node := by
      rintro other hother rfl
      exact hnode hother
    by_cases hempty : nodes = []
    · subst nodes
      have hlast : (heap.queue queue).last = none := by simp [hholds.last]
      refine ⟨?_, ?_, trivial⟩ <;> simp [node_enqueueQueue, hlast]
    · rw [if_neg hempty]
      refine hholds.chained.concat hholds.nodup ?_ ?_ ?_ ?_
      · intro other hother
        rw [node_enqueueQueue, if_neg (hne other hother), hholds.last]
        split_ifs <;> rfl
      · intro other hother
        rw [node_enqueueQueue, if_neg (hne other hother), hholds.last]
        split_ifs <;> rfl
      · simp [node_enqueueQueue]
      · have hlast : nodes.getLast? ≠ none := by simpa using hempty
        obtain ⟨last, hlast⟩ := Option.ne_none_iff_exists'.mp hlast
        simp [node_enqueueQueue, hholds.last, hlast]
  nodup := by
    rw [List.nodup_append]
    refine ⟨hholds.nodup, by simp, ?_⟩
    rintro other hother member hmember rfl
    rw [List.mem_singleton] at hmember
    exact hnode (hmember ▸ hother)

/-- `EnqueueQueue` of a node that is in no queue appends it. -/
theorem Represents.enqueueQueue {heap : QueueHeap Q N} {lists : Lists Q N}
    {queue : Q} {node : N} (hrep : Represents heap lists)
    (hnode : ∀ other, node ∉ lists other) :
    Represents (heap.enqueueQueue queue node) (lists.append queue node) where
  contents := by
    intro other
    by_cases hother : other = queue
    · subst other
      have hholds := (hrep.contents queue).enqueueQueue (hnode queue)
      rw [ite_self] at hholds
      rw [Lists.append_self]
      exact hholds
    · rw [Lists.append_of_ne _ _ hother]
      refine (hrep.contents other).congr ?_ ?_
      · rw [queue_enqueueQueue, if_neg hother]
      · intro member hmember
        have hne : member ≠ node := ne_of_mem_of_not_mem hmember (hnode other)
        have hlast : (heap.queue queue).last ≠ some member := by
          rw [(hrep.contents queue).last]
          intro hlast
          exact hother (hrep.disjoint hmember (List.mem_of_getLast? hlast))
        rw [node_enqueueQueue, if_neg hne, if_neg hlast]
  disjoint := by
    intro left right member hleft hright
    rw [Lists.mem_append_iff] at hleft hright
    rcases hleft with hleft | ⟨rfl, rfl⟩
    · rcases hright with hright | ⟨_, rfl⟩
      · exact hrep.disjoint hleft hright
      · exact absurd hleft (hnode left)
    · rcases hright with hright | ⟨rfl, _⟩
      · exact absurd hright (hnode right)
      · rfl

theorem Represents.tidy_enqueueQueue {heap : QueueHeap Q N} {lists : Lists Q N}
    {queue : Q} {node : N} (hrep : Represents heap lists)
    (htidy : Tidy heap lists) :
    Tidy (heap.enqueueQueue queue node) (lists.append queue node) := by
  intro member hmember
  simp only [Lists.mem_append_iff, not_or, not_and] at hmember
  have hne : member ≠ node := (hmember queue).2 rfl
  have hlast : (heap.queue queue).last ≠ some member := by
    rw [(hrep.contents queue).last]
    intro hlast
    exact (hmember queue).1 (List.mem_of_getLast? hlast)
  rw [node_enqueueQueue, if_neg hne, if_neg hlast]
  exact htidy member fun other => (hmember other).1

/-! ## `DequeueQueue` -/

/-- The head leaves the queue, and the back link of the next node, stale or
not, is cleared. -/
theorem Holds.dequeueQueue {heap : QueueHeap Q N} {queue : Q}
    {before : Option N} {nodes : List N} {node : N}
    (hholds : Holds heap queue before (node :: nodes)) :
    (heap.dequeueQueue queue).1 = some node ∧
      Holds (heap.dequeueQueue queue).2 queue none nodes := by
  have hfirst : (heap.queue queue).first = some node := hholds.first
  obtain ⟨hnext, _, hchain⟩ := hholds.chained
  obtain ⟨hfresh, hnodup⟩ := List.nodup_cons.mp hholds.nodup
  have hne : ∀ other ∈ nodes, other ≠ node := by
    rintro other hother rfl
    exact hfresh hother
  have hnode : ∀ other ∈ nodes, (heap.dequeueQueue queue).2.node other =
      if nodes.head? = some other then ⟨(heap.node other).next, none⟩
      else heap.node other := by
    intro other hother
    rw [node_dequeueQueue heap queue node other hfirst,
      if_neg (hne other hother), ← hnext]
  refine ⟨by rw [fst_dequeueQueue, hfirst], ?_, ?_, ?_, hnodup⟩
  · rw [queue_dequeueQueue heap queue node hfirst, if_pos rfl]
    exact hnext
  · rw [queue_dequeueQueue heap queue node hfirst, if_pos rfl, hholds.last]
    cases nodes with
    | nil => simp
    | cons second tail =>
        have hlast : (node :: second :: tail).getLast? ≠ some node := by
          rw [List.getLast?_cons_cons]
          intro hlast
          exact hfresh (List.mem_of_getLast? hlast)
        rw [if_neg hlast, List.getLast?_cons_cons]
  · refine hholds.chained.tail hnodup ?_ ?_
    · intro other hother
      rw [hnode other hother]
      split_ifs <;> rfl
    · intro other hother
      rw [hnode other hother]
      split_ifs <;> rfl

/-- `DequeueQueue` of a nonempty queue takes its head. -/
theorem Represents.dequeueQueue {heap : QueueHeap Q N} {lists : Lists Q N}
    {queue : Q} {node : N} {rest : List N} (hrep : Represents heap lists)
    (hqueue : lists queue = node :: rest) :
    (heap.dequeueQueue queue).1 = some node ∧
      Represents (heap.dequeueQueue queue).2 (lists.erase node) := by
  have hcontents := hrep.contents queue
  rw [hqueue] at hcontents
  have hfirst : (heap.queue queue).first = some node := hcontents.first
  obtain ⟨hnode, hholds⟩ := hcontents.dequeueQueue
  refine ⟨hnode, ?_, ?_⟩
  · intro other
    by_cases hother : other = queue
    · subst other
      have herase : lists.erase node queue = rest := by
        simp [Lists.erase, hqueue]
      rw [herase]
      exact hholds
    · have hfresh : node ∉ lists other := by
        intro hmem
        exact hother (hrep.disjoint hmem (by simp [hqueue]))
      rw [Lists.erase_of_not_mem hfresh]
      refine (hrep.contents other).congr ?_ ?_
      · rw [queue_dequeueQueue heap queue node hfirst, if_neg hother]
      · intro member hmember
        have hne : member ≠ node := ne_of_mem_of_not_mem hmember hfresh
        have hnext : (heap.node node).next ≠ some member := by
          intro hnext
          have hhead : (heap.node node).next = rest.head? := hcontents.chained.1
          rw [hhead] at hnext
          exact hother (hrep.disjoint hmember
            (by simp [hqueue, List.mem_of_head? hnext]))
        rw [node_dequeueQueue heap queue node member hfirst, if_neg hne,
          if_neg hnext]
  · intro left right member hleft hright
    rw [hrep.mem_erase_iff] at hleft hright
    exact hrep.disjoint hleft.1 hright.1

theorem Represents.tidy_dequeueQueue {heap : QueueHeap Q N} {lists : Lists Q N}
    {queue : Q} {node : N} {rest : List N} (hrep : Represents heap lists)
    (htidy : Tidy heap lists) (hqueue : lists queue = node :: rest) :
    Tidy (heap.dequeueQueue queue).2 (lists.erase node) := by
  intro member hmember
  have hcontents := hrep.contents queue
  rw [hqueue] at hcontents
  rw [node_dequeueQueue heap queue node member hcontents.first]
  by_cases hne : member = node
  · rw [if_pos hne]
  · have hfree : ∀ other, member ∉ lists other := fun other hother =>
      hmember other (hrep.mem_erase_iff.mpr ⟨hother, hne⟩)
    have hnext : (heap.node node).next ≠ some member := by
      intro hnext
      have hhead : (heap.node node).next = rest.head? := hcontents.chained.1
      rw [hhead] at hnext
      exact hfree queue (by simp [hqueue, List.mem_of_head? hnext])
    rw [if_neg hne, if_neg hnext]
    exact htidy member hfree

/-! ## `RemoveQueueNode` -/

/-- Removing a node whose links are `NULL` from a queue it is not in does
nothing. -/
theorem removeQueueNode_of_null {heap : QueueHeap Q N} {queue : Q} {node : N}
    (hnull : heap.node node = QueueNode.null)
    (hfirst : (heap.queue queue).first ≠ some node)
    (hlast : (heap.queue queue).last ≠ some node) :
    heap.removeQueueNode queue node = heap := by
  apply QueueHeap.ext
  · funext other
    rw [queue_removeQueueNode, if_neg hfirst, if_neg hlast]
    split_ifs with hother
    · rw [hother]
    · rfl
  · funext other
    rw [node_removeQueueNode, hnull]
    split_ifs with hother
    · rw [hother, hnull]
    · simp_all [QueueNode.null]
    · simp_all [QueueNode.null]
    · simp_all [QueueNode.null]
    · rfl

/-- A linked node leaves the queue and its neighbours are linked past it. -/
theorem Holds.removeQueueNode {heap : QueueHeap Q N} {queue : Q}
    {front back : List N} {node : N}
    (hholds : Holds heap queue none (front ++ node :: back)) :
    Holds (heap.removeQueueNode queue node) queue none (front ++ back) := by
  obtain ⟨hnext, hprev⟩ := hholds.chained.next_of_split
  simp only [Option.or_none] at hprev
  have hnodup := hholds.nodup
  rw [List.nodup_append, List.nodup_cons] at hnodup
  obtain ⟨hfront, ⟨hback, hbackNodup⟩, hdisjoint⟩ := hnodup
  have hfrontNe : ∀ other ∈ front, other ≠ node := fun other hother =>
    hdisjoint other hother node (by simp)
  have hbackNe : ∀ other ∈ back, other ≠ node := by
    rintro other hother rfl
    exact hback hother
  have hfrontBack : ∀ other ∈ front, back.head? ≠ some other := by
    intro other hother hhead
    exact hdisjoint other hother other
      (by simp [List.mem_of_head? hhead]) rfl
  have hbackFront : ∀ other ∈ back, front.getLast? ≠ some other := by
    intro other hother hlast
    exact hdisjoint other (List.mem_of_getLast? hlast) other (by simp [hother]) rfl
  refine ⟨?_, ?_, ?_, ?_⟩
  · rw [queue_removeQueueNode, if_pos rfl, hholds.first, hnext]
    cases front with
    | nil => simp
    | cons first rest =>
        have hne : first ≠ node := hfrontNe first (by simp)
        simp [hne]
  · rw [queue_removeQueueNode, if_pos rfl, hholds.last, hprev]
    cases hlast : back.getLast? with
    | none =>
        rw [List.getLast?_eq_none_iff] at hlast
        simp [hlast]
    | some last =>
        have hne : last ≠ node := hbackNe last (List.mem_of_getLast? hlast)
        simp [List.getLast?_append, List.getLast?_cons, hlast, hne]
  · refine hholds.chained.remove hholds.nodup ?_ ?_ ?_ ?_
    · intro other hother
      rw [node_removeQueueNode, if_neg (hfrontNe other hother), hnext, hprev]
    · intro other hother
      rw [node_removeQueueNode, if_neg (hbackNe other hother), hnext, hprev,
        if_neg (hbackFront other hother)]
    · intro other hother
      rw [node_removeQueueNode, if_neg (hfrontNe other hother), hnext, hprev]
      simp only [if_neg (hfrontBack other hother)]
    · intro other hother
      rw [node_removeQueueNode, if_neg (hbackNe other hother), hnext, hprev,
        Option.or_none]
  · rw [List.nodup_append]
    exact ⟨hfront, hbackNodup, fun other hother member hmember =>
      hdisjoint other hother member (by simp [hmember])⟩

section Remove

variable {heap : QueueHeap Q N} {lists : Lists Q N} {queue : Q} {node : N}

/-- Removing a node of no queue changes nothing. -/
theorem Represents.removeQueueNode_unlinked (hrep : Represents heap lists)
    (htidy : Tidy heap lists) (hnode : ∀ other, node ∉ lists other) (queue : Q) :
    heap.removeQueueNode queue node = heap := by
  refine removeQueueNode_of_null (htidy node hnode) ?_ ?_
  · rw [(hrep.contents queue).first]
    exact fun hhead => hnode queue (List.mem_of_head? hhead)
  · rw [(hrep.contents queue).last]
    exact fun hlast => hnode queue (List.mem_of_getLast? hlast)

/-- `RemoveQueueNode` of a node of the queue erases it. -/
theorem Represents.removeQueueNode_linked (hrep : Represents heap lists)
    (hnode : node ∈ lists queue) :
    Represents (heap.removeQueueNode queue node) (lists.erase node) := by
  have hcontents := hrep.contents queue
  obtain ⟨front, back, hsplit⟩ := List.append_of_mem hnode
  rw [hsplit] at hcontents
  obtain ⟨hnext, hprev⟩ := hcontents.chained.next_of_split
  simp only [Option.or_none] at hprev
  have hfresh : node ∉ front := by
    have hnodup := hcontents.nodup
    rw [List.nodup_append] at hnodup
    exact fun hmem => hnodup.2.2 node hmem node (by simp) rfl
  refine ⟨?_, ?_⟩
  · intro other
    by_cases hother : other = queue
    · subst other
      have herase : lists.erase node queue = front ++ back := by
        simp [Lists.erase, hsplit, List.erase_append_right, hfresh]
      rw [herase]
      exact hcontents.removeQueueNode
    · have hfresh : node ∉ lists other := fun hmem =>
        hother (hrep.disjoint hmem hnode)
      rw [Lists.erase_of_not_mem hfresh]
      refine (hrep.contents other).congr ?_ ?_
      · rw [queue_removeQueueNode, if_neg hother]
      · intro member hmember
        have hne : member ≠ node := ne_of_mem_of_not_mem hmember hfresh
        have hnot : member ∉ lists queue := fun hmem =>
          hother (hrep.disjoint hmember hmem)
        rw [hsplit] at hnot
        have hfront : front.getLast? ≠ some member := fun hlast =>
          hnot (by simp [List.mem_of_getLast? hlast])
        have hback : back.head? ≠ some member := fun hhead =>
          hnot (by simp [List.mem_of_head? hhead])
        rw [node_removeQueueNode, if_neg hne, hnext, hprev, if_neg hfront,
          if_neg hback]
  · intro left right member hleft hright
    rw [hrep.mem_erase_iff] at hleft hright
    exact hrep.disjoint hleft.1 hright.1

/-- `RemoveQueueNode` erases a node that is in the queue or in none. -/
theorem Represents.removeQueueNode (hrep : Represents heap lists)
    (htidy : Tidy heap lists) (hnode : ∀ other, node ∈ lists other → other = queue) :
    Represents (heap.removeQueueNode queue node) (lists.erase node) := by
  by_cases hmem : node ∈ lists queue
  · exact hrep.removeQueueNode_linked hmem
  · have hfree : ∀ other, node ∉ lists other := by
      intro other hother
      exact hmem (hnode other hother ▸ hother)
    have herase : lists.erase node = lists := by
      funext other
      exact Lists.erase_of_not_mem (hfree other)
    rw [hrep.removeQueueNode_unlinked htidy hfree, herase]
    exact hrep

theorem Represents.tidy_removeQueueNode (hrep : Represents heap lists)
    (htidy : Tidy heap lists) (hnode : ∀ other, node ∈ lists other → other = queue) :
    Tidy (heap.removeQueueNode queue node) (lists.erase node) := by
  intro member hmember
  by_cases hne : member = node
  · rw [node_removeQueueNode, if_pos hne]
  have hfree : ∀ other, member ∉ lists other := fun other hother =>
    hmember other (hrep.mem_erase_iff.mpr ⟨hother, hne⟩)
  by_cases hmem : node ∈ lists queue
  · have hcontents := hrep.contents queue
    obtain ⟨front, back, hsplit⟩ := List.append_of_mem hmem
    rw [hsplit] at hcontents
    obtain ⟨hnext, hprev⟩ := hcontents.chained.next_of_split
    simp only [Option.or_none] at hprev
    have hnot := hfree queue
    rw [hsplit] at hnot
    have hfront : front.getLast? ≠ some member := fun hlast =>
      hnot (by simp [List.mem_of_getLast? hlast])
    have hback : back.head? ≠ some member := fun hhead =>
      hnot (by simp [List.mem_of_head? hhead])
    rw [node_removeQueueNode, if_neg hne, hnext, hprev, if_neg hfront,
      if_neg hback]
    exact htidy member hfree
  · have hnone : ∀ other, node ∉ lists other := by
      intro other hother
      exact hmem (hnode other hother ▸ hother)
    rw [hrep.removeQueueNode_unlinked htidy hnone]
    exact htidy member hfree

end Remove

omit [DecidableEq Q] in
/-- Writing the links of a node that is in no queue disturbs none. -/
theorem Represents.setNode {heap : QueueHeap Q N} {lists : Lists Q N}
    {node : N} (hrep : Represents heap lists)
    (hnode : ∀ queue, node ∉ lists queue) (value : QueueNode N) :
    Represents (heap.setNode node value) lists where
  contents := by
    intro queue
    refine (hrep.contents queue).congr rfl ?_
    intro member hmember
    have hne : member ≠ node := ne_of_mem_of_not_mem hmember (hnode queue)
    rw [node_setNode, if_neg hne]
  disjoint := hrep.disjoint

end Rtk.Lib
