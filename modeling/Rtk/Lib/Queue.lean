import Mathlib.Logic.Function.Basic
import Rtk.Core.DoublyLinked

/-!
# Intrusive queues

The queues of `lib/queue.c`.  A `QueueHeap` is the memory in which the queue
heads and the embedded nodes of one kind live; a pointer to a node is an
`Option`, with `none` for `NULL`.  Each C function is shown to act on the lists
that the links represent: enqueueing appends, dequeueing takes the head and
removing erases, and no other queue over the same nodes is disturbed.
-/

namespace Rtk.Lib

open Function
open Rtk.DoublyLinked

@[ext]
structure QueueNode (N : Type*) where
  next : Option N
  prev : Option N
  deriving DecidableEq

@[ext]
structure Queue (N : Type*) where
  first : Option N
  last : Option N
  deriving DecidableEq

/-- A node or a queue whose pointers are all `NULL`. -/
def QueueNode.null {N : Type*} : QueueNode N := ⟨none, none⟩

def Queue.null {N : Type*} : Queue N := ⟨none, none⟩

/-- The queues `Q` and the nodes `N` of one memory. -/
structure QueueHeap (Q N : Type*) where
  queue : Q → Queue N
  node : N → QueueNode N

variable {Q N : Type*} [DecidableEq Q] [DecidableEq N]

namespace QueueHeap

def setNode (heap : QueueHeap Q N) (node : N) (value : QueueNode N) :
    QueueHeap Q N :=
  { heap with node := update heap.node node value }

def setNext (heap : QueueHeap Q N) (node : N) (next : Option N) :
    QueueHeap Q N :=
  heap.setNode node { heap.node node with next := next }

def setPrev (heap : QueueHeap Q N) (node : N) (prev : Option N) :
    QueueHeap Q N :=
  heap.setNode node { heap.node node with prev := prev }

def setQueue (heap : QueueHeap Q N) (queue : Q) (value : Queue N) :
    QueueHeap Q N :=
  { heap with queue := update heap.queue queue value }

def setFirst (heap : QueueHeap Q N) (queue : Q) (first : Option N) :
    QueueHeap Q N :=
  heap.setQueue queue { heap.queue queue with first := first }

def setLast (heap : QueueHeap Q N) (queue : Q) (last : Option N) :
    QueueHeap Q N :=
  heap.setQueue queue { heap.queue queue with last := last }

/-- `if ( node ) node->next = next`. -/
def setNextOf (heap : QueueHeap Q N) (node next : Option N) : QueueHeap Q N :=
  match node with
  | some node => heap.setNext node next
  | none => heap

/-- `if ( node ) node->prev = prev`. -/
def setPrevOf (heap : QueueHeap Q N) (node prev : Option N) : QueueHeap Q N :=
  match node with
  | some node => heap.setPrev node prev
  | none => heap

def enqueueQueue (heap : QueueHeap Q N) (queue : Q) (node : N) :
    QueueHeap Q N :=
  let heap :=
    if (heap.queue queue).first = none then heap.setFirst queue (some node)
    else heap
  let heap := heap.setNextOf (heap.queue queue).last (some node)
  let heap := heap.setPrev node (heap.queue queue).last
  let heap := heap.setNext node none
  heap.setLast queue (some node)

def dequeueQueue (heap : QueueHeap Q N) (queue : Q) :
    Option N × QueueHeap Q N :=
  match (heap.queue queue).first with
  | none => (none, heap)
  | some dequeued =>
      let heap := heap.setPrevOf (heap.node dequeued).next none
      let heap :=
        if (heap.queue queue).last = some dequeued then
          heap.setLast queue none
        else heap
      let heap := heap.setFirst queue (heap.node dequeued).next
      (some dequeued, heap.setNode dequeued QueueNode.null)

def removeQueueNode (heap : QueueHeap Q N) (queue : Q) (node : N) :
    QueueHeap Q N :=
  let heap :=
    if (heap.queue queue).first = some node then
      heap.setFirst queue (heap.node node).next
    else heap
  let heap :=
    if (heap.queue queue).last = some node then
      heap.setLast queue (heap.node node).prev
    else heap
  let heap := heap.setPrevOf (heap.node node).next (heap.node node).prev
  let heap := heap.setNextOf (heap.node node).prev (heap.node node).next
  heap.setNode node QueueNode.null

omit [DecidableEq Q] [DecidableEq N] in
@[ext]
theorem ext {left right : QueueHeap Q N} (hqueue : left.queue = right.queue)
    (hnode : left.node = right.node) : left = right := by
  cases left
  cases right
  simp_all

/-! ## What each function writes -/

section Writes

variable (heap : QueueHeap Q N) (queue : Q) (node other : N)

omit [DecidableEq Q] in
@[simp]
theorem queue_setNode (value : QueueNode N) :
    (heap.setNode node value).queue = heap.queue := rfl

omit [DecidableEq Q] in
@[simp]
theorem node_setNode (value : QueueNode N) :
    (heap.setNode node value).node other =
      if other = node then value else heap.node other := by
  simp [setNode, update_apply]

omit [DecidableEq N] in
@[simp]
theorem node_setFirst (first : Option N) :
    (heap.setFirst queue first).node = heap.node := rfl

omit [DecidableEq N] in
@[simp]
theorem node_setLast (last : Option N) :
    (heap.setLast queue last).node = heap.node := rfl

omit [DecidableEq N] in
@[simp]
theorem queue_setFirst (first : Option N) (name : Q) :
    (heap.setFirst queue first).queue name =
      if name = queue then ⟨first, (heap.queue queue).last⟩
      else heap.queue name := by
  simp [setFirst, setQueue, update_apply]

omit [DecidableEq N] in
@[simp]
theorem queue_setLast (last : Option N) (name : Q) :
    (heap.setLast queue last).queue name =
      if name = queue then ⟨(heap.queue queue).first, last⟩
      else heap.queue name := by
  simp [setLast, setQueue, update_apply]

omit [DecidableEq Q] in
@[simp]
theorem queue_setNextOf (target next : Option N) :
    (heap.setNextOf target next).queue = heap.queue := by
  cases target <;> rfl

omit [DecidableEq Q] in
@[simp]
theorem queue_setPrevOf (target prev : Option N) :
    (heap.setPrevOf target prev).queue = heap.queue := by
  cases target <;> rfl

omit [DecidableEq Q] in
@[simp]
theorem node_setNextOf (target next : Option N) :
    (heap.setNextOf target next).node other =
      if target = some other then ⟨next, (heap.node other).prev⟩
      else heap.node other := by
  cases target with
  | none => simp [setNextOf]
  | some target =>
      by_cases hother : other = target
      · simp [setNextOf, setNext, hother]
      · simp [setNextOf, setNext, hother, Ne.symm hother]

omit [DecidableEq Q] in
@[simp]
theorem node_setPrevOf (target prev : Option N) :
    (heap.setPrevOf target prev).node other =
      if target = some other then ⟨(heap.node other).next, prev⟩
      else heap.node other := by
  cases target with
  | none => simp [setPrevOf]
  | some target =>
      by_cases hother : other = target
      · simp [setPrevOf, setPrev, hother]
      · simp [setPrevOf, setPrev, hother, Ne.symm hother]

theorem queue_enqueueQueue (name : Q) :
    (heap.enqueueQueue queue node).queue name =
      if name = queue then
        ⟨(heap.queue queue).first.or (some node), some node⟩
      else heap.queue name := by
  by_cases hfirst : (heap.queue queue).first = none
  · simp [enqueueQueue, setNext, setPrev, hfirst]
    grind
  · obtain ⟨first, hfirst⟩ := Option.ne_none_iff_exists'.mp hfirst
    simp [enqueueQueue, setNext, setPrev, hfirst]

theorem node_enqueueQueue :
    (heap.enqueueQueue queue node).node other =
      if other = node then ⟨none, (heap.queue queue).last⟩
      else if (heap.queue queue).last = some other then
        ⟨some node, (heap.node other).prev⟩
      else heap.node other := by
  by_cases hfirst : (heap.queue queue).first = none
  · simp [enqueueQueue, setNext, setPrev, hfirst]
    grind
  · simp [enqueueQueue, setNext, setPrev, hfirst]
    grind

theorem fst_dequeueQueue :
    (heap.dequeueQueue queue).1 = (heap.queue queue).first := by
  cases hfirst : (heap.queue queue).first <;> simp [dequeueQueue, hfirst]

theorem dequeueQueue_of_first_none (hfirst : (heap.queue queue).first = none) :
    heap.dequeueQueue queue = (none, heap) := by
  simp [dequeueQueue, hfirst]

theorem queue_dequeueQueue (hfirst : (heap.queue queue).first = some node)
    (name : Q) :
    (heap.dequeueQueue queue).2.queue name =
      if name = queue then
        ⟨(heap.node node).next,
          if (heap.queue queue).last = some node then none
          else (heap.queue queue).last⟩
      else heap.queue name := by
  by_cases hlast : (heap.queue queue).last = some node
  · simp [dequeueQueue, hfirst, hlast]
    grind
  · simp [dequeueQueue, hfirst, hlast]
    grind

theorem node_dequeueQueue (hfirst : (heap.queue queue).first = some node) :
    (heap.dequeueQueue queue).2.node other =
      if other = node then QueueNode.null
      else if (heap.node node).next = some other then
        ⟨(heap.node other).next, none⟩
      else heap.node other := by
  by_cases hlast : (heap.queue queue).last = some node
  · simp [dequeueQueue, hfirst, hlast]
  · simp [dequeueQueue, hfirst, hlast]

theorem queue_removeQueueNode (name : Q) :
    (heap.removeQueueNode queue node).queue name =
      if name = queue then
        ⟨if (heap.queue queue).first = some node then (heap.node node).next
          else (heap.queue queue).first,
        if (heap.queue queue).last = some node then (heap.node node).prev
          else (heap.queue queue).last⟩
      else heap.queue name := by
  by_cases hname : name = queue
  · subst name
    by_cases hfirst : (heap.queue queue).first = some node <;>
      by_cases hlast : (heap.queue queue).last = some node <;>
        simp [removeQueueNode, hfirst, hlast]
  · by_cases hfirst : (heap.queue queue).first = some node <;>
      by_cases hlast : (heap.queue queue).last = some node <;>
        simp [removeQueueNode, hfirst, hlast, hname]

theorem node_removeQueueNode :
    (heap.removeQueueNode queue node).node other =
      if other = node then QueueNode.null
      else
        ⟨if (heap.node node).prev = some other then (heap.node node).next
          else (heap.node other).next,
        if (heap.node node).next = some other then (heap.node node).prev
          else (heap.node other).prev⟩ := by
  by_cases hfirst : (heap.queue queue).first = some node <;>
    by_cases hlast : (heap.queue queue).last = some node <;>
      simp only [removeQueueNode, hfirst, hlast, if_true, if_false] <;>
        simp [hlast] <;>
          refine if_congr Iff.rfl rfl (QueueNode.ext ?_ ?_) <;>
            split_ifs <;> rfl

end Writes

/-! ## Where the links lead -/

/-- Every pointer of the heap is `NULL` or leads to a node inside the given set. -/
structure Within (heap : QueueHeap Q N) (inside : N → Prop) : Prop where
  first : ∀ {queue node}, (heap.queue queue).first = some node → inside node
  last : ∀ {queue node}, (heap.queue queue).last = some node → inside node
  next : ∀ {node after}, (heap.node node).next = some after → inside after
  prev : ∀ {node before}, (heap.node node).prev = some before → inside before

section Within

variable {heap : QueueHeap Q N} {inside : N → Prop}

theorem Within.enqueueQueue (h : heap.Within inside) (queue : Q) {node : N}
    (hnode : inside node) : (heap.enqueueQueue queue node).Within inside where
  first := by
    intro name other hother
    rw [queue_enqueueQueue] at hother
    split_ifs at hother
    · rcases Option.or_eq_some_iff.mp hother with hfirst | ⟨_, hsome⟩
      · exact h.first hfirst
      · exact Option.some.inj hsome ▸ hnode
    · exact h.first hother
  last := by
    intro name other hother
    rw [queue_enqueueQueue] at hother
    split_ifs at hother
    · exact Option.some.inj hother ▸ hnode
    · exact h.last hother
  next := by
    intro other after hafter
    rw [node_enqueueQueue] at hafter
    split_ifs at hafter
    · exact Option.some.inj hafter ▸ hnode
    · exact h.next hafter
  prev := by
    intro other before hbefore
    rw [node_enqueueQueue] at hbefore
    split_ifs at hbefore
    · exact h.last hbefore
    · exact h.prev hbefore
    · exact h.prev hbefore

theorem Within.dequeueQueue (h : heap.Within inside) (queue : Q) :
    (heap.dequeueQueue queue).2.Within inside := by
  cases hfirst : (heap.queue queue).first with
  | none =>
      rw [dequeueQueue_of_first_none _ _ hfirst]
      exact h
  | some node =>
      constructor
      · intro name other hother
        rw [queue_dequeueQueue _ _ _ hfirst] at hother
        have hkept := @h.first name other
        have hnext := @h.next node other
        grind
      · intro name other hother
        rw [queue_dequeueQueue _ _ _ hfirst] at hother
        have hkept := @h.last name other
        grind
      · intro other after hafter
        rw [node_dequeueQueue _ _ _ _ hfirst] at hafter
        have hkept := @h.next other after
        grind [QueueNode.null]
      · intro other before hbefore
        rw [node_dequeueQueue _ _ _ _ hfirst] at hbefore
        have hkept := @h.prev other before
        grind [QueueNode.null]

theorem Within.removeQueueNode (h : heap.Within inside) (queue : Q) (node : N) :
    (heap.removeQueueNode queue node).Within inside where
  first := by
    intro name other hother
    rw [queue_removeQueueNode] at hother
    have hkept := @h.first name other
    have hnext := @h.next node other
    grind
  last := by
    intro name other hother
    rw [queue_removeQueueNode] at hother
    have hkept := @h.last name other
    have hprev := @h.prev node other
    grind
  next := by
    intro other after hafter
    rw [node_removeQueueNode] at hafter
    have hkept := @h.next other after
    have hnext := @h.next node after
    grind [QueueNode.null]
  prev := by
    intro other before hbefore
    rw [node_removeQueueNode] at hbefore
    have hkept := @h.prev other before
    have hprev := @h.prev node before
    grind [QueueNode.null]

omit [DecidableEq Q] in
theorem Within.setNode_null (h : heap.Within inside) (node : N) :
    (heap.setNode node QueueNode.null).Within inside where
  first := h.first
  last := h.last
  next := by
    intro other after hafter
    rw [node_setNode] at hafter
    have hkept := @h.next other after
    grind [QueueNode.null]
  prev := by
    intro other before hbefore
    rw [node_setNode] at hbefore
    have hkept := @h.prev other before
    grind [QueueNode.null]

end Within

end QueueHeap
end Rtk.Lib
