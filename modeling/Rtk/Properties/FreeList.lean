import Rtk.Core.Transition
import Rtk.Invariant.Boot

/-!
# The free list of any capacity

`available_descriptors` starts with its first and its last pointer set and all links `NULL`,
which is no list.  `InitTasks` makes it one but for the back link of its first descriptor,
and the first `DequeueQueue` clears that one.
-/

namespace Rtk.Kernel

open Rtk.ByteMemory
open Rtk.Lib
open Rtk.Lib.QueueHeap
open Rtk.Transition

/-- `available_descriptors` and the links of `capacity` descriptors as they are initialised. -/
def availableDescriptors (capacity : ℕ) : QueueHeap TaskQueue ℤ where
  queue
    | .available => ⟨some 0, some (capacity - 1)⟩
    | .states _ _ => Queue.null
  node _ := QueueNode.null

/-- The calls of `EnqueueQueue` in `InitTasks`, for `capacity` descriptors. -/
def enqueueDescriptors (heap : QueueHeap TaskQueue ℤ) (capacity : ℕ) : QueueHeap TaskQueue ℤ :=
  (List.range capacity).foldl (fun heap (index : ℕ) => heap.enqueueQueue .available index) heap

inductive DescriptorCall where
  | dequeue
  | enqueue (index : ℤ)

def DescriptorCall.links (heap : QueueHeap TaskQueue ℤ) : DescriptorCall → QueueHeap TaskQueue ℤ
  | dequeue => (heap.dequeueQueue .available).2
  | enqueue index => heap.enqueueQueue .available index

def DescriptorCall.list (list : List ℤ) : DescriptorCall → List ℤ
  | dequeue => list.tail
  | enqueue index => list ++ [index]

/-- A descriptor is enqueued only when it was dequeued before. -/
def DescriptorCall.Permitted (capacity : ℕ) (list : List ℤ) : DescriptorCall → Prop
  | dequeue => True
  | enqueue index => 0 ≤ index ∧ index < capacity ∧ index ∉ list

/-! ## `InitTasks` -/

/-- The queue part of `InitTasks`. -/
theorem taskQueues_initTasks (s : State) :
    (initTasks s).taskQueues = enqueueDescriptors s.taskQueues maxTasks.toNat := by
  rw [initTasks, enqueueDescriptors]
  induction List.range maxTasks.toNat generalizing s with
  | nil => rfl
  | cons index rest ih =>
      rw [List.foldl_cons, List.foldl_cons, ih]
      rfl

theorem taskQueues_initTasks_static (image : Image) (memory : Memory) :
    (initTasks (staticState image memory)).taskQueues =
      enqueueDescriptors (availableDescriptors maxTasks.toNat) maxTasks.toNat :=
  taskQueues_initTasks (staticState image memory)

theorem descriptors_concat (count : ℕ) :
    descriptors 0 (count + 1) = descriptors 0 count ++ [(count : ℤ)] := by
  rw [descriptors, List.range'_concat, List.map_append, descriptors, List.map_singleton]
  simp

theorem not_mem_descriptors (count : ℕ) : (count : ℤ) ∉ descriptors 0 count := by
  rw [mem_descriptors_iff]
  omega

/-- The first descriptor enters behind the last one, to which its back link leads. -/
theorem holds_enqueue_first (capacity : ℕ) :
    Holds ((availableDescriptors capacity).enqueueQueue .available 0) .available
      (some (capacity - 1)) (descriptors 0 1) where
  first := by
    rw [queue_enqueueQueue]
    rfl
  last := by
    rw [queue_enqueueQueue]
    rfl
  chained := by
    refine ⟨?_, ?_, trivial⟩
    · simp [node_enqueueQueue]
    · simp [node_enqueueQueue, availableDescriptors]
  nodup := descriptors_nodup 0 1

/-- After that the others follow one another. -/
theorem holds_enqueueDescriptors (capacity count : ℕ) :
    Holds (enqueueDescriptors (availableDescriptors capacity) (count + 1)) .available
      (some (capacity - 1)) (descriptors 0 (count + 1)) := by
  induction count with
  | zero => exact holds_enqueue_first capacity
  | succ count ih =>
      have hnonempty : descriptors 0 (count + 1) ≠ [] := by
        rw [descriptors_succ]
        exact List.cons_ne_nil _ _
      have hholds := ih.enqueueQueue (not_mem_descriptors (count + 1))
      rw [if_neg hnonempty, ← descriptors_concat] at hholds
      rw [enqueueDescriptors, List.range_succ, List.foldl_concat]
      exact hholds

/-! ## The calls -/

section Calls

variable {heap : QueueHeap TaskQueue ℤ} {list : List ℤ} {before : Option ℤ} {capacity : ℕ}
  {call : DescriptorCall}

theorem dequeueQueue_of_holds (h : Holds heap .available before list) :
    (heap.dequeueQueue .available).1 = list.head? := by
  rw [fst_dequeueQueue, h.first]

/-- A stale back link goes with the first descriptor. -/
theorem contents_dequeue (h : Holds heap .available before list) (hlist : list ≠ []) :
    Contents (DescriptorCall.dequeue.links heap) .available (DescriptorCall.dequeue.list list) := by
  cases list with
  | nil => exact absurd rfl hlist
  | cons index rest => exact h.dequeueQueue.2

theorem contents_call (h : Contents heap .available list) (hcall : call.Permitted capacity list) :
    Contents (call.links heap) .available (call.list list) := by
  cases call with
  | dequeue =>
      cases list with
      | nil =>
          rw [DescriptorCall.links, dequeueQueue_of_first_none _ _ h.first]
          exact h
      | cons index rest => exact contents_dequeue h (List.cons_ne_nil _ _)
  | enqueue index =>
      have hholds := h.enqueueQueue hcall.2.2
      rw [ite_self] at hholds
      exact hholds

/-- Before the first `DequeueQueue` no descriptor may be enqueued. -/
theorem eq_dequeue_of_permitted
    (hcall : call.Permitted capacity (descriptors 0 capacity)) : call = .dequeue := by
  cases call with
  | dequeue => rfl
  | enqueue index =>
      obtain ⟨hlow, hhigh, hfresh⟩ := hcall
      rw [mem_descriptors_iff] at hfresh
      omega

/-- A run of the calls on the whole free list is one on a well-formed list after its first
call. -/
theorem contents_of_calls (hcapacity : 1 ≤ capacity)
    (h : Holds heap .available before (descriptors 0 capacity)) {calls : List DescriptorCall}
    (hcalls : EachStep DescriptorCall.list (DescriptorCall.Permitted capacity)
        (descriptors 0 capacity) calls)
    (hsome : calls ≠ []) :
    Contents (calls.foldl DescriptorCall.links heap) .available
      (calls.foldl DescriptorCall.list (descriptors 0 capacity)) := by
  cases calls with
  | nil => exact absurd rfl hsome
  | cons call rest =>
      obtain ⟨hfirst, hrest⟩ := hcalls
      obtain rfl := eq_dequeue_of_permitted hfirst
      have hlist : descriptors 0 capacity ≠ [] := by
        obtain ⟨count, rfl⟩ := Nat.exists_eq_add_of_le' hcapacity
        rw [descriptors_succ]
        exact List.cons_ne_nil _ _
      exact hrest.related (fun heap list => Contents heap TaskQueue.available list) contents_call
        (contents_dequeue h hlist)

theorem eachStep_dequeues (capacity : ℕ) (list : List ℤ) (taken : ℕ) :
    EachStep DescriptorCall.list (DescriptorCall.Permitted capacity) list
      (List.replicate taken .dequeue) := by
  induction taken generalizing list with
  | zero => trivial
  | succ taken ih => exact ⟨trivial, ih _⟩

theorem foldl_dequeues (list : List ℤ) (taken : ℕ) :
    (List.replicate taken DescriptorCall.dequeue).foldl DescriptorCall.list list =
      list.drop taken := by
  induction taken generalizing list with
  | zero => rfl
  | succ taken ih =>
      rw [List.replicate_succ, List.foldl_cons, ih]
      exact List.drop_tail

theorem head?_drop_descriptors (capacity taken : ℕ) :
    ((descriptors 0 capacity).drop taken).head? =
      if taken < capacity then some (taken : ℤ) else none := by
  rw [List.head?_drop, descriptors, List.getElem?_map]
  split_ifs with hinside
  · simp [hinside]
  · simp [Nat.le_of_not_lt hinside]

end Calls

/-- For every capacity, `InitTasks` leaves a queue that gives the descriptors out in order, and
that is a queue of descriptors under any calls for it. -/
theorem enqueueDescriptors_fifo {capacity : ℕ} (hcapacity : 1 ≤ capacity) :
    let initial := enqueueDescriptors (availableDescriptors capacity) capacity
    (∀ taken,
      (((List.replicate taken DescriptorCall.dequeue).foldl DescriptorCall.links
          initial).dequeueQueue .available).1 =
        if taken < capacity then some (taken : ℤ) else none) ∧
      ∀ calls, EachStep DescriptorCall.list (DescriptorCall.Permitted capacity)
          (descriptors 0 capacity) calls →
        let heap := calls.foldl DescriptorCall.links initial
        let list := calls.foldl DescriptorCall.list (descriptors 0 capacity)
        (heap.dequeueQueue .available).1 = list.head? ∧
          (calls ≠ [] → Contents heap .available list) := by
  intro initial
  have hinitial : Holds initial .available (some (capacity - 1)) (descriptors 0 capacity) := by
    obtain ⟨count, rfl⟩ := Nat.exists_eq_add_of_le' hcapacity
    exact holds_enqueueDescriptors (count + 1) count
  have hcontents := fun {calls} => @contents_of_calls _ _ _ hcapacity hinitial calls
  have hruns : ∀ calls, EachStep DescriptorCall.list (DescriptorCall.Permitted capacity)
      (descriptors 0 capacity) calls →
      ((calls.foldl DescriptorCall.links initial).dequeueQueue .available).1 =
        (calls.foldl DescriptorCall.list (descriptors 0 capacity)).head? := by
    intro calls hcalls
    by_cases hsome : calls = []
    · subst calls
      exact dequeueQueue_of_holds hinitial
    · exact dequeueQueue_of_holds (hcontents hcalls hsome)
  refine ⟨?_, fun calls hcalls => ⟨hruns calls hcalls, hcontents hcalls⟩⟩
  intro taken
  rw [hruns _ (eachStep_dequeues capacity _ taken), foldl_dequeues, head?_drop_descriptors]

/-- Of two descriptors the first one is taken and given back. -/
theorem enqueueDescriptors_fifo_sample :
    let initial := enqueueDescriptors (availableDescriptors 2) 2
    let calls := [DescriptorCall.dequeue, .enqueue 0]
    (initial.dequeueQueue .available).1 = some 0 ∧
      Contents (calls.foldl DescriptorCall.links initial) .available [1, 0] := by
  intro initial calls
  obtain ⟨hdrain, hruns⟩ := @enqueueDescriptors_fifo 2 (by decide)
  have hcalls : EachStep DescriptorCall.list (DescriptorCall.Permitted (2 : ℕ))
      (descriptors 0 2) calls :=
    ⟨trivial, ⟨by decide, by decide, by decide⟩, trivial⟩
  exact ⟨hdrain 0, (hruns calls hcalls).2 (List.cons_ne_nil _ _)⟩

end Rtk.Kernel
