import Rtk.Core.Transition
import Rtk.Lib.QueueLists

/-!
# Queues over one pool of nodes

Any sequence of calls of `lib/queue.c` that keeps to the rules of the queues acts on lists:
the links spell out, for each queue, the list that the calls build.
-/

namespace Rtk.Lib

open Function
open Rtk.Lib.QueueHeap
open Rtk.Transition

variable {Q N : Type*} [DecidableEq Q] [DecidableEq N]

inductive QueueCall (Q N : Type*) where
  | enqueue (queue : Q) (node : N)
  | dequeue (queue : Q)
  | remove (queue : Q) (node : N)

def QueueHeap.call (heap : QueueHeap Q N) : QueueCall Q N → QueueHeap Q N
  | .enqueue queue node => heap.enqueueQueue queue node
  | .dequeue queue => (heap.dequeueQueue queue).2
  | .remove queue node => heap.removeQueueNode queue node

def Lists.call (lists : Lists Q N) : QueueCall Q N → Lists Q N
  | .enqueue queue node => update lists queue (lists queue ++ [node])
  | .dequeue queue => update lists queue (lists queue).tail
  | .remove queue node => update lists queue ((lists queue).erase node)

/-- A node that joins a queue is in none, and one that is removed from a queue is in that one
or in none. -/
def Lists.Permits (lists : Lists Q N) : QueueCall Q N → Prop
  | .enqueue _ node => ∀ other, node ∉ lists other
  | .dequeue _ => True
  | .remove queue node => ∀ other, node ∈ lists other → other = queue

def QueueHeap.empty : QueueHeap Q N := ⟨fun _ => Queue.null, fun _ => QueueNode.null⟩

def Lists.empty : Lists Q N := fun _ => []

omit [DecidableEq Q] [DecidableEq N] in
theorem represents_empty : Represents (QueueHeap.empty : QueueHeap Q N) Lists.empty where
  contents _ := ⟨rfl, rfl, trivial, List.nodup_nil⟩
  disjoint hnode := absurd hnode List.not_mem_nil

omit [DecidableEq Q] [DecidableEq N] in
theorem tidy_empty : Tidy (QueueHeap.empty : QueueHeap Q N) Lists.empty := fun _ _ => rfl

section Call

variable {heap : QueueHeap Q N} {lists : Lists Q N} {queue : Q} {node : N}

/-- A node of one queue leaves that queue only. -/
theorem Lists.erase_eq_update (hnode : ∀ other, node ∈ lists other → other = queue) :
    lists.erase node = update lists queue ((lists queue).erase node) := by
  funext other
  by_cases hother : other = queue
  · rw [hother, update_self, Lists.erase]
  · rw [update_of_ne hother, Lists.erase_of_not_mem fun hmem => hother (hnode other hmem)]

theorem Represents.erase_head {rest : List N} (hrep : Represents heap lists)
    (hqueue : lists queue = node :: rest) :
    lists.erase node = update lists queue (lists queue).tail := by
  have hmem : node ∈ lists queue := by
    rw [hqueue]
    exact List.mem_cons_self
  rw [Lists.erase_eq_update fun other hother => hrep.disjoint hother hmem, hqueue,
    List.erase_cons_head, List.tail_cons]

/-- A call that keeps to the rules does to the links what it does to the lists. -/
theorem Represents.call {call : QueueCall Q N} (h : Represents heap lists ∧ Tidy heap lists)
    (hcall : lists.Permits call) :
    Represents (heap.call call) (lists.call call) ∧ Tidy (heap.call call) (lists.call call) := by
  obtain ⟨hrep, htidy⟩ := h
  cases call with
  | enqueue queue node => exact ⟨hrep.enqueueQueue hcall, hrep.tidy_enqueueQueue htidy⟩
  | dequeue queue =>
      rw [QueueHeap.call, Lists.call]
      cases hqueue : lists queue with
      | nil =>
          have hfirst : (heap.queue queue).first = none := by
            rw [(hrep.contents queue).first, hqueue]
            rfl
          have hsame : update lists queue ([] : List N).tail = lists := by
            rw [List.tail_nil, ← hqueue, update_eq_self]
          rw [dequeueQueue_of_first_none _ _ hfirst, hsame]
          exact ⟨hrep, htidy⟩
      | cons node rest =>
          rw [← hqueue, ← hrep.erase_head hqueue]
          exact ⟨(hrep.dequeueQueue hqueue).2, hrep.tidy_dequeueQueue htidy hqueue⟩
  | remove queue node =>
      rw [QueueHeap.call, Lists.call, ← Lists.erase_eq_update hcall]
      exact ⟨hrep.removeQueueNode htidy hcall, hrep.tidy_removeQueueNode htidy hcall⟩

end Call

/-- After any sequence of calls that keep to the rules the links are those of the lists, a node
in no list has none, `DequeueQueue` returns the head of its list, and `RemoveQueueNode` of a
node in no list changes nothing. -/
theorem queues_represent_lists (calls : List (QueueCall Q N))
    (hcalls : EachStep Lists.call Lists.Permits Lists.empty calls) :
    let heap : QueueHeap Q N := calls.foldl QueueHeap.call .empty
    let lists := calls.foldl Lists.call Lists.empty
    Represents heap lists ∧ Tidy heap lists ∧
      (∀ queue, (heap.dequeueQueue queue).1 = (lists queue).head?) ∧
      ∀ queue node, (∀ other, node ∉ lists other) → heap.removeQueueNode queue node = heap := by
  intro heap lists
  have hboth : Represents heap lists ∧ Tidy heap lists :=
    hcalls.related (fun heap lists => Represents heap lists ∧ Tidy heap lists) Represents.call
      ⟨represents_empty, tidy_empty⟩
  obtain ⟨hrep, htidy⟩ := hboth
  refine ⟨hrep, htidy, ?_, ?_⟩
  · intro queue
    rw [fst_dequeueQueue]
    exact (hrep.contents queue).first
  · exact fun queue node hnode => hrep.removeQueueNode_unlinked htidy hnode queue

/-- Of two nodes that join a queue the first one is removed. -/
def sampleCalls : List (QueueCall Bool (Fin 3)) :=
  [.enqueue false 0, .enqueue false 1, .enqueue true 2, .remove false 0]

theorem queues_represent_lists_sample :
    let heap : QueueHeap Bool (Fin 3) := sampleCalls.foldl QueueHeap.call .empty
    Represents heap (sampleCalls.foldl Lists.call Lists.empty) ∧
      (heap.dequeueQueue false).1 = some 1 := by
  have hcalls : EachStep Lists.call Lists.Permits Lists.empty sampleCalls := by
    refine ⟨?_, ?_, ?_, ?_, trivial⟩ <;> intro other <;> cases other <;> decide
  obtain ⟨hrep, _, hdequeue, _⟩ := queues_represent_lists sampleCalls hcalls
  exact ⟨hrep, hdequeue false⟩

end Rtk.Lib
