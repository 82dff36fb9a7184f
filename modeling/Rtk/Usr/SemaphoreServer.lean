import Rtk.Core.ByteMemory
import Rtk.Lib.QueueLists

/-!
# The semaphore server

The semaphores of `usr/semaphore.c` and the loop of `SemaphoreServer`.  A request names
its semaphore, and `nodes` has one record for each tid of a sender.
-/

namespace Rtk.SemaphoreServer

open Function
open Rtk.ByteMemory
open Rtk.Lib

/-! The values of `enum SemReqType`. -/

def semV : ℤ := 0
def semP : ℤ := 1

structure SemReq (Q : Type*) where
  type : ℤ
  sem : Q
  deriving DecidableEq

/-- The semaphores with the records of `nodes`: the `counter` fields, the `blocked`
queues with the links of the nodes, and the `tid` fields of the nodes. -/
structure State (Q : Type*) where
  counter : Q → Word
  blocked : QueueHeap Q ℤ
  tid : ℤ → ℤ

/-- A `Reply( n->tid, NULL, 0 )`, `none` when `n` is `NULL`. -/
abbrev Reply := Option ℤ

variable {Q : Type*} [DecidableEq Q]

namespace State

def semInit (s : State Q) (sem : Q) (initial : Word) : State Q :=
  { s with
    counter := update s.counter sem initial
    blocked := s.blocked.setQueue sem Queue.null }

/-- The case `SEM_V`. -/
def acquire (s : State Q) (senderTid : ℤ) (sem : Q) : List Reply × State Q :=
  let s := { s with counter := update s.counter sem (s.counter sem - 1) }
  if (s.counter sem).toInt < 0 then
    ([], { s with
      tid := update s.tid senderTid senderTid
      blocked := s.blocked.enqueueQueue sem senderTid })
  else ([], s)

/-- The case `SEM_P`. -/
def release (s : State Q) (sem : Q) : List Reply × State Q :=
  let s := { s with counter := update s.counter sem (s.counter sem + 1) }
  if (s.counter sem).toInt ≤ 0 then
    let dequeued := s.blocked.dequeueQueue sem
    ([dequeued.1.map s.tid], { s with blocked := dequeued.2 })
  else ([], s)

def serve (s : State Q) (senderTid : ℤ) (req : SemReq Q) : List Reply × State Q :=
  if req.type = semV then s.acquire senderTid req.sem
  else if req.type = semP then s.release req.sem
  else ([], s)

/-- The element of `nodes` that a request uses. -/
def element (s : State Q) (senderTid : ℤ) (req : SemReq Q) : Option ℤ :=
  if req.type = semV ∧ (s.counter req.sem - 1).toInt < 0 then some senderTid else none

end State

/-! ## Sequences of requests -/

/-- One iteration of the server: the request, the counter that it leaves and the
replies. -/
structure Iteration (Q : Type*) where
  tid : ℤ
  req : SemReq Q
  counter : Word
  replies : List Reply

structure Run (Q : Type*) where
  server : State Q
  history : List (Iteration Q)

/-- The server after `SemInit` of the semaphores; `nodes` is uninitialised. -/
def start (initial : Q → Word) (node : ℤ → QueueNode ℤ) (tid : ℤ → ℤ) : Run Q :=
  ⟨⟨initial, ⟨fun _ => Queue.null, node⟩, tid⟩, []⟩

def Run.handle (run : Run Q) (request : ℤ × SemReq Q) : Run Q :=
  let served := run.server.serve request.1 request.2
  ⟨served.2, run.history ++
    [⟨request.1, request.2, served.2.counter request.2.sem, served.1⟩]⟩

/-- A semaphore at the start is as `SemInit` leaves it. -/
theorem semInit_start (initial : Q → Word) (node : ℤ → QueueNode ℤ) (tid : ℤ → ℤ) (sem : Q) :
    (start initial node tid).server.semInit sem (initial sem) =
      (start initial node tid).server := by
  simp [State.semInit, start, QueueHeap.setQueue, update_eq_self]

end Rtk.SemaphoreServer
