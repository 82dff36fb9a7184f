import Rtk.Core.Transition
import Rtk.Lib.SortedList

/-!
# The clock server

The loop of `ClockServer` of `usr/clockserver.c`.  `nodes` has one record for each
tid of a sender; the links and priorities of the records are those of the delayed
queue.
-/

namespace Rtk.ClockServer

open Function
open Rtk.ByteMemory
open Rtk.Lib
open Rtk.Transition

/-! The values of `enum ClockRequestType`. -/

def csTime : ℤ := 0
def csDelay : ℤ := 1
def csDelayUntil : ℤ := 2
def csTick : ℤ := 3

structure ClockRequest where
  type : ℤ
  data : Word
  deriving DecidableEq

/-- A `Reply( tid, &num_ticks, sizeof( num_ticks ) )`, with the value of `num_ticks`,
or a `Reply( tid, NULL, 0 )`. -/
structure Reply where
  tid : ℤ
  ticks : Option Word
  deriving DecidableEq

/-- The local variables of `ClockServer`: `delayed_queue` with the list nodes in
`nodes`, the `tid` fields of `nodes`, and `num_ticks`. -/
structure State where
  delayedQueue : SortedList ℤ
  tid : ℤ → ℤ
  numTicks : Word

namespace State

/-- Fill `nodes[sender_tid]` and insert it. -/
def delay (s : State) (fuel : ℕ) (senderTid : ℤ) (priority : Word) : Option State :=
  let node := { s.delayedQueue.node senderTid with priority := priority }
  let queue := { s.delayedQueue with node := update s.delayedQueue.node senderTid node }
  (sortedListInsert queue senderTid fuel).map fun queue =>
    { s with
      delayedQueue := queue
      tid := update s.tid senderTid senderTid }

/-- The `switch` over the type of the request. -/
def answer (s : State) (fuel : ℕ) (senderTid : ℤ) (req : ClockRequest) :
    Option (List Reply × State) :=
  if req.type = csTime then some ([⟨senderTid, some s.numTicks⟩], s)
  else if req.type = csDelay then
    (s.delay fuel senderTid (req.data + s.numTicks)).map fun s => ([], s)
  else if req.type = csDelayUntil then
    (s.delay fuel senderTid req.data).map fun s => ([], s)
  else if req.type = csTick then
    some ([⟨senderTid, none⟩], { s with numTicks := s.numTicks + 1 })
  else some ([], s)

/-- The element of `nodes` that a request uses. -/
def element (senderTid : ℤ) (req : ClockRequest) : Option ℤ :=
  if req.type = csDelay ∨ req.type = csDelayUntil then some senderTid else none

/-- The loop that replies to the delays that are over, from `head` on: the replies
and the last `head`. -/
def release (s : State) : ℕ → Option ℤ → Option (List Reply × Option ℤ)
  | _, none => some ([], none)
  | 0, some _ => none
  | fuel + 1, some head =>
      if (s.delayedQueue.node head).priority.toInt ≤ s.numTicks.toInt then
        (s.release fuel (s.delayedQueue.node head).next).map fun released =>
          (⟨s.tid head, none⟩ :: released.1, released.2)
      else some ([], some head)

/-- The body of the loop of `ClockServer`: the replies of the `switch`, those of the
loop behind it, and the state. -/
def serve (s : State) (fuel : ℕ) (senderTid : ℤ) (req : ClockRequest) :
    Option (List Reply × List Reply × State) :=
  (s.answer fuel senderTid req).bind fun answered =>
    let s := answered.2
    (s.release fuel s.delayedQueue.first).map fun released =>
      (answered.1, released.1,
        { s with delayedQueue := { s.delayedQueue with first := released.2 } })

end State

/-! ## Sequences of requests -/

/-- One iteration of the server: the request, `num_ticks` at its start and at its end,
and the replies. -/
structure Iteration where
  tid : ℤ
  req : ClockRequest
  began : Word
  ended : Word
  answered : List Reply
  released : List Reply

def Iteration.Delays (iteration : Iteration) : Prop :=
  iteration.req.type = csDelay ∨ iteration.req.type = csDelayUntil

instance (iteration : Iteration) : Decidable iteration.Delays :=
  inferInstanceAs (Decidable (_ ∨ _))

def Iteration.deadline (iteration : Iteration) : Word :=
  if iteration.req.type = csDelay then iteration.req.data + iteration.began
  else iteration.req.data

structure Run where
  server : State
  history : List Iteration

/-- The server before its first request.  The records are uninitialised. -/
def Starts (run : Run) : Prop :=
  run.server.delayedQueue.first = none ∧ run.server.numTicks = 0 ∧ run.history = []

def clockServer : System Run (ℤ × ClockRequest) where
  initial := Starts
  step run request run' :=
    ∃ fuel answered released,
      run.server.serve fuel request.1 request.2 = some (answered, released, run'.server) ∧
        run'.history = run.history ++
          [⟨request.1, request.2, run.server.numTicks, run'.server.numTicks, answered,
            released⟩]

/-- A request with its place in the order of arrival. -/
abbrev Entry := ℕ × Iteration

def Requested (history : List Iteration) (entry : Entry) : Prop :=
  history[entry.1]? = some entry.2 ∧ entry.2.Delays

def Unreplied (history : List Iteration) (entry : Entry) : Prop :=
  ∀ (k : ℕ) (later : Iteration), entry.1 ≤ k → history[k]? = some later →
    ∀ reply ∈ later.answered ++ later.released, reply.tid ≠ entry.2.tid

/-- A task with a pending delay sends nothing. -/
def Waits (run : Run) (request : ℤ × ClockRequest) : Prop :=
  ∀ entry, Requested run.history entry → Unreplied run.history entry →
    entry.2.tid ≠ request.1

def serveAll (fuel : ℕ) : Run → List (ℤ × ClockRequest) → Option Run
  | run, [] => some run
  | run, request :: rest =>
      match run.server.serve fuel request.1 request.2 with
      | none => none
      | some (answered, released, server) =>
          serveAll fuel ⟨server, run.history ++
            [⟨request.1, request.2, run.server.numTicks, server.numTicks, answered,
              released⟩]⟩ rest

/-- A task that has sent nothing has no pending delay. -/
theorem waits_of_new {run : Run} {request : ℤ × ClockRequest}
    (hnew : ∀ iteration ∈ run.history, iteration.tid ≠ request.1) : Waits run request :=
  fun entry hrequested _ => hnew entry.2 (List.mem_of_getElem? hrequested.1)

/-- Requests of different tasks, none of which has sent anything. -/
theorem reachable_of_serveAll {fuel : ℕ} {run run' : Run}
    {requests : List (ℤ × ClockRequest)} (hreachable : Reachable clockServer Waits run)
    (hnew : ∀ request ∈ requests, ∀ iteration ∈ run.history, iteration.tid ≠ request.1)
    (hdistinct : (requests.map Prod.fst).Nodup)
    (hserve : serveAll fuel run requests = some run') :
    Reachable clockServer Waits run' := by
  induction requests generalizing run with
  | nil =>
      rw [serveAll, Option.some.injEq] at hserve
      exact hserve ▸ hreachable
  | cons request rest ih =>
      rw [List.map_cons, List.nodup_cons] at hdistinct
      rw [serveAll] at hserve
      cases hfirst : run.server.serve fuel request.1 request.2 with
      | none => simp [hfirst] at hserve
      | some outcome =>
          simp only [hfirst] at hserve
          apply ih _ _ hdistinct.2 hserve
          · exact hreachable.step (waits_of_new (hnew request List.mem_cons_self))
              ⟨fuel, outcome.1, outcome.2.1, hfirst, rfl⟩
          · intro next hnext iteration hmem
            rcases List.mem_append.mp hmem with hold | hlast
            · exact hnew next (List.mem_cons_of_mem _ hnext) iteration hold
            · rw [List.mem_singleton.mp hlast]
              intro heq
              have hsame : request.1 = next.1 := heq
              exact hdistinct.1 (hsame ▸ List.mem_map_of_mem hnext)

end Rtk.ClockServer
