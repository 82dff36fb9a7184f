import Rtk.Properties.SemaphoreServer

/-!
# The replies of the semaphore server

The server replies to the clients that it wakes and to nobody else, so that a client
whose acquire is granted at once, and every client that releases, stays blocked.
-/

namespace Rtk.SemaphoreServer

open Function
open Rtk.ByteMemory
open Rtk.Lib
open Rtk.Transition

variable {Q : Type*} [DecidableEq Q]

/-- The client is linked in the queue of the semaphore. -/
def State.Waits (s : State Q) (sem : Q) (tid : ℤ) : Prop :=
  ∃ nodes, Contents s.blocked sem nodes ∧ tid ∈ nodes

def requests (history : List (Iteration Q)) (tid : ℤ) : ℕ :=
  history.countP fun iteration => iteration.tid = tid

def replies (history : List (Iteration Q)) (tid : ℤ) : ℕ :=
  (history.flatMap Iteration.replies).count (some tid)

/-- The clients whose request is unreplied are those in the queues; every acquire that
finds the semaphore available and every release is replied to, and every request that is
not pending has had one reply. -/
structure Accounted (run : Run Q) : Prop where
  waits : ∀ tid, pending run.history tid = true ↔ ∃ sem, run.server.Waits sem tid
  acquires : ∀ iteration ∈ run.history, iteration.req.type = semV →
    0 ≤ iteration.counter.toInt → some iteration.tid ∈ iteration.replies
  releases : ∀ iteration ∈ run.history, iteration.req.type = semP →
    some iteration.tid ∈ iteration.replies
  once : ∀ tid, replies run.history tid + (pending run.history tid).toNat =
    requests run.history tid

def Blocks (run : Run Q) (request : ℤ × SemReq Q) : Prop :=
  request.2.type = semV ∧ (run.server.counter request.2.sem - 1).toInt < 0

instance (run : Run Q) (request : ℤ × SemReq Q) : Decidable (Blocks run request) :=
  inferInstanceAs (Decidable (_ ∧ _))

section Accounted

variable {run : Run Q} {lists : Lists Q ℤ} {request : ℤ × SemReq Q}

omit [DecidableEq Q] in
theorem Linked.waits_iff (h : Linked run lists) {sem : Q} {tid : ℤ} :
    run.server.Waits sem tid ↔ tid ∈ lists sem := by
  constructor
  · rintro ⟨nodes, hcontents, hmem⟩
    exact (h.represents.contents sem).unique hcontents ▸ hmem
  · exact fun hmem => ⟨lists sem, h.represents.contents sem, hmem⟩

omit [DecidableEq Q] in
theorem requests_append (history : List (Iteration Q)) (iteration : Iteration Q) (tid : ℤ) :
    requests (history ++ [iteration]) tid =
      requests history tid + if iteration.tid = tid then 1 else 0 := by
  rw [requests, List.countP_append, List.countP_singleton, requests]
  simp

omit [DecidableEq Q] in
theorem replies_append (history : List (Iteration Q)) (iteration : Iteration Q) (tid : ℤ) :
    replies (history ++ [iteration]) tid =
      replies history tid + iteration.replies.count (some tid) := by
  rw [replies, List.flatMap_append, List.count_append, List.flatMap_singleton, replies]

/-- The iteration of an acquire that waits. -/
theorem handle_of_blocks (hblocks : Blocks run request) :
    run.handle request = ⟨{
      counter := update run.server.counter request.2.sem
        (run.server.counter request.2.sem - 1)
      tid := update run.server.tid request.1 request.1
      blocked := run.server.blocked.enqueueQueue request.2.sem request.1 },
      run.history ++ [⟨request.1, request.2, run.server.counter request.2.sem - 1, []⟩]⟩ := by
  obtain ⟨htype, hcounter⟩ := hblocks
  rw [Run.handle, State.serve, if_pos htype, State.acquire]
  simp only [update_self, hcounter, if_true]

/-- A client that waits is pending as it was before, or has just asked. -/
theorem pending_of_blocks (hblocks : Blocks run request) (tid : ℤ) :
    pending (run.handle request).history tid =
      (pending run.history tid || request.1 = tid) := by
  obtain ⟨htype, hcounter⟩ := hblocks
  rw [pending_handle, State.serve, if_pos htype, State.acquire]
  simp only [update_self, hcounter, if_true]
  exact Bool.and_true _

/-- An acquire that waits is accounted for by its place in the queue. -/
theorem Linked.append (h : Linked run lists) (hasks : Asks run request)
    (hblocks : Blocks run request) :
    Linked (run.handle request) (lists.append request.2.sem request.1) := by
  apply h.step hasks
  rw [State.serve, if_pos hblocks.1, State.acquire]
  simp only [update_self, hblocks.2, if_true]
  exact .queue hblocks.1 hblocks.2

theorem Linked.accounted (h : Linked run lists) (haccounted : Accounted run)
    (hasks : Asks run request) (hblocks : Blocks run request) :
    Accounted (run.handle request) where
  waits tid := by
    rw [pending_of_blocks hblocks, Bool.or_eq_true, haccounted.waits, decide_eq_true_iff]
    simp only [h.waits_iff, (h.append hasks hblocks).waits_iff, Lists.mem_append_iff]
    constructor
    · rintro (⟨sem, hmem⟩ | hsender)
      · exact ⟨sem, .inl hmem⟩
      · exact ⟨request.2.sem, .inr ⟨rfl, hsender.symm⟩⟩
    · rintro ⟨sem, hmem | hsender⟩
      · exact .inl ⟨sem, hmem⟩
      · exact .inr hsender.2.symm
  acquires iteration hmem htype hcounter := by
    rw [handle_of_blocks hblocks] at hmem
    rcases List.mem_append.mp hmem with hold | hnew
    · exact haccounted.acquires iteration hold htype hcounter
    · rw [List.mem_singleton.mp hnew] at hcounter
      exact absurd hblocks.2 (Int.not_lt.mpr hcounter)
  releases iteration hmem htype := by
    rw [handle_of_blocks hblocks] at hmem
    rcases List.mem_append.mp hmem with hold | hnew
    · exact haccounted.releases iteration hold htype
    · rw [List.mem_singleton.mp hnew] at htype
      exact absurd (hblocks.1.symm.trans htype) (by decide)
  once tid := by
    have honce := haccounted.once tid
    rw [pending_of_blocks hblocks, handle_of_blocks hblocks, replies_append, requests_append,
      List.count_nil]
    by_cases hsender : request.1 = tid
    · have hfree := hasks.free
      rw [hsender] at hfree
      rw [hfree] at honce ⊢
      simpa [hsender] using honce
    · simpa [hsender] using honce

/-- A request that does not wait is left unreplied, and its client in no queue. -/
theorem Outcome.unreplied {s' : State Q} {lists' : Lists Q ℤ} {outputs : List Reply}
    (h : Outcome run.server lists request.1 request.2 outputs s' lists')
    (hlinked : Linked run lists) (hasks : Asks run request) (hblocks : ¬Blocks run request) :
    some request.1 ∉ outputs ∧ ∀ sem, request.1 ∉ lists' sem := by
  have hfree := hlinked.not_mem hasks
  cases h with
  | queue htype hcounter => exact absurd ⟨htype, hcounter⟩ hblocks
  | wake first rest _ _ hqueue =>
      have hne : request.1 ≠ first := by
        rintro rfl
        exact hfree request.2.sem (hqueue ▸ List.mem_cons_self)
      refine ⟨?_, fun sem hmem => ?_⟩
      · rw [List.mem_singleton, Option.some.injEq]
        exact hne
      · exact hfree sem (hlinked.represents.mem_erase_iff.mp hmem).1
  | take => exact ⟨List.not_mem_nil, hfree⟩
  | free => exact ⟨List.not_mem_nil, hfree⟩
  | miss => exact ⟨by simp, hfree⟩
  | other => exact ⟨List.not_mem_nil, hfree⟩

theorem Linked.blocks (h : Linked run lists) (hasks : Asks run request)
    (hafter : Accounted (run.handle request)) : Blocks run request := by
  by_contra hblocks
  obtain ⟨lists', houtcome⟩ := h.outcome request
  obtain ⟨hsilent, hnone⟩ := houtcome.unreplied h hasks hblocks
  have hpending : SemaphoreServer.pending (run.handle request).history request.1 = true := by
    rw [pending_handle]
    simpa using hsilent
  obtain ⟨sem, hwaits⟩ := (hafter.waits request.1).mp hpending
  exact hnone sem ((h.step hasks houtcome).waits_iff.mp hwaits)

end Accounted

omit [DecidableEq Q] in
theorem accounted_start (initial : Q → Word) (node : ℤ → QueueNode ℤ) (tid : ℤ → ℤ) :
    Accounted (start initial node tid) where
  waits client := by
    simp only [(linked_start initial node tid).waits_iff]
    exact iff_of_false nofun fun ⟨_, hmem⟩ => absurd hmem List.not_mem_nil
  acquires := nofun
  releases := nofun
  once _ := rfl

/-- The unreplied clients are those in the queues, throughout a run in which no client
sends while its request is unreplied, exactly when every request is a `SEM_V` that has to
wait. -/
theorem accounted_iff_blocks (initial : Q → Word) (node : ℤ → QueueNode ℤ) (tid : ℤ → ℤ)
    {requests : List (ℤ × SemReq Q)}
    (hasks : EachStep Run.handle Asks (start initial node tid) requests) :
    Throughout Run.handle Accounted (start initial node tid) requests ↔
      EachStep Run.handle Blocks (start initial node tid) requests := by
  apply @throughout_iff _ _ Run.handle (fun run => ∃ lists, Linked run lists) Accounted Asks
    Blocks (start initial node tid) requests ⟨fun _ => [], linked_start initial node tid⟩
    (accounted_start initial node tid)
  · rintro run request ⟨lists, hlinked⟩ haccounted hasks hblocks
    exact ⟨⟨_, hlinked.append hasks hblocks⟩, hlinked.accounted haccounted hasks hblocks⟩
  · rintro run request ⟨lists, hlinked⟩ _ hasks hafter
    exact hlinked.blocks hasks hafter
  · exact hasks

/-- Two clients wait for a semaphore that is not available, one for another. -/
theorem accounted_sample : Throughout Run.handle Accounted (sampleStart 0)
    [(5, ⟨semV, true⟩), (6, ⟨semV, true⟩), (7, ⟨semV, false⟩)] :=
  (accounted_iff_blocks (fun _ => 0) (fun _ => QueueNode.null) (fun _ => 0)
    (by decide +kernel)).mpr (by decide +kernel)

/-- A client acquires a semaphore that is available: it is left unreplied, and it is in
no queue. -/
theorem not_accounted :
    ¬∀ requests, EachStep Run.handle Asks (sampleStart 1) requests →
      Throughout Run.handle Accounted (sampleStart 1) requests := by
  intro haccounted
  have hasks : EachStep Run.handle Asks (sampleStart 1) [(5, ⟨semV, true⟩)] := by
    decide +kernel
  have hlast := (haccounted _ hasks).last
  have hpending : pending ((sampleStart 1).handle (5, ⟨semV, true⟩)).history 5 = true := by
    decide +kernel
  obtain ⟨sem, nodes, hcontents, hmem⟩ := (hlast.waits 5).mp hpending
  -- all queues are empty
  have hfirst : none = nodes.head? := hcontents.first
  rw [List.head?_eq_none_iff.mp hfirst.symm] at hmem
  exact absurd hmem List.not_mem_nil

end Rtk.SemaphoreServer
