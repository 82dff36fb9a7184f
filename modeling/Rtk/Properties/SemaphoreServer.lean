import Mathlib.Data.Int.Interval
import Rtk.Core.Transition
import Rtk.Usr.SemaphoreServer

/-!
# Semaphores

The counter of a semaphore tells how many clients its queue holds.  As long as a client
whose request is unreplied sends nothing, all semaphores can share one node for each
client.
-/

namespace Rtk.SemaphoreServer

open Function
open Rtk.ByteMemory
open Rtk.Lib
open Rtk.Transition

variable {Q : Type*} [DecidableEq Q]

/-! ## What the clients wait for -/

/-- The request of the client is unreplied after an iteration. -/
def leftPending (tid : ℤ) (pending : Bool) (iteration : Iteration Q) : Bool :=
  (pending || iteration.tid = tid) && !iteration.replies.contains (some tid)

/-- The client's last request is not replied to. -/
def pending (history : List (Iteration Q)) (tid : ℤ) : Bool :=
  history.foldl (leftPending tid) false

def tidMax : ℤ := 2147483647

/-- A request comes from a client that has no unreplied request. -/
structure Asks (run : Run Q) (request : ℤ × SemReq Q) : Prop where
  nonneg : 0 ≤ request.1
  le_max : request.1 ≤ tidMax
  free : pending run.history request.1 = false

instance (run : Run Q) (request : ℤ × SemReq Q) : Decidable (Asks run request) :=
  decidable_of_iff (0 ≤ request.1 ∧ request.1 ≤ tidMax ∧ pending run.history request.1 = false)
    ⟨fun h => ⟨h.1, h.2.1, h.2.2⟩, fun h => ⟨h.nonneg, h.le_max, h.free⟩⟩

/-- What one iteration does to the queues, of which `lists` are the members. -/
inductive Outcome (s : State Q) (lists : Lists Q ℤ) (tid : ℤ) (req : SemReq Q) :
    List Reply → State Q → Lists Q ℤ → Prop
  /-- `SEM_V` of a semaphore that is available. -/
  | take (htype : req.type = semV) (hcounter : 0 ≤ (s.counter req.sem - 1).toInt) :
      Outcome s lists tid req []
        { s with counter := update s.counter req.sem (s.counter req.sem - 1) } lists
  /-- `SEM_V` otherwise. -/
  | queue (htype : req.type = semV) (hcounter : (s.counter req.sem - 1).toInt < 0) :
      Outcome s lists tid req []
        { counter := update s.counter req.sem (s.counter req.sem - 1)
          tid := update s.tid tid tid
          blocked := s.blocked.enqueueQueue req.sem tid } (lists.append req.sem tid)
  /-- `SEM_P` of a semaphore for which nobody waits. -/
  | free (htype : req.type = semP) (hcounter : 0 < (s.counter req.sem + 1).toInt) :
      Outcome s lists tid req []
        { s with counter := update s.counter req.sem (s.counter req.sem + 1) } lists
  /-- `SEM_P` that wakes the first client of the queue. -/
  | wake (first : ℤ) (rest : List ℤ) (htype : req.type = semP)
      (hcounter : (s.counter req.sem + 1).toInt ≤ 0) (hqueue : lists req.sem = first :: rest) :
      Outcome s lists tid req [some first]
        { s with
          counter := update s.counter req.sem (s.counter req.sem + 1)
          blocked := (s.blocked.dequeueQueue req.sem).2 } (lists.erase first)
  /-- `SEM_P` that finds the queue empty. -/
  | miss (htype : req.type = semP) (hcounter : (s.counter req.sem + 1).toInt ≤ 0)
      (hqueue : lists req.sem = []) :
      Outcome s lists tid req [none]
        { s with counter := update s.counter req.sem (s.counter req.sem + 1) } lists
  /-- A request of no known type. -/
  | other (hv : req.type ≠ semV) (hp : req.type ≠ semP) : Outcome s lists tid req [] s lists

/-- The queues are disjoint lists of clients with an unreplied request, and their nodes
hold the clients' tids. -/
structure Linked (run : Run Q) (lists : Lists Q ℤ) : Prop where
  represents : Represents run.server.blocked lists
  tid : ∀ {sem tid}, tid ∈ lists sem → run.server.tid tid = tid
  pending : ∀ {sem tid}, tid ∈ lists sem → pending run.history tid = true

section Linked

variable {run : Run Q} {lists : Lists Q ℤ} {request : ℤ × SemReq Q}

theorem pending_handle (run : Run Q) (request : ℤ × SemReq Q) (tid : ℤ) :
    pending (run.handle request).history tid =
      ((pending run.history tid || request.1 = tid) &&
        !(run.server.serve request.1 request.2).1.contains (some tid)) := by
  rw [pending, Run.handle, List.foldl_append, pending]
  rfl

omit [DecidableEq Q] in
/-- A client that may send is in no queue. -/
theorem Linked.not_mem (h : Linked run lists) (hasks : Asks run request) (sem : Q) :
    request.1 ∉ lists sem := by
  intro hmem
  have hpending := h.pending hmem
  rw [hasks.free] at hpending
  exact absurd hpending (by decide)

/-- An iteration does one of the things that it can do. -/
theorem Linked.outcome (h : Linked run lists) (request : ℤ × SemReq Q) :
    ∃ lists', Outcome run.server lists request.1 request.2
      (run.server.serve request.1 request.2).1 (run.server.serve request.1 request.2).2
      lists' := by
  rw [State.serve]
  by_cases hv : request.2.type = semV
  · rw [if_pos hv, State.acquire]
    simp only [update_self]
    by_cases hcounter : (run.server.counter request.2.sem - 1).toInt < 0
    · rw [if_pos hcounter]
      exact ⟨_, .queue hv hcounter⟩
    · rw [if_neg hcounter]
      exact ⟨_, .take hv (Int.not_lt.mp hcounter)⟩
  rw [if_neg hv]
  by_cases hp : request.2.type = semP
  · rw [if_pos hp, State.release]
    simp only [update_self]
    by_cases hcounter : (run.server.counter request.2.sem + 1).toInt ≤ 0
    · rw [if_pos hcounter]
      cases hqueue : lists request.2.sem with
      | nil =>
          have hfirst : (run.server.blocked.queue request.2.sem).first = none := by
            rw [(h.represents.contents request.2.sem).first, hqueue]
            rfl
          rw [QueueHeap.dequeueQueue_of_first_none _ _ hfirst]
          exact ⟨_, .miss hp hcounter hqueue⟩
      | cons first rest =>
          have hmem : first ∈ lists request.2.sem := hqueue ▸ List.mem_cons_self
          rw [(h.represents.dequeueQueue hqueue).1, Option.map_some, h.tid hmem]
          exact ⟨_, .wake first rest hp hcounter hqueue⟩
    · rw [if_neg hcounter]
      exact ⟨_, .free hp (Int.not_le.mp hcounter)⟩
  · rw [if_neg hp]
    exact ⟨_, .other hv hp⟩

theorem Outcome.represents {replies : List Reply} {s' : State Q} {lists' : Lists Q ℤ}
    (h : Outcome run.server lists request.1 request.2 replies s' lists')
    (hlinked : Linked run lists) (hasks : Asks run request) : Represents s'.blocked lists' := by
  cases h with
  | queue => exact hlinked.represents.enqueueQueue (hlinked.not_mem hasks)
  | wake first rest _ _ hqueue => exact (hlinked.represents.dequeueQueue hqueue).2
  | take => exact hlinked.represents
  | free => exact hlinked.represents
  | miss => exact hlinked.represents
  | other => exact hlinked.represents

/-- A client in a queue after an iteration was there and is not replied to, or has just
been queued. -/
theorem Outcome.mem {replies : List Reply} {s' : State Q} {lists' : Lists Q ℤ}
    (h : Outcome run.server lists request.1 request.2 replies s' lists')
    (hlinked : Linked run lists) {sem : Q} {tid : ℤ} (hmem : tid ∈ lists' sem) :
    some tid ∉ replies ∧ (tid ∈ lists sem ∨ tid = request.1) ∧ s'.tid tid = tid := by
  cases h with
  | queue =>
      refine ⟨List.not_mem_nil, ?_, ?_⟩
      · rw [Lists.mem_append_iff] at hmem
        exact hmem.imp_right And.right
      · by_cases hsender : tid = request.1
        · rw [hsender]
          exact update_self ..
        · rw [Lists.mem_append_iff] at hmem
          have hold := hlinked.tid (hmem.resolve_right fun hboth => hsender hboth.2)
          exact (update_of_ne hsender _ _).trans hold
  | wake first rest =>
      rw [hlinked.represents.mem_erase_iff] at hmem
      refine ⟨?_, .inl hmem.1, hlinked.tid hmem.1⟩
      rw [List.mem_singleton, Option.some.injEq]
      exact hmem.2
  | take => exact ⟨List.not_mem_nil, .inl hmem, hlinked.tid hmem⟩
  | free => exact ⟨List.not_mem_nil, .inl hmem, hlinked.tid hmem⟩
  | miss => exact ⟨by simp, .inl hmem, hlinked.tid hmem⟩
  | other => exact ⟨List.not_mem_nil, .inl hmem, hlinked.tid hmem⟩

/-- An iteration for a client that may send keeps the queues in order. -/
theorem Linked.step (h : Linked run lists) (hasks : Asks run request) {lists' : Lists Q ℤ}
    (houtcome : Outcome run.server lists request.1 request.2
      (run.server.serve request.1 request.2).1 (run.server.serve request.1 request.2).2 lists') :
    Linked (run.handle request) lists' where
  represents := houtcome.represents h hasks
  tid hmem := (houtcome.mem h hmem).2.2
  pending {sem tid} hmem := by
    obtain ⟨hsilent, hwhich, _⟩ := houtcome.mem h hmem
    have hwaits : (SemaphoreServer.pending run.history tid || decide (request.1 = tid)) = true := by
      rw [Bool.or_eq_true, decide_eq_true_iff]
      exact hwhich.imp h.pending Eq.symm
    rw [pending_handle, hwaits]
    simpa using hsilent

end Linked

omit [DecidableEq Q] in
theorem linked_start (initial : Q → Word) (node : ℤ → QueueNode ℤ) (tid : ℤ → ℤ) :
    Linked (start initial node tid) fun _ => [] where
  represents :=
    { contents := fun _ => ⟨rfl, rfl, trivial, List.nodup_nil⟩
      disjoint := nofun }
  tid := nofun
  pending := nofun

/-! ## The counters count the queues -/

/-- The iteration is a `SEM_V` that queues its client. -/
def Iteration.Queues (iteration : Iteration Q) : Prop :=
  iteration.req.type = semV ∧ iteration.counter.toInt < 0

instance (iteration : Iteration Q) : Decidable iteration.Queues :=
  inferInstanceAs (Decidable (_ ∧ _))

/-- The clients that were queued for a semaphore, in order. -/
def queued (history : List (Iteration Q)) (sem : Q) : List ℤ :=
  (history.filter fun iteration => iteration.req.sem = sem ∧ iteration.Queues).map Iteration.tid

/-- The clients that were woken from a semaphore's queue, in order. -/
def woken (history : List (Iteration Q)) (sem : Q) : List Reply :=
  (history.filter fun iteration => iteration.req.sem = sem).flatMap Iteration.replies

/-- The number of `SEM_V` requests that were not queued, or queued and woken. -/
def granted (history : List (Iteration Q)) (sem : Q) : ℕ :=
  (history.countP fun iteration =>
    iteration.req.sem = sem ∧ iteration.req.type = semV ∧ ¬iteration.Queues) +
      (woken history sem).length

def releases (history : List (Iteration Q)) (sem : Q) : ℕ :=
  history.countP fun iteration => iteration.req.sem = sem ∧ iteration.req.type = semP

/-- The counters count the queues, whose members are distinct clients, served in order;
no `DequeueQueue` finds a queue empty, and no more is granted than there is. -/
structure Fair (initial : Q → Word) (run : Run Q) : Prop where
  blocked : ∃ lists, Represents run.server.blocked lists ∧ ∀ sem,
    ((lists sem).length : ℤ) = max 0 (-(run.server.counter sem).toInt) ∧
      (queued run.history sem).map some = woken run.history sem ++ (lists sem).map some
  dequeued : ∀ iteration ∈ run.history, none ∉ iteration.replies
  granted : ∀ sem, (granted run.history sem : ℤ) ≤
    (initial sem).toInt + releases run.history sem

/-- A release does not find the counter at its largest value. -/
def Fits (run : Run Q) (request : ℤ × SemReq Q) : Prop :=
  request.2.type = semP → (run.server.counter request.2.sem).toInt + 1 < 2 ^ 31

instance (run : Run Q) (request : ℤ × SemReq Q) : Decidable (Fits run request) :=
  inferInstanceAs (Decidable (_ → _))

/-- The invariant: what is granted and what is left make up what was released. -/
structure Counts (initial : Q → Word) (run : Run Q) (lists : Lists Q ℤ) : Prop where
  linked : Linked run lists
  range : ∀ {sem tid}, tid ∈ lists sem → 0 ≤ tid ∧ tid ≤ tidMax
  length : ∀ sem, ((lists sem).length : ℤ) = max 0 (-(run.server.counter sem).toInt)
  order : ∀ sem, (queued run.history sem).map some =
    woken run.history sem ++ (lists sem).map some
  dequeued : ∀ iteration ∈ run.history, none ∉ iteration.replies
  granted : ∀ sem, (granted run.history sem : ℤ) + max 0 (run.server.counter sem).toInt =
    (initial sem).toInt + releases run.history sem

section Counts

variable {initial : Q → Word} {run : Run Q} {lists : Lists Q ℤ} {request : ℤ × SemReq Q}

theorem Counts.fair (h : Counts initial run lists) : Fair initial run where
  blocked := ⟨lists, h.linked.represents, fun sem => ⟨h.length sem, h.order sem⟩⟩
  dequeued := h.dequeued
  granted sem := by
    have hbalance := h.granted sem
    omega

/-- There are more tids than clients in a queue that a further client joins. -/
theorem Counts.lower (h : Counts initial run lists) (hasks : Asks run request) (sem : Q) :
    -2 ^ 31 ≤ (run.server.counter sem).toInt - 1 := by
  have hnodup : (request.1 :: lists sem).Nodup :=
    List.nodup_cons.mpr ⟨h.linked.not_mem hasks sem, h.linked.represents.nodup sem⟩
  have hsubset : (request.1 :: lists sem).toFinset ⊆ Finset.Icc 0 tidMax := by
    intro tid hmem
    rw [List.mem_toFinset, List.mem_cons] at hmem
    rw [Finset.mem_Icc]
    rcases hmem with rfl | hmem
    · exact ⟨hasks.nonneg, hasks.le_max⟩
    · exact h.range hmem
  have hcard : (lists sem).length + 1 ≤ 2 ^ 31 := by
    calc
      (lists sem).length + 1 = (request.1 :: lists sem).toFinset.card :=
        (List.toFinset_card_of_nodup hnodup).symm
      _ ≤ (Finset.Icc 0 tidMax).card := Finset.card_le_card hsubset
      _ = 2 ^ 31 := Int.card_Icc 0 tidMax
  have hlength := h.length sem
  omega

/-- Another semaphore is left as it is. -/
theorem Outcome.of_ne {replies : List Reply} {s' : State Q} {lists' : Lists Q ℤ}
    (h : Outcome run.server lists request.1 request.2 replies s' lists')
    (hlinked : Linked run lists) {sem : Q} (hne : sem ≠ request.2.sem) :
    s'.counter sem = run.server.counter sem ∧ lists' sem = lists sem := by
  cases h with
  | queue => exact ⟨update_of_ne hne _ _, Lists.append_of_ne _ _ hne⟩
  | wake first rest _ _ hqueue =>
      refine ⟨update_of_ne hne _ _, Lists.erase_of_not_mem fun hmem => hne ?_⟩
      have hfirst : first ∈ lists request.2.sem := hqueue ▸ List.mem_cons_self
      exact hlinked.represents.disjoint hmem hfirst
  | take => exact ⟨update_of_ne hne _ _, rfl⟩
  | free => exact ⟨update_of_ne hne _ _, rfl⟩
  | miss => exact ⟨update_of_ne hne _ _, rfl⟩
  | other => exact ⟨rfl, rfl⟩

section History

variable (history : List (Iteration Q)) (iteration : Iteration Q) (sem : Q)

theorem queued_append : queued (history ++ [iteration]) sem = queued history sem ++
    if iteration.req.sem = sem ∧ iteration.Queues then [iteration.tid] else [] := by
  rw [queued, List.filter_append, List.map_append, ← queued]
  split_ifs with hqueues
  · simp [hqueues]
  · simp [hqueues]

theorem woken_append : woken (history ++ [iteration]) sem = woken history sem ++
    if iteration.req.sem = sem then iteration.replies else [] := by
  rw [woken, List.filter_append, List.flatMap_append, ← woken]
  split_ifs with hsem
  · simp [hsem]
  · simp [hsem]

theorem granted_append : granted (history ++ [iteration]) sem = granted history sem +
    (if iteration.req.sem = sem ∧ iteration.req.type = semV ∧ ¬iteration.Queues then 1 else 0) +
      if iteration.req.sem = sem then iteration.replies.length else 0 := by
  rw [granted, List.countP_append, woken_append, List.length_append, granted,
    List.countP_singleton, apply_ite List.length, List.length_nil, Nat.add_add_add_comm,
    ← Nat.add_assoc]
  simp

theorem releases_append : releases (history ++ [iteration]) sem = releases history sem +
    if iteration.req.sem = sem ∧ iteration.req.type = semP then 1 else 0 := by
  rw [releases, List.countP_append, List.countP_singleton, releases]
  simp

end History

/-- The counter and the queue of the semaphore of a request. -/
theorem Outcome.length {replies : List Reply} {s' : State Q} {lists' : Lists Q ℤ}
    (h : Outcome run.server lists request.1 request.2 replies s' lists')
    (hcounts : Counts initial run lists) (hasks : Asks run request) (hfits : Fits run request) :
    ((lists' request.2.sem).length : ℤ) = max 0 (-(s'.counter request.2.sem).toInt) := by
  have hlength := hcounts.length request.2.sem
  have hlower := toInt_sub_one (hcounts.lower hasks request.2.sem)
  cases h with
  | take htype hcounter =>
      simp only [update_self]
      omega
  | queue htype hcounter =>
      rw [Lists.append_self, List.length_append, List.length_singleton]
      simp only [update_self]
      omega
  | free htype hcounter =>
      have hupper := toInt_add_one (hfits htype)
      simp only [update_self]
      omega
  | wake first rest htype hcounter hqueue =>
      have hupper := toInt_add_one (hfits htype)
      have herase : lists.erase first request.2.sem = rest := by
        rw [Lists.erase, hqueue, List.erase_cons_head]
      rw [hqueue, List.length_cons] at hlength
      rw [herase]
      simp only [update_self]
      omega
  | miss htype hcounter hqueue =>
      have hupper := toInt_add_one (hfits htype)
      rw [hqueue, List.length_nil] at hlength
      omega
  | other => exact hlength

/-- A release finds somebody to wake as long as the counter is negative. -/
theorem Outcome.dequeued {replies : List Reply} {s' : State Q} {lists' : Lists Q ℤ}
    (h : Outcome run.server lists request.1 request.2 replies s' lists')
    (hcounts : Counts initial run lists) (hfits : Fits run request) : none ∉ replies := by
  cases h with
  | miss htype hcounter hqueue =>
      have hlength := hcounts.length request.2.sem
      have hupper := toInt_add_one (hfits htype)
      rw [hqueue, List.length_nil] at hlength
      omega
  | wake => simp
  | take => exact List.not_mem_nil
  | queue => exact List.not_mem_nil
  | free => exact List.not_mem_nil
  | other => exact List.not_mem_nil

/-- What was queued, woken and granted after a request for the semaphore. -/
theorem Outcome.balance {replies : List Reply} {s' : State Q} {lists' : Lists Q ℤ}
    (h : Outcome run.server lists request.1 request.2 replies s' lists')
    (hcounts : Counts initial run lists) (hasks : Asks run request) (hfits : Fits run request)
    {history : List (Iteration Q)} (hhistory : history = run.history ++
      [⟨request.1, request.2, s'.counter request.2.sem, replies⟩]) :
    (queued history request.2.sem).map some =
        woken history request.2.sem ++ (lists' request.2.sem).map some ∧
      (granted history request.2.sem : ℤ) + max 0 (s'.counter request.2.sem).toInt =
        (initial request.2.sem).toInt + releases history request.2.sem := by
  have horder := hcounts.order request.2.sem
  have hgranted := hcounts.granted request.2.sem
  have hlower := toInt_sub_one (hcounts.lower hasks request.2.sem)
  have hvp : semV ≠ semP := by decide
  rw [hhistory, queued_append, woken_append, granted_append, releases_append]
  cases h with
  | take htype hcounter =>
      have hnot := Int.not_lt.mpr hcounter
      simp only [Iteration.Queues, update_self, htype, hvp, hnot, and_false, not_false_eq_true,
        and_self, if_true, if_false, List.append_nil, List.length_nil]
      exact ⟨horder, by omega⟩
  | queue htype hcounter =>
      simp only [Iteration.Queues, update_self, htype, hvp, hcounter, and_self, and_false,
        not_true_eq_false, if_true, if_false, List.append_nil, List.length_nil,
        List.map_append, List.map_cons, List.map_nil, Lists.append_self, horder,
        List.append_assoc, true_and]
      omega
  | free htype hcounter =>
      have hupper := toInt_add_one (hfits htype)
      simp only [Iteration.Queues, update_self, htype, hvp.symm, and_self, false_and, and_false,
        if_true, if_false, List.append_nil, List.length_nil]
      exact ⟨horder, by omega⟩
  | wake first rest htype hcounter hqueue =>
      have hupper := toInt_add_one (hfits htype)
      have herase : lists.erase first request.2.sem = rest := by
        rw [Lists.erase, hqueue, List.erase_cons_head]
      rw [hqueue, List.map_cons, List.append_cons] at horder
      simp only [Iteration.Queues, update_self, htype, hvp.symm, and_self, false_and, and_false,
        if_true, if_false, List.append_nil, List.length_singleton, herase]
      exact ⟨horder, by omega⟩
  | miss htype hcounter hqueue =>
      have hlength := hcounts.length request.2.sem
      have hupper := toInt_add_one (hfits htype)
      rw [hqueue, List.length_nil] at hlength
      omega
  | other hv hp =>
      simp only [Iteration.Queues, hv, hp, false_and, and_false, if_true, if_false,
        List.append_nil, List.length_nil]
      exact ⟨horder, hgranted⟩

/-- A request of a client that may send, which does not overflow the counter, keeps the
invariant. -/
theorem Counts.step (h : Counts initial run lists) (hasks : Asks run request)
    (hfits : Fits run request) :
    ∃ lists', Counts initial (run.handle request) lists' := by
  obtain ⟨lists', houtcome⟩ := h.linked.outcome request
  have hlinked := h.linked.step hasks houtcome
  refine ⟨lists', hlinked, ?_, ?_, ?_, ?_, ?_⟩
  · intro sem tid hmem
    rcases (houtcome.mem h.linked hmem).2.1 with hold | rfl
    · exact h.range hold
    · exact ⟨hasks.nonneg, hasks.le_max⟩
  · intro sem
    by_cases hsem : sem = request.2.sem
    · rw [hsem]
      exact houtcome.length h hasks hfits
    · obtain ⟨hcounter, hlists⟩ := houtcome.of_ne h.linked hsem
      rw [hlists, Run.handle, hcounter]
      exact h.length sem
  · intro sem
    by_cases hsem : sem = request.2.sem
    · rw [hsem]
      exact (houtcome.balance h hasks hfits rfl).1
    · rw [(houtcome.of_ne h.linked hsem).2, Run.handle, queued_append, woken_append]
      simp only [Ne.symm hsem, false_and, if_false, List.append_nil]
      exact h.order sem
  · intro iteration hmem
    rcases List.mem_append.mp hmem with hold | hnew
    · exact h.dequeued iteration hold
    · rw [List.mem_singleton.mp hnew]
      exact houtcome.dequeued h hfits
  · intro sem
    by_cases hsem : sem = request.2.sem
    · rw [hsem]
      exact (houtcome.balance h hasks hfits rfl).2
    · rw [Run.handle, (houtcome.of_ne h.linked hsem).1, granted_append, releases_append]
      simp only [Ne.symm hsem, false_and, if_false, Nat.add_zero]
      exact h.granted sem

end Counts

theorem counts_start {initial : Q → Word} (hinitial : ∀ sem, 0 ≤ (initial sem).toInt)
    (node : ℤ → QueueNode ℤ) (tid : ℤ → ℤ) :
    Counts initial (start initial node tid) fun _ => [] where
  linked := linked_start initial node tid
  range := nofun
  length sem := by
    have hnonneg := hinitial sem
    simp only [start, List.length_nil]
    omega
  order _ := rfl
  dequeued := nofun
  granted sem := by
    have hnonneg := hinitial sem
    simp only [start, granted, woken, releases, List.countP_nil, List.filter_nil,
      List.flatMap_nil, List.length_nil]
    omega

/-- As long as no client sends while its request is unreplied, and no release finds the
counter at its largest value, the semaphores are fair. -/
theorem fair_of_fits {initial : Q → Word} (hinitial : ∀ sem, 0 ≤ (initial sem).toInt)
    (node : ℤ → QueueNode ℤ) (tid : ℤ → ℤ) {requests : List (ℤ × SemReq Q)}
    (hrequests : EachStep Run.handle (fun run request => Asks run request ∧ Fits run request)
      (start initial node tid) requests) :
    Throughout Run.handle (Fair initial) (start initial node tid) requests := by
  have hcounts : Throughout Run.handle (fun run => ∃ lists, Counts initial run lists)
      (start initial node tid) requests := by
    apply hrequests.throughout
    · rintro run request ⟨lists, hcounts⟩ ⟨hasks, hfits⟩
      exact hcounts.step hasks hfits
    · exact ⟨fun _ => [], counts_start hinitial node tid⟩
  exact hcounts.mono fun ⟨_, hcounts⟩ => hcounts.fair

/-- Semaphores with a given initial value, on a zeroed stack. -/
def sampleStart (initial : Word) : Run Bool :=
  start (fun _ => initial) (fun _ => QueueNode.null) fun _ => 0

/-- One client takes a semaphore, a second waits for it and is woken by a third, and the
second waits for another semaphore. -/
theorem fair_of_fits_sample : Throughout Run.handle (Fair fun _ => 1) (sampleStart 1)
    [(5, ⟨semV, true⟩), (6, ⟨semV, true⟩), (7, ⟨semP, true⟩), (6, ⟨semV, false⟩)] :=
  fair_of_fits (by decide) (fun _ => QueueNode.null) (fun _ => 0) (by decide +kernel)

/-- A release of a semaphore at its largest value: the counter becomes negative, and no
client is there to be woken. -/
theorem not_fair :
    ¬∀ (initial : Bool → Word), (∀ sem, 0 ≤ (initial sem).toInt) →
      ∀ requests, EachStep Run.handle Asks
        (start initial (fun _ => QueueNode.null) fun _ => 0) requests →
          Throughout Run.handle (Fair initial)
            (start initial (fun _ => QueueNode.null) fun _ => 0) requests := by
  intro hfair
  have hasks : EachStep Run.handle Asks (sampleStart 0x7fffffff) [(5, ⟨semP, true⟩)] := by
    decide +kernel
  have hlast := (hfair (fun _ => 0x7fffffff) (by decide) _ hasks).last
  exact hlast.dequeued _ List.mem_cons_self (by decide +kernel)

end Rtk.SemaphoreServer
