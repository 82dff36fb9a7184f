import Rtk.Properties.ClockServer

/-!
# Delays last long enough

The deadline of a delay is the sum of two `int`s.  A delay lasts for its ticks exactly when
the sum is an `int`; otherwise the deadline is negative and the delay is over at once.
-/

namespace Rtk.ClockServer

open Rtk.ByteMemory
open Rtk.Transition

/-- `INT_MAX`. -/
def intMax : ℤ := 2147483647

/-- The ticks of the iterations before the one at `k`. -/
def counted (history : List Iteration) (k : ℕ) : ℕ :=
  (history.take k).countP fun iteration => iteration.req.type = csTick

/-- How much `num_ticks` grows from the start of iteration `i` to the end of iteration `k`. -/
def grown (history : List Iteration) (i k : ℕ) : ℕ :=
  ((history.take (k + 1)).drop i).countP fun iteration => iteration.req.type = csTick

/-- The task of the entry is replied to in iteration `k` for the first time since. -/
def RepliedIn (history : List Iteration) (entry : Entry) (k : ℕ) : Prop :=
  entry.1 ≤ k ∧
    (∃ iteration, history[k]? = some iteration ∧
      ∃ reply ∈ iteration.answered ++ iteration.released, reply.tid = entry.2.tid) ∧
    ∀ j iteration, entry.1 ≤ j → j < k → history[j]? = some iteration →
      ∀ reply ∈ iteration.answered ++ iteration.released, reply.tid ≠ entry.2.tid

/-- The delay is not replied to before `num_ticks` has grown by it. -/
def NotEarly (history : List Iteration) (entry : Entry) : Prop :=
  ∀ k, RepliedIn history entry k → entry.2.req.data.toInt ≤ grown history entry.1 k

/-! ## Sums of words -/

section Words

variable {left right : Word}

theorem toInt_add_cases (hleft : 0 ≤ left.toInt) (hright : 0 ≤ right.toInt) :
    left.toInt + right.toInt ≤ intMax ∧
        (left + right).toInt = left.toInt + right.toInt ∨
      intMax < left.toInt + right.toInt ∧ (left + right).toInt < 0 := by
  have hlt := @BitVec.toInt_lt 32 left
  have hlt' := @BitVec.toInt_lt 32 right
  rw [BitVec.toInt_add, Int.bmod_def, intMax]
  split_ifs <;> omega

/-- Counting on wraps around at most downwards. -/
theorem toInt_add_ofNat_le (hleft : 0 ≤ left.toInt) (count : ℕ) :
    (left + BitVec.ofNat 32 count).toInt ≤ left.toInt + count := by
  have hnat : left.toInt = left.toNat := by
    rw [BitVec.toInt_eq_toNat_cond] at hleft ⊢
    split_ifs at hleft ⊢ <;> omega
  rw [BitVec.toInt_eq_toNat_cond, BitVec.toNat_add, BitVec.toNat_ofNat, hnat]
  split_ifs <;> omega

end Words

/-! ## Counting ticks -/

section Counting

variable {history : List Iteration} {last : Iteration} {i k : ℕ}

theorem counted_add_grown (h : i ≤ k + 1) :
    counted history i + grown history i k = counted history (k + 1) := by
  calc
    counted history i + grown history i k =
        ((history.take (k + 1)).take i ++ (history.take (k + 1)).drop i).countP
          fun iteration => iteration.req.type = csTick := by
      rw [List.countP_append, List.take_take, Nat.min_eq_left h]
      rfl
    _ = counted history (k + 1) := by
      rw [List.take_append_drop]
      rfl

theorem counted_append_of_le (h : k ≤ history.length) (last : Iteration) :
    counted (history ++ [last]) k = counted history k := by
  rw [counted, List.take_append_of_le_length h]
  rfl

theorem counted_succ (history : List Iteration) (last : Iteration) :
    counted (history ++ [last]) (history.length + 1) = counted history history.length +
      if last.req.type = csTick then 1 else 0 := by
  have hall : (history ++ [last]).take (history.length + 1) = history ++ [last] := by
    rw [List.take_of_length_le (by simp)]
  rw [counted, counted, hall, List.take_length, List.countP_append, List.countP_singleton]
  simp only [decide_eq_true_eq]

theorem grown_le (h : i ≤ k + 1) {j : ℕ} (hj : j ≤ k) (hi : i ≤ j + 1) :
    grown history i j ≤ grown history i k := by
  have hmono : counted history (j + 1) ≤ counted history (k + 1) := by
    apply List.Sublist.countP_le
    exact (List.take_prefix_take_left (by omega)).sublist
  have hleft := @counted_add_grown history i j hi
  have hright := @counted_add_grown history i k h
  omega

/-- `num_ticks` is the number of ticks, as a word. -/
structure Counts (run : Run) : Prop where
  began : ∀ k iteration, run.history[k]? = some iteration →
    iteration.began = BitVec.ofNat 32 (counted run.history k)
  ended : ∀ k iteration, run.history[k]? = some iteration →
    iteration.ended = BitVec.ofNat 32 (counted run.history (k + 1))
  numTicks : run.server.numTicks = BitVec.ofNat 32 (counted run.history run.history.length)

theorem numTicks_of_delay {s s' : State} {fuel : ℕ} {tid : ℤ} {priority : Word}
    (hdelay : s.delay fuel tid priority = some s') : s'.numTicks = s.numTicks := by
  rw [State.delay, Option.map_eq_some_iff] at hdelay
  obtain ⟨_, _, rfl⟩ := hdelay
  rfl

theorem numTicks_of_answer {s s' : State} {fuel : ℕ} {tid : ℤ} {req : ClockRequest}
    {answered : List Reply} (hanswer : s.answer fuel tid req = some (answered, s')) :
    s'.numTicks = s.numTicks + BitVec.ofNat 32 (if req.type = csTick then 1 else 0) := by
  have hother : req.type ≠ csTick → s'.numTicks = s.numTicks → s'.numTicks = s.numTicks +
      BitVec.ofNat 32 (if req.type = csTick then 1 else 0) := by
    intro hne hsame
    rw [if_neg hne, hsame]
    exact (BitVec.add_zero _).symm
  rw [State.answer] at hanswer
  split_ifs at hanswer with htime hdelay huntil htick
  · obtain ⟨_, rfl⟩ := Prod.mk.inj (Option.some.inj hanswer)
    exact hother (by rw [htime]; decide) rfl
  · obtain ⟨_, hset, heq⟩ := Option.map_eq_some_iff.mp hanswer
    obtain ⟨_, rfl⟩ := Prod.mk.inj heq
    exact hother (by rw [hdelay]; decide) (numTicks_of_delay hset)
  · obtain ⟨_, hset, heq⟩ := Option.map_eq_some_iff.mp hanswer
    obtain ⟨_, rfl⟩ := Prod.mk.inj heq
    exact hother (by rw [huntil]; decide) (numTicks_of_delay hset)
  · obtain ⟨_, rfl⟩ := Prod.mk.inj (Option.some.inj hanswer)
    rw [if_pos htick]
    rfl
  · obtain ⟨_, rfl⟩ := Prod.mk.inj (Option.some.inj hanswer)
    exact hother htick rfl

theorem Counts.step {run run' : Run} {request : ℤ × ClockRequest} (h : Counts run)
    (hstep : clockServer.step run request run') : Counts run' := by
  obtain ⟨fuel, answered, released, hserve, hhistory⟩ := hstep
  obtain ⟨middle, head, hanswer, _, hserver⟩ := eq_of_serve hserve
  have hended : run'.server.numTicks = middle.numTicks := by rw [hserver]
  have hticks : run'.server.numTicks = BitVec.ofNat 32 (counted run'.history
      (run.history.length + 1)) := by
    rw [hended, hhistory, counted_succ, BitVec.ofNat_add, ← h.numTicks]
    exact numTicks_of_answer hanswer
  refine ⟨?_, ?_, ?_⟩
  · intro k iteration hget
    rw [hhistory] at hget ⊢
    rcases getElem?_concat_iff.mp hget with hold | ⟨rfl, rfl⟩
    · have hlt := (List.getElem?_eq_some_iff.mp hold).1
      rw [counted_append_of_le (Nat.le_of_lt hlt)]
      exact h.began k iteration hold
    · rw [counted_append_of_le (Nat.le_refl _)]
      exact h.numTicks
  · intro k iteration hget
    rw [hhistory] at hget
    rcases getElem?_concat_iff.mp hget with hold | ⟨rfl, rfl⟩
    · have hlt := (List.getElem?_eq_some_iff.mp hold).1
      rw [hhistory, counted_append_of_le hlt]
      exact h.ended k iteration hold
    · exact hticks
  · rw [hticks, hhistory, List.length_append, List.length_singleton]

theorem counts_of_reachable {run : Run} (hreachable : Reachable clockServer Waits run) :
    Counts run := by
  apply hreachable.invariant
  · rintro run ⟨_, hticks, hhistory⟩
    refine ⟨?_, ?_, ?_⟩
    · intro k iteration hget
      rw [hhistory] at hget
      exact absurd hget (by simp)
    · intro k iteration hget
      rw [hhistory] at hget
      exact absurd hget (by simp)
    · rw [hticks, hhistory]
      rfl
  · exact fun h _ hstep => h.step hstep

/-- How `num_ticks` grows between two iterations. -/
theorem Counts.ended_eq {run : Run} (h : Counts run) {first later : Iteration}
    (hfirst : run.history[i]? = some first) (hlater : run.history[k]? = some later)
    (hle : i ≤ k) : later.ended = first.began + BitVec.ofNat 32 (grown run.history i k) := by
  rw [h.began i first hfirst, h.ended k later hlater, ← BitVec.ofNat_add,
    counted_add_grown (Nat.le_succ_of_le hle)]

theorem grown_self {iteration : Iteration} (hget : history[k]? = some iteration)
    (htype : iteration.req.type ≠ csTick) : grown history k k = 0 := by
  obtain ⟨hlt, rfl⟩ := List.getElem?_eq_some_iff.mp hget
  have hsingle : (history.take (k + 1)).drop k = [history[k]] := by
    rw [List.take_succ_eq_append_getElem hlt, List.drop_left' (by simp; omega)]
  rw [grown, hsingle, List.countP_singleton]
  simp only [htype, decide_false, Bool.false_eq_true, if_false]

end Counting

/-! ## Every delay -/

section Delay

variable {run : Run} {entry : Entry}

/-- A delay whose deadline is an `int` ends in time. -/
theorem Kept.notEarly {waiting : List Entry} (h : Kept run waiting) (hcounts : Counts run)
    (hget : run.history[entry.1]? = some entry.2) (htype : entry.2.req.type = csDelay)
    (hticks : 0 ≤ entry.2.began.toInt) (hdata : 0 ≤ entry.2.req.data.toInt)
    (hfits : entry.2.began.toInt + entry.2.req.data.toInt ≤ intMax) :
    NotEarly run.history entry := by
  have hdeadline : entry.2.deadline.toInt =
      entry.2.req.data.toInt + entry.2.began.toInt := by
    rw [Iteration.deadline, if_pos htype]
    rcases toInt_add_cases hdata hticks with ⟨_, heq⟩ | ⟨hover, _⟩
    · exact heq
    · omega
  rintro k ⟨hk, ⟨later, hlater, answer, hanswer, htid⟩, _⟩
  by_contra hshort
  -- otherwise no iteration up to the reply ends at the deadline
  have hnot : ∀ j, entry.1 ≤ j → j ≤ k → ¬Expired run.history entry j := by
    rintro j hj hjk ⟨iteration, hiteration, hexpired⟩
    rw [expired, decide_eq_true_iff, hdeadline, hcounts.ended_eq hget hiteration hj] at hexpired
    have hle := toInt_add_ofNat_le hticks (grown run.history entry.1 j)
    have hgrown := @grown_le run.history entry.1 k (by omega) j hjk (by omega)
    omega
  exact h.patient entry ⟨hget, .inl htype⟩ k later hk hlater hnot answer hanswer htid

/-- A delay whose deadline is no `int` is over in the iteration of its request. -/
theorem Kept.repliedIn {waiting : List Entry} (h : Kept run waiting) (hcounts : Counts run)
    (hget : run.history[entry.1]? = some entry.2) (htype : entry.2.req.type = csDelay)
    (hticks : 0 ≤ entry.2.began.toInt) (hdata : 0 ≤ entry.2.req.data.toInt)
    (hover : intMax < entry.2.began.toInt + entry.2.req.data.toInt) :
    RepliedIn run.history entry entry.1 := by
  have hnegative : entry.2.deadline.toInt < 0 := by
    rw [Iteration.deadline, if_pos htype]
    rcases toInt_add_cases hdata hticks with ⟨hfits, _⟩ | ⟨_, hlt⟩
    · omega
    · exact hlt
  have hended : entry.2.ended = entry.2.began := by
    rw [hcounts.ended_eq hget hget (Nat.le_refl _), grown_self hget (by rw [htype]; decide)]
    exact BitVec.add_zero _
  have hexpired : Expired run.history entry entry.1 := by
    refine ⟨entry.2, hget, ?_⟩
    rw [expired, decide_eq_true_iff, hended]
    omega
  obtain ⟨due, hreleased, _, hmem⟩ := h.released entry.1 entry.2 hget
  have hdue : entry ∈ due := by
    rw [hmem]
    refine ⟨⟨hget, .inl htype⟩, Nat.le_refl _, hexpired, ?_⟩
    intro j hj hlt
    exact absurd hlt (Nat.not_lt.mpr hj)
  refine ⟨Nat.le_refl _, ⟨entry.2, hget, reply entry, ?_, rfl⟩, ?_⟩
  · rw [List.mem_append, hreleased]
    exact .inr (List.mem_map_of_mem hdue)
  · intro j _ hj hlt
    exact absurd hlt (Nat.not_lt.mpr hj)

/-- A delay is not replied to before its ticks have passed exactly when its deadline is an
`int`. -/
theorem notEarly_iff (hreachable : Reachable clockServer Waits run)
    (hget : run.history[entry.1]? = some entry.2) (htype : entry.2.req.type = csDelay)
    (hticks : 0 ≤ entry.2.began.toInt) (hdata : 0 ≤ entry.2.req.data.toInt) :
    NotEarly run.history entry ↔
      entry.2.began.toInt + entry.2.req.data.toInt ≤ intMax := by
  obtain ⟨waiting, hkept⟩ := kept_of_reachable hreachable
  have hcounts := counts_of_reachable hreachable
  constructor
  · intro hnotEarly
    by_contra hover
    have hreplied := hkept.repliedIn hcounts hget htype hticks hdata (Int.not_le.mp hover)
    have hle := hnotEarly entry.1 hreplied
    rw [grown_self hget (by rw [htype]; decide)] at hle
    have hlt := @BitVec.toInt_lt 32 entry.2.began
    rw [intMax] at hover
    omega
  · exact hkept.notEarly hcounts hget htype hticks hdata

end Delay

/-- The server before its first request, with zeroed records. -/
def firstRun : Run := ⟨⟨⟨none, fun _ => ⟨none, 0⟩⟩, fun _ => 0, 0⟩, []⟩

/-- A delay of one tick that ends with it. -/
theorem notEarly_sample :
    ∃ run entry, serveAll 4 firstRun [(5, ⟨csDelay, 1⟩), (7, ⟨csTick, 0⟩)] = some run ∧
      run.history[0]? = some entry ∧ NotEarly run.history (0, entry) := by
  have hserves : (serveAll 4 firstRun [(5, ⟨csDelay, 1⟩), (7, ⟨csTick, 0⟩)]).bind
      (fun run => (run.history[0]?).map fun entry =>
        (entry.req, entry.began)) = some (⟨csDelay, 1⟩, 0) := by decide +kernel
  obtain ⟨run, hrun, hfirst⟩ := Option.bind_eq_some_iff.mp hserves
  obtain ⟨entry, hget, hvalues⟩ := Option.map_eq_some_iff.mp hfirst
  obtain ⟨hreq, hbegan⟩ := Prod.mk.inj hvalues
  have hreachable : Reachable clockServer Waits run := by
    apply reachable_of_serveAll (.initial ⟨rfl, rfl, rfl⟩) _ _ hrun
    · simp [firstRun]
    · decide
  refine ⟨run, entry, hrun, hget, (notEarly_iff hreachable hget ?_ ?_ ?_).mpr ?_⟩
  · rw [hreq]
  · rw [hbegan]
    decide
  · rw [hreq]
    decide
  · rw [hreq, hbegan]
    decide

/-- A delay of `INT_MAX` ticks that is requested after the first tick is over at once. -/
theorem not_notEarly :
    ¬∀ (run : Run) (entry : Entry), Reachable clockServer Waits run →
      run.history[entry.1]? = some entry.2 → entry.2.req.type = csDelay →
        0 ≤ entry.2.began.toInt → 0 ≤ entry.2.req.data.toInt → NotEarly run.history entry := by
  intro hall
  have hserves : (serveAll 4 firstRun [(7, ⟨csTick, 0⟩), (5, ⟨csDelay, 0x7fffffff⟩)]).bind
      (fun run => (run.history[1]?).map fun entry => (entry.tid, entry.req, entry.began,
        entry.released, grown run.history 1 1)) =
      some (5, ⟨csDelay, 0x7fffffff⟩, 1, [⟨5, none⟩], 0) := by decide +kernel
  obtain ⟨run, hrun, hsecond⟩ := Option.bind_eq_some_iff.mp hserves
  obtain ⟨entry, hget, hvalues⟩ := Option.map_eq_some_iff.mp hsecond
  simp only [Prod.mk.injEq] at hvalues
  obtain ⟨htid, hreq, hbegan, hreleased, hgrown⟩ := hvalues
  have hreachable : Reachable clockServer Waits run := by
    apply reachable_of_serveAll (.initial ⟨rfl, rfl, rfl⟩) _ _ hrun
    · simp [firstRun]
    · decide
  have hreplied : RepliedIn run.history (1, entry) 1 := by
    refine ⟨Nat.le_refl 1, ⟨entry, hget, ⟨5, none⟩, ?_, htid.symm⟩, ?_⟩
    · rw [hreleased]
      exact List.mem_append_right _ List.mem_cons_self
    · intro j _ hj hlt
      exact absurd hlt (Nat.not_lt.mpr hj)
  have hle := hall run (1, entry) hreachable hget (by rw [hreq]) (by rw [hbegan]; decide)
    (by rw [hreq]; decide) 1 hreplied
  rw [hreq, hgrown] at hle
  exact absurd hle (by decide)

end Rtk.ClockServer
