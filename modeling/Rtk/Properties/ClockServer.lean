import Rtk.Invariant.DelayedQueue

/-!
# Delays end in time

A delay is replied in the first iteration that ends with `num_ticks` at its deadline
or behind it, and in no other one.
-/

namespace Rtk.ClockServer

open Rtk.Lib
open Rtk.Transition

/-! ## Histories -/

/-- Iteration `k` ends with `num_ticks` at the deadline or behind it. -/
def Expired (history : List Iteration) (entry : Entry) (k : ℕ) : Prop :=
  ∃ iteration, history[k]? = some iteration ∧ expired iteration.ended entry = true

/-- Iteration `k` is the first that does, from the request's own on. -/
def FirstExpired (history : List Iteration) (entry : Entry) (k : ℕ) : Prop :=
  entry.1 ≤ k ∧ Expired history entry k ∧ ∀ j, entry.1 ≤ j → j < k → ¬Expired history entry j

/-- The iteration releases the delays that are first over in it, in order. -/
def Releases (history : List Iteration) (k : ℕ) (iteration : Iteration) : Prop :=
  ∃ due : List Entry, iteration.released = due.map reply ∧ due.Pairwise Earlier ∧
    ∀ entry, entry ∈ due ↔ Requested history entry ∧ FirstExpired history entry k

/-- No reply goes to the task of a delay that is not over yet. -/
def Patient (history : List Iteration) : Prop :=
  ∀ entry, Requested history entry → ∀ k later, entry.1 ≤ k → history[k]? = some later →
    (∀ j, entry.1 ≤ j → j ≤ k → ¬Expired history entry j) →
      ∀ reply ∈ later.answered ++ later.released, reply.tid ≠ entry.2.tid

/-- The replies of the `switch` go to the sender, and a delay gets none there. -/
def AnswersSender (history : List Iteration) : Prop :=
  ∀ (k : ℕ) (iteration : Iteration), history[k]? = some iteration →
    (∀ reply ∈ iteration.answered, reply.tid = iteration.tid) ∧
      (iteration.Delays → iteration.answered = [])

/-- The task of a delay sends nothing before the delay is over. -/
def Silent (history : List Iteration) : Prop :=
  ∀ entry, Requested history entry → ∀ k later, entry.1 < k → history[k]? = some later →
    later.tid = entry.2.tid → ∃ j, entry.1 ≤ j ∧ j < k ∧ Expired history entry j

def Iteration.repliesTo (iteration : Iteration) (tid : ℤ) : List Reply :=
  (iteration.answered ++ iteration.released).filter fun reply => reply.tid = tid

/-- Until its task sends again, a delay is replied once: in the iteration that is the first
over its deadline. -/
def Once (history : List Iteration) : Prop :=
  ∀ entry, Requested history entry → ∀ k later, entry.1 ≤ k → history[k]? = some later →
    (∀ j between, entry.1 < j → j ≤ k → history[j]? = some between →
      between.tid ≠ entry.2.tid) →
    (FirstExpired history entry k → later.repliesTo entry.2.tid = [reply entry]) ∧
      (¬FirstExpired history entry k → later.repliesTo entry.2.tid = [])

/-- The delays of a history that are not over at its end. -/
def Holds (history : List Iteration) (waiting : List Entry) : Prop :=
  ∀ entry, entry ∈ waiting ↔
    Requested history entry ∧ ∀ k, entry.1 ≤ k → ¬Expired history entry k

/-- The state after an iteration. -/
structure Kept (run : Run) (waiting : List Entry) : Prop
    extends Queued run.server waiting where
  mem : Holds run.history waiting
  released : ∀ k iteration, run.history[k]? = some iteration →
    Releases run.history k iteration
  patient : Patient run.history
  answers : AnswersSender run.history
  silent : Silent run.history

section Histories

variable {history : List Iteration} {last : Iteration} {entry : Entry} {k : ℕ}
  {iteration : Iteration}

theorem lt_of_requested (h : Requested history entry) : entry.1 < history.length :=
  (List.getElem?_eq_some_iff.mp h.1).1

theorem lt_of_expired (h : Expired history entry k) : k < history.length := by
  obtain ⟨iteration, hget, _⟩ := h
  exact (List.getElem?_eq_some_iff.mp hget).1

theorem getElem?_concat_iff :
    (history ++ [last])[k]? = some iteration ↔
      history[k]? = some iteration ∨ k = history.length ∧ iteration = last := by
  rcases lt_trichotomy k history.length with hlt | heq | hgt
  · rw [List.getElem?_append_left hlt]
    constructor
    · exact .inl
    · exact fun h => h.resolve_right fun hlast => absurd hlast.1 (Nat.ne_of_lt hlt)
  · subst heq
    simp [eq_comm]
  · rw [List.getElem?_eq_none (by simp; omega), List.getElem?_eq_none (by omega)]
    simp
    omega

theorem requested_concat_iff :
    Requested (history ++ [last]) entry ↔
      Requested history entry ∨ entry = (history.length, last) ∧ last.Delays := by
  rw [Requested, getElem?_concat_iff, Requested]
  constructor
  · rintro ⟨hold | ⟨hindex, hlast⟩, hdelays⟩
    · exact .inl ⟨hold, hdelays⟩
    · exact .inr ⟨Prod.ext hindex hlast, hlast ▸ hdelays⟩
  · rintro (⟨hold, hdelays⟩ | ⟨rfl, hdelays⟩)
    · exact ⟨.inl hold, hdelays⟩
    · exact ⟨.inr ⟨rfl, rfl⟩, hdelays⟩

theorem expired_concat_iff :
    Expired (history ++ [last]) entry k ↔
      Expired history entry k ∨ k = history.length ∧ expired last.ended entry = true := by
  constructor
  · rintro ⟨iteration, hget, hexpired⟩
    rcases getElem?_concat_iff.mp hget with hold | ⟨hk, rfl⟩
    · exact .inl ⟨iteration, hold, hexpired⟩
    · exact .inr ⟨hk, hexpired⟩
  · rintro (⟨iteration, hget, hexpired⟩ | ⟨hk, hexpired⟩)
    · exact ⟨iteration, getElem?_concat_iff.mpr (.inl hget), hexpired⟩
    · exact ⟨last, getElem?_concat_iff.mpr (.inr ⟨hk, rfl⟩), hexpired⟩

theorem expired_concat_of_lt (hk : k < history.length) :
    Expired (history ++ [last]) entry k ↔ Expired history entry k := by
  rw [expired_concat_iff]
  constructor
  · exact fun h => h.resolve_right fun hlast => absurd hlast.1 (Nat.ne_of_lt hk)
  · exact .inl

variable {waiting : List Entry}

/-- In the last iteration a queued delay is over, or stays in the queue. -/
theorem Holds.mem_queuedWith_iff (h : Holds history waiting) :
    entry ∈ queuedWith waiting (history.length, last) ↔
      Requested (history ++ [last]) entry ∧
        ∀ j, entry.1 ≤ j → j < history.length → ¬Expired (history ++ [last]) entry j := by
  rw [mem_queuedWith, requested_concat_iff, h]
  constructor
  · rintro (⟨hrequested, hnot⟩ | ⟨rfl, hdelays⟩)
    · refine ⟨.inl hrequested, ?_⟩
      intro j hj hlt
      rw [expired_concat_of_lt hlt]
      exact hnot j hj
    · exact ⟨.inr ⟨rfl, hdelays⟩, fun j hj hlt => absurd hlt (Nat.not_lt.mpr hj)⟩
  · rintro ⟨hrequested | hnew, hnot⟩
    · refine .inl ⟨hrequested, ?_⟩
      intro j hj hexpired
      have hlt := lt_of_expired hexpired
      exact hnot j hj hlt ((expired_concat_of_lt hlt).mpr hexpired)
    · exact .inr hnew

theorem Holds.concat (h : Holds history waiting) :
    Holds (history ++ [last])
      ((queuedWith waiting (history.length, last)).filter fun entry =>
        !expired last.ended entry) := by
  intro entry
  rw [List.mem_filter, h.mem_queuedWith_iff, and_assoc]
  apply and_congr_right
  intro hrequested
  have hlength := lt_of_requested hrequested
  rw [List.length_append, List.length_singleton] at hlength
  constructor
  · rintro ⟨hbefore, hlast⟩ k hk hexpired
    rcases expired_concat_iff.mp hexpired with hold | ⟨_, hended⟩
    · exact hbefore k hk (lt_of_expired hold) hexpired
    · simp [hended] at hlast
  · intro hnot
    refine ⟨fun j hj _ => hnot j hj, ?_⟩
    have hend := hnot history.length (by omega)
    rw [expired_concat_iff, not_or] at hend
    simpa using hend.2

/-- The last iteration releases the queued delays that are over. -/
theorem Holds.releases (h : Holds history waiting)
    (hreleased : last.released =
      ((queuedWith waiting (history.length, last)).filter (expired last.ended)).map reply)
    (hsorted : (queuedWith waiting (history.length, last)).Pairwise Earlier) :
    Releases (history ++ [last]) history.length last := by
  refine ⟨_, hreleased, hsorted.sublist List.filter_sublist, ?_⟩
  intro entry
  rw [List.mem_filter, h.mem_queuedWith_iff, FirstExpired, and_assoc]
  apply and_congr_right
  intro hrequested
  have hlength := lt_of_requested hrequested
  rw [List.length_append, List.length_singleton] at hlength
  constructor
  · rintro ⟨hbefore, hexpired⟩
    exact ⟨by omega, expired_concat_iff.mpr (.inr ⟨rfl, hexpired⟩), hbefore⟩
  · rintro ⟨_, hexpired, hbefore⟩
    refine ⟨hbefore, ?_⟩
    rcases expired_concat_iff.mp hexpired with hold | ⟨_, hended⟩
    · exact absurd (lt_of_expired hold) (Nat.lt_irrefl _)
    · exact hended

theorem firstExpired_concat (hk : k < history.length) :
    FirstExpired (history ++ [last]) entry k ↔ FirstExpired history entry k := by
  rw [FirstExpired, FirstExpired, expired_concat_of_lt hk]
  have hbefore : (∀ j, entry.1 ≤ j → j < k → ¬Expired (history ++ [last]) entry j) ↔
      ∀ j, entry.1 ≤ j → j < k → ¬Expired history entry j := by
    apply forall_congr'
    intro j
    apply imp_congr_right
    intro _
    apply imp_congr_right
    intro hj
    rw [expired_concat_of_lt (Nat.lt_trans hj hk)]
  rw [hbefore]

/-- The earlier iterations have released what they had to. -/
theorem Releases.concat (h : Releases history k iteration) (hk : k < history.length) :
    Releases (history ++ [last]) k iteration := by
  obtain ⟨due, hreleased, hsorted, hmem⟩ := h
  refine ⟨due, hreleased, hsorted, ?_⟩
  intro entry
  rw [hmem, firstExpired_concat hk, requested_concat_iff]
  constructor
  · exact fun hdue => ⟨.inl hdue.1, hdue.2⟩
  · rintro ⟨hold | ⟨rfl, _⟩, hfirst⟩
    · exact ⟨hold, hfirst⟩
    · exact absurd hfirst.1 (Nat.not_le.mpr hk)

/-- No reply of the last iteration goes to a delay that stays in the queue. -/
theorem Patient.concat (h : Patient history) (hholds : Holds history waiting)
    (hdistinct : ((queuedWith waiting (history.length, last)).map
      fun entry => entry.2.tid).Nodup)
    (hreleased : last.released =
      ((queuedWith waiting (history.length, last)).filter (expired last.ended)).map reply)
    (hfresh : last.tid ∉ waiting.map fun entry => entry.2.tid)
    (hown : ∀ reply ∈ last.answered, reply.tid = last.tid)
    (hnone : last.Delays → last.answered = []) : Patient (history ++ [last]) := by
  intro entry hrequested k later hk hget hnot answer hanswer
  rcases getElem?_concat_iff.mp hget with hold | ⟨rfl, rfl⟩
  · -- an earlier iteration
    have hlt : k < history.length := (List.getElem?_eq_some_iff.mp hold).1
    rcases requested_concat_iff.mp hrequested with hbefore | ⟨rfl, _⟩
    · apply h entry hbefore k later hk hold _ answer hanswer
      intro j hj hjk hexpired
      exact hnot j hj hjk ((expired_concat_of_lt (by omega)).mpr hexpired)
    · exact absurd hk (Nat.not_le.mpr hlt)
  · have hqueued : entry ∈ queuedWith waiting (history.length, later) :=
      hholds.mem_queuedWith_iff.mpr ⟨hrequested, fun j hj hlt => hnot j hj (Nat.le_of_lt hlt)⟩
    have hleft : ¬expired later.ended entry = true := by
      intro hexpired
      exact hnot history.length hk (Nat.le_refl _) (expired_concat_iff.mpr (.inr ⟨rfl, hexpired⟩))
    rcases List.mem_append.mp hanswer with hanswered | hgiven
    · rcases mem_queuedWith.mp hqueued with hwaiting | ⟨rfl, hdelays⟩
      · rw [hown answer hanswered]
        intro heq
        exact hfresh (heq ▸ List.mem_map_of_mem hwaiting)
      · rw [hnone hdelays] at hanswered
        simp at hanswered
    · rw [hreleased] at hgiven
      obtain ⟨waiter, hmem, rfl⟩ := List.mem_map.mp hgiven
      obtain ⟨hother, hexpired⟩ := List.mem_filter.mp hmem
      intro heq
      have hsame := List.inj_on_of_nodup_map hdistinct hother hqueued heq
      exact hleft (hsame ▸ hexpired)

theorem AnswersSender.concat (h : AnswersSender history)
    (hown : ∀ reply ∈ last.answered, reply.tid = last.tid)
    (hnone : last.Delays → last.answered = []) : AnswersSender (history ++ [last]) := by
  intro k iteration hget
  rcases getElem?_concat_iff.mp hget with hold | ⟨_, rfl⟩
  · exact h k iteration hold
  · exact ⟨hown, hnone⟩

theorem Silent.concat (h : Silent history) (hholds : Holds history waiting)
    (hfresh : last.tid ∉ waiting.map fun entry => entry.2.tid) :
    Silent (history ++ [last]) := by
  intro entry hrequested k later hk hget htid
  have hlength := (List.getElem?_eq_some_iff.mp hget).1
  rw [List.length_append, List.length_singleton] at hlength
  rcases requested_concat_iff.mp hrequested with hbefore | ⟨rfl, _⟩
  · rcases getElem?_concat_iff.mp hget with hold | ⟨rfl, rfl⟩
    · obtain ⟨j, hj, hlt, hexpired⟩ := h entry hbefore k later hk hold htid
      exact ⟨j, hj, hlt, expired_concat_iff.mpr (.inl hexpired)⟩
    · -- a delay that is not over is in the queue, and its task does not send
      by_contra hnone
      apply hfresh
      rw [htid]
      apply List.mem_map_of_mem
      refine (hholds entry).mpr ⟨hbefore, fun j hj hexpired => hnone ⟨j, hj, ?_, ?_⟩⟩
      · exact lt_of_expired hexpired
      · exact expired_concat_iff.mpr (.inl hexpired)
  · omega

/-- Of the delays of one task only the last is still to be replied. -/
theorem Silent.eq_of_firstExpired (h : Silent history) {other : Entry}
    (hentry : Requested history entry) (hother : Requested history other)
    (hfirst : FirstExpired history other k) (htid : other.2.tid = entry.2.tid)
    (hk : entry.1 ≤ k)
    (hquiet : ∀ j between, entry.1 < j → j ≤ k → history[j]? = some between →
      between.tid ≠ entry.2.tid) : other = entry := by
  rcases lt_trichotomy other.1 entry.1 with hlt | heq | hgt
  · obtain ⟨j, hj, hbefore, hexpired⟩ :=
      h other hother entry.1 entry.2 hlt hentry.1 htid.symm
    exact absurd hexpired (hfirst.2.2 j hj (Nat.lt_of_lt_of_le hbefore hk))
  · have hsame := hother.1
    rw [heq, hentry.1] at hsame
    exact Prod.ext heq (Option.some.inj hsame).symm
  · exact absurd htid (hquiet other.1 other.2 hgt hfirst.1 hother.1)

theorem Earlier.ne {left right : Entry} (h : Earlier left right) : left ≠ right := by
  rintro rfl
  rcases h with hlt | ⟨_, hlt⟩
  · exact lt_irrefl _ hlt
  · exact lt_irrefl _ hlt

theorem Silent.once (h : Silent history) (hanswers : AnswersSender history)
    (hreleases : ∀ k iteration, history[k]? = some iteration →
      Releases history k iteration) : Once history := by
  intro entry hrequested k later hk hget hquiet
  obtain ⟨due, hreleased, hsorted, hmem⟩ := hreleases k later hget
  obtain ⟨hown, hnone⟩ := hanswers k later hget
  have hanswered : later.answered.filter (fun reply => reply.tid = entry.2.tid) = [] := by
    rcases Nat.eq_or_lt_of_le hk with heq | hlt
    · have hsame := hrequested.1
      rw [heq, hget] at hsame
      rw [hnone (Option.some.inj hsame ▸ hrequested.2), List.filter_nil]
    · apply List.filter_eq_nil_iff.mpr
      intro answer hanswer
      rw [decide_eq_true_eq, hown answer hanswer]
      exact hquiet k later hlt (Nat.le_refl k) hget
  have hsent : later.repliesTo entry.2.tid =
      (due.filter fun other => decide (other.2.tid = entry.2.tid)).map reply := by
    rw [Iteration.repliesTo, List.filter_append, hanswered, List.nil_append, hreleased,
      List.filter_map]
    rfl
  have honly : ∀ other ∈ due.filter fun other => decide (other.2.tid = entry.2.tid),
      other = entry := by
    intro other hother
    obtain ⟨hdue, htid⟩ := List.mem_filter.mp hother
    obtain ⟨hmade, hfirst⟩ := (hmem other).mp hdue
    exact h.eq_of_firstExpired hrequested hmade hfirst (of_decide_eq_true htid) hk hquiet
  have hnodup : due.Nodup := hsorted.imp Earlier.ne
  rw [hsent]
  constructor
  · intro hfirst
    have hin : entry ∈ due.filter fun other => decide (other.2.tid = entry.2.tid) :=
      List.mem_filter.mpr ⟨(hmem entry).mpr ⟨hrequested, hfirst⟩, by simp⟩
    have hone : due.filter (fun other => decide (other.2.tid = entry.2.tid)) = [entry] := by
      have hall := List.eq_replicate_of_mem honly
      have hfiltered := hnodup.filter fun other => decide (other.2.tid = entry.2.tid)
      have hpos := List.length_pos_of_mem hin
      rw [hall, List.nodup_replicate] at hfiltered
      have hlength := Nat.le_antisymm hfiltered hpos
      rwa [hlength] at hall
    rw [hone, List.map_singleton]
  · intro hnot
    have hempty : due.filter (fun other => decide (other.2.tid = entry.2.tid)) = [] := by
      apply List.eq_nil_iff_forall_not_mem.mpr
      intro other hother
      obtain rfl := honly other hother
      exact hnot ((hmem other).mp (List.mem_filter.mp hother).1).2
    rw [hempty, List.map_nil]

end Histories

/-! ## One iteration -/

section Step

variable {run run' : Run} {waiting : List Entry} {request : ℤ × ClockRequest}

/-- A delay in the queue is unreplied. -/
theorem Kept.unreplied (h : Kept run waiting) {entry : Entry} (hentry : entry ∈ waiting) :
    Requested run.history entry ∧ Unreplied run.history entry := by
  obtain ⟨hrequested, hnot⟩ := (h.mem entry).mp hentry
  refine ⟨hrequested, ?_⟩
  intro k later hk hget
  exact h.patient entry hrequested k later hk hget fun j hj _ => hnot j hj

/-- The sender of the next request has no delay in the queue. -/
theorem Kept.fresh (h : Kept run waiting) (hwaits : Waits run request) :
    request.1 ∉ waiting.map fun entry => entry.2.tid := by
  intro hmem
  obtain ⟨entry, hentry, htid⟩ := List.mem_map.mp hmem
  obtain ⟨hrequested, hunreplied⟩ := h.unreplied hentry
  exact hwaits entry hrequested hunreplied htid

theorem Kept.latest (h : Kept run waiting) {entry : Entry} (hentry : entry ∈ waiting) :
    entry.1 < run.history.length := lt_of_requested ((h.mem entry).mp hentry).1

theorem eq_of_serve {s s' : State} {fuel : ℕ} {tid : ℤ} {req : ClockRequest}
    {answered released : List Reply}
    (hserve : s.serve fuel tid req = some (answered, released, s')) :
    ∃ middle head, s.answer fuel tid req = some (answered, middle) ∧
      middle.release fuel middle.delayedQueue.first = some (released, head) ∧
      s' = { middle with delayedQueue := { middle.delayedQueue with first := head } } := by
  rw [State.serve, Option.bind_eq_some_iff] at hserve
  obtain ⟨⟨answered', middle⟩, hanswer, hrelease⟩ := hserve
  simp only [Option.map_eq_some_iff] at hrelease
  obtain ⟨⟨released', head⟩, hrelease, heq⟩ := hrelease
  simp only [Prod.mk.injEq] at heq
  obtain ⟨rfl, rfl, rfl⟩ := heq
  exact ⟨middle, head, hanswer, hrelease, rfl⟩

theorem Kept.step (h : Kept run waiting) (hwaits : Waits run request)
    (hstep : clockServer.step run request run') : ∃ waiting', Kept run' waiting' := by
  obtain ⟨fuel, answered, released, hserve, hhistory⟩ := hstep
  obtain ⟨middle, head, hanswer, hrelease, hserver⟩ := eq_of_serve hserve
  have hended : run'.server.numTicks = middle.numTicks := by rw [hserver]
  -- the new request with its place
  obtain ⟨last, hlast⟩ : ∃ last : Iteration, last =
    ⟨request.1, request.2, run.server.numTicks, run'.server.numTicks, answered,
      released⟩ := ⟨_, rfl⟩
  rw [← hlast] at hhistory
  obtain ⟨new, hnew⟩ : ∃ new : Entry, new = (run.history.length, last) := ⟨_, rfl⟩
  have hfresh : new.2.tid ∉ waiting.map fun entry => entry.2.tid := by
    rw [hnew, hlast]
    exact h.fresh hwaits
  have hanswer' : run.server.answer fuel new.2.tid new.2.req = some (answered, middle) := by
    rw [hnew, hlast]
    exact hanswer
  obtain ⟨hqueued, hown, hnone⟩ := h.toQueued.answer hfresh
    (fun entry hentry => by rw [hnew]; exact h.latest hentry)
    (by rw [hnew, hlast]) hanswer'
  obtain ⟨hreleased, hleft⟩ := hqueued.release hrelease
  rw [← hserver] at hleft
  have hanswered : last.answered = answered := by rw [hlast]
  have hgiven : last.released = released := by rw [hlast]
  have hticks : last.ended = middle.numTicks := by
    rw [hlast]
    exact hended
  rw [← hticks, ← hgiven, hnew] at hreleased
  rw [← hticks, hnew] at hleft
  rw [hnew] at hqueued hfresh hown hnone
  rw [← hanswered] at hown hnone
  refine ⟨_, hleft, ?_, ?_, ?_, ?_, ?_⟩
  · rw [hhistory]
    exact h.mem.concat
  · intro k iteration hget
    rw [hhistory] at hget ⊢
    rcases getElem?_concat_iff.mp hget with hold | ⟨rfl, rfl⟩
    · exact (h.released k iteration hold).concat (List.getElem?_eq_some_iff.mp hold).1
    · exact h.mem.releases hreleased hqueued.sorted
  · rw [hhistory]
    exact h.patient.concat h.mem hqueued.distinct hreleased hfresh hown hnone
  · rw [hhistory]
    exact h.answers.concat hown hnone
  · rw [hhistory]
    exact h.silent.concat h.mem hfresh

theorem length_queuedWith (waiting : List Entry) (new : Entry) :
    (queuedWith waiting new).length ≤ waiting.length + 1 := by
  rw [queuedWith]
  split_ifs
  · rw [List.orderedInsert_length]
  · exact Nat.le_succ _

/-- The server handles every request. -/
theorem Kept.exists_step (h : Kept run waiting) (hwaits : Waits run request) :
    ∃ run', clockServer.step run request run' := by
  obtain ⟨new, hnew⟩ : ∃ new : Entry, new = (run.history.length,
    ⟨request.1, request.2, run.server.numTicks, 0, [], []⟩) := ⟨_, rfl⟩
  have hfresh : new.2.tid ∉ waiting.map fun entry => entry.2.tid := by
    rw [hnew]
    exact h.fresh hwaits
  have hlatest : ∀ entry ∈ waiting, entry.1 < new.1 := by
    intro entry hentry
    rw [hnew]
    exact h.latest hentry
  have hbegan : new.2.began = run.server.numTicks := by rw [hnew]
  obtain ⟨⟨answered, middle⟩, hanswer⟩ :=
    h.toQueued.exists_answer hfresh hlatest hbegan (Nat.lt_succ_self waiting.length)
  obtain ⟨hqueued, _⟩ := h.toQueued.answer hfresh hlatest hbegan hanswer
  obtain ⟨⟨released, head⟩, hrelease⟩ := @exists_release middle middle.delayedQueue.first
    _ (waiting.length + 1) hqueued.linked (by
      rw [List.length_map]
      exact length_queuedWith waiting new)
  have hserve : ∃ server, run.server.serve (waiting.length + 1) request.1 request.2 =
      some (answered, released, server) := by
    rw [hnew] at hanswer
    rw [State.serve, hanswer, Option.bind_some]
    simp only [hrelease, Option.map_some]
    exact ⟨_, rfl⟩
  obtain ⟨server, hserve⟩ := hserve
  refine ⟨⟨server, run.history ++ [⟨request.1, request.2, run.server.numTicks,
    server.numTicks, answered, released⟩]⟩, ?_⟩
  exact ⟨waiting.length + 1, answered, released, hserve, rfl⟩

theorem kept_of_starts (hstarts : Starts run) : Kept run [] := by
  obtain ⟨hfirst, _, hhistory⟩ := hstarts
  refine ⟨⟨hfirst, by simp, by simp, by simp, .nil⟩, ?_, ?_, ?_, ?_, ?_⟩
  · intro entry
    simp [Requested, hhistory]
  · intro k iteration hget
    simp [hhistory] at hget
  · intro entry hrequested
    simp [Requested, hhistory] at hrequested
  · intro k iteration hget
    simp [hhistory] at hget
  · intro entry hrequested
    simp [Requested, hhistory] at hrequested

theorem kept_of_reachable (hreachable : Reachable clockServer Waits run) :
    ∃ waiting, Kept run waiting := by
  apply hreachable.invariant
  · exact fun run hstarts => ⟨[], kept_of_starts hstarts⟩
  · rintro run request run' ⟨waiting, hkept⟩ hwaits hstep
    exact hkept.step hwaits hstep

end Step

/-! ## Every run -/

/-- Every delay is replied in the first iteration that is over its deadline, no sooner and
once only, in order of deadline and of arrival; `delayed_queue` is sorted and holds the
unreplied delays; and every further request is handled. -/
structure Punctual (run : Run) : Prop where
  released : ∀ k iteration, run.history[k]? = some iteration →
    Releases run.history k iteration
  patient : Patient run.history
  answered : ∀ (k : ℕ) (iteration : Iteration), run.history[k]? = some iteration →
    iteration.Delays → iteration.answered = []
  once : Once run.history
  queue : ∃ waiting : List Entry,
    Linked run.server.delayedQueue.node run.server.delayedQueue.first
        (waiting.map fun entry => entry.2.tid) ∧
      (∀ entry ∈ waiting,
        (run.server.delayedQueue.node entry.2.tid).priority = entry.2.deadline) ∧
      waiting.Pairwise Earlier ∧
      ∀ entry, entry ∈ waiting ↔ Requested run.history entry ∧ Unreplied run.history entry
  serves : ∀ request, Waits run request → ∃ run', clockServer.step run request run'

/-- A delay that is over has been replied. -/
theorem not_unreplied_of_expired {history : List Iteration} {entry : Entry} {k : ℕ}
    (hreleases : ∀ k iteration, history[k]? = some iteration →
      Releases history k iteration)
    (hrequested : Requested history entry) (hk : entry.1 ≤ k) (hexpired : Expired history entry k) :
    ¬Unreplied history entry := by
  induction k using Nat.strong_induction_on with
  | _ k ih =>
      by_cases hearlier : ∃ j, entry.1 ≤ j ∧ j < k ∧ Expired history entry j
      · obtain ⟨j, hj, hlt, hfirst⟩ := hearlier
        exact ih j hlt hj hfirst
      · have hfirst : FirstExpired history entry k :=
          ⟨hk, hexpired, fun j hj hlt hbefore => hearlier ⟨j, hj, hlt, hbefore⟩⟩
        obtain ⟨iteration, hget, _⟩ := hexpired
        obtain ⟨due, hreleased, _, hmem⟩ := hreleases k iteration hget
        intro hunreplied
        apply hunreplied k iteration hk hget (reply entry) _ rfl
        rw [List.mem_append, hreleased]
        exact .inr (List.mem_map_of_mem ((hmem entry).mpr ⟨hrequested, hfirst⟩))

/-- The clock server is punctual as long as no task sends while its delay is
pending. -/
theorem punctual_of_reachable {run : Run} (hreachable : Reachable clockServer Waits run) :
    Punctual run := by
  obtain ⟨waiting, hkept⟩ := kept_of_reachable hreachable
  refine ⟨hkept.released, hkept.patient,
    fun k iteration hget => (hkept.answers k iteration hget).2,
    hkept.silent.once hkept.answers hkept.released, ?_, fun request => hkept.exists_step⟩
  refine ⟨waiting, hkept.linked, hkept.priority, hkept.sorted, ?_⟩
  intro entry
  constructor
  · exact hkept.unreplied
  · rintro ⟨hrequested, hunreplied⟩
    apply (hkept.mem entry).mpr
    refine ⟨hrequested, fun k hk hexpired => ?_⟩
    exact not_unreplied_of_expired hkept.released hrequested hk hexpired hunreplied

/-- The server after a delay of one tick for task 5, another until tick 1 for task 6,
and a tick. -/
def sampleRun : Run :=
  (serveAll 4 ⟨⟨⟨none, fun _ => ⟨none, 0⟩⟩, fun _ => 0, 0⟩, []⟩
    [(5, ⟨csDelay, 1⟩), (6, ⟨csDelayUntil, 1⟩), (7, ⟨csTick, 0⟩)]).getD
    ⟨⟨⟨none, fun _ => ⟨none, 0⟩⟩, fun _ => 0, 0⟩, []⟩

example : (sampleRun.history.map Iteration.released) =
    [[], [], [⟨5, none⟩, ⟨6, none⟩]] := by decide +kernel

theorem punctual_sample : Punctual sampleRun := by
  apply punctual_of_reachable
  have hserves : (serveAll 4 ⟨⟨⟨none, fun _ => ⟨none, 0⟩⟩, fun _ => 0, 0⟩, []⟩
      [(5, ⟨csDelay, 1⟩), (6, ⟨csDelayUntil, 1⟩), (7, ⟨csTick, 0⟩)]).isSome := by
    decide +kernel
  obtain ⟨run, hrun⟩ := Option.isSome_iff_exists.mp hserves
  rw [sampleRun, hrun, Option.getD_some]
  apply reachable_of_serveAll (.initial ⟨rfl, rfl, rfl⟩) _ _ hrun
  · simp
  · decide

end Rtk.ClockServer
