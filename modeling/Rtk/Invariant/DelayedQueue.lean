import Rtk.Usr.ClockServer

/-!
# The delayed queue

The queue of `ClockServer` is sorted by deadline and, for equal deadlines, by arrival.
A release takes off its front what has expired.
-/

namespace Rtk.ClockServer

open Function
open Rtk.ByteMemory
open Rtk.Lib

/-- The order of release. -/
def Earlier (left right : Entry) : Prop :=
  left.2.deadline.toInt < right.2.deadline.toInt ∨
    left.2.deadline.toInt = right.2.deadline.toInt ∧ left.1 < right.1

/-- The comparison that the insertion makes. -/
def Before (left right : Entry) : Prop := left.2.deadline.slt right.2.deadline

instance : DecidableRel Before := fun _ _ => inferInstanceAs (Decidable (_ = true))

/-- The delayed queue holds the entries. -/
structure Queued (s : State) (waiting : List Entry) : Prop where
  linked : Linked s.delayedQueue.node s.delayedQueue.first
    (waiting.map fun entry => entry.2.tid)
  priority : ∀ entry ∈ waiting,
    (s.delayedQueue.node entry.2.tid).priority = entry.2.deadline
  tid : ∀ entry ∈ waiting, s.tid entry.2.tid = entry.2.tid
  distinct : (waiting.map fun entry => entry.2.tid).Nodup
  sorted : waiting.Pairwise Earlier

def expired (ticks : Word) (entry : Entry) : Bool :=
  decide (entry.2.deadline.toInt ≤ ticks.toInt)

def reply (entry : Entry) : Reply := ⟨entry.2.tid, none⟩

section Queue

variable {s s' : State} {waiting : List Entry} {new entry : Entry}

theorem before_iff (left right : Entry) :
    Before left right ↔ left.2.deadline.toInt < right.2.deadline.toInt := by
  rw [Before, BitVec.slt_iff_toInt_lt]

theorem Earlier.of_before (hbefore : Before new entry) : Earlier new entry :=
  .inl ((before_iff new entry).mp hbefore)

/-- An earlier request is in front unless the new one is strictly more urgent. -/
theorem Earlier.of_not_before (hlatest : entry.1 < new.1) (hnot : ¬Before new entry) :
    Earlier entry new := by
  rw [before_iff, not_lt] at hnot
  rcases lt_or_eq_of_le hnot with hlt | heq
  · exact .inl hlt
  · exact .inr ⟨heq, hlatest⟩

theorem Before.trans_earlier {left right : Entry} (hbefore : Before new left)
    (hearlier : Earlier left right) : Before new right := by
  rw [before_iff] at hbefore ⊢
  rcases hearlier with hlt | ⟨heq, _⟩
  · exact lt_trans hbefore hlt
  · rwa [← heq]

def filled (s : State) (new : Entry) : SortedList ℤ :=
  { s.delayedQueue with
    node := update s.delayedQueue.node new.2.tid
      { s.delayedQueue.node new.2.tid with priority := new.2.deadline } }

theorem filled_self (s : State) (new : Entry) :
    (filled s new).node new.2.tid =
      { s.delayedQueue.node new.2.tid with priority := new.2.deadline } :=
  update_self _ _ _

theorem filled_of_ne (s : State) {index : ℤ} (hindex : index ≠ new.2.tid) :
    (filled s new).node index = s.delayedQueue.node index :=
  update_of_ne hindex _ _

theorem ne_of_fresh (hfresh : new.2.tid ∉ waiting.map fun entry => entry.2.tid)
    (hentry : entry ∈ waiting) : entry.2.tid ≠ new.2.tid := by
  intro heq
  exact hfresh (heq ▸ List.mem_map_of_mem hentry)

/-- Linking the request of a task that has none in the queue. -/
theorem Queued.insert (h : Queued s waiting)
    (hfresh : new.2.tid ∉ waiting.map fun entry => entry.2.tid)
    (hlatest : ∀ entry ∈ waiting, entry.1 < new.1) {fuel : ℕ}
    (hfuel : waiting.length < fuel) :
    ∃ queue, sortedListInsert (filled s new) new.2.tid fuel = some queue ∧
      Queued { s with
        delayedQueue := queue
        tid := update s.tid new.2.tid new.2.tid } (waiting.orderedInsert Before new) := by
  have hpriority : ∀ entry ∈ waiting,
      ((filled s new).node entry.2.tid).priority = entry.2.deadline := by
    intro entry hentry
    rw [filled_of_ne s (ne_of_fresh hfresh hentry)]
    exact h.priority entry hentry
  have hnew : ((filled s new).node new.2.tid).priority = new.2.deadline := by
    rw [filled_self]
  have hlinked : Linked (filled s new).node (filled s new).first
      (waiting.map fun entry => entry.2.tid) := by
    apply h.linked.congr
    intro index hindex
    have hne : index ≠ new.2.tid := ne_of_mem_of_not_mem hindex hfresh
    rw [filled_of_ne s hne]
  obtain ⟨queue, hinsert, hinserted, hkept⟩ :=
    exists_sortedListInsert hlinked hfresh h.distinct (by rwa [List.length_map])
  have hmap : (waiting.map fun entry => entry.2.tid).orderedInsert (filled s new).Before
      new.2.tid = (waiting.orderedInsert Before new).map fun entry => entry.2.tid := by
    symm
    apply List.map_orderedInsert
    · intro entry hentry
      rw [Before, SortedList.Before, hpriority entry hentry, hnew]
    · intro entry hentry
      rw [Before, SortedList.Before, hpriority entry hentry, hnew]
  have hperm := List.perm_orderedInsert Before new waiting
  refine ⟨queue, hinsert, ?_, ?_, ?_, ?_, ?_⟩
  · rw [← hmap]
    exact hinserted
  · intro entry hentry
    rw [hkept]
    rcases (List.mem_orderedInsert Before).mp hentry with rfl | hold
    · exact hnew
    · exact hpriority entry hold
  · intro entry hentry
    rcases (List.mem_orderedInsert Before).mp hentry with rfl | hold
    · exact update_self _ _ _
    · exact (update_of_ne (ne_of_fresh hfresh hold) _ _).trans (h.tid entry hold)
  · rw [(hperm.map _).nodup_iff, List.map_cons, List.nodup_cons]
    exact ⟨hfresh, h.distinct⟩
  · apply pairwise_orderedInsert h.sorted
    · exact fun entry _ hbefore => .of_before hbefore
    · exact fun entry hentry hnot => .of_not_before (hlatest entry hentry) hnot
    · exact fun hbefore hearlier => hbefore.trans_earlier hearlier

/-- `State.delay` of the task's request. -/
theorem Queued.delay (h : Queued s waiting)
    (hfresh : new.2.tid ∉ waiting.map fun entry => entry.2.tid)
    (hlatest : ∀ entry ∈ waiting, entry.1 < new.1) {fuel : ℕ}
    (hdelay : s.delay fuel new.2.tid new.2.deadline = some s') :
    Queued s' (waiting.orderedInsert Before new) ∧ s'.numTicks = s.numTicks := by
  obtain ⟨queue, hinsert, hqueued⟩ :=
    h.insert hfresh hlatest (Nat.lt_succ_self waiting.length)
  rw [State.delay, Option.map_eq_some_iff] at hdelay
  obtain ⟨queue', hinsert', rfl⟩ := hdelay
  obtain rfl := sortedListInsert_unique hinsert hinsert'
  exact ⟨hqueued, rfl⟩

theorem Queued.exists_delay (h : Queued s waiting)
    (hfresh : new.2.tid ∉ waiting.map fun entry => entry.2.tid)
    (hlatest : ∀ entry ∈ waiting, entry.1 < new.1) {fuel : ℕ}
    (hfuel : waiting.length < fuel) :
    ∃ s', s.delay fuel new.2.tid new.2.deadline = some s' := by
  obtain ⟨queue, hinsert, _⟩ := h.insert hfresh hlatest hfuel
  have hdelay : s.delay fuel new.2.tid new.2.deadline =
      (sortedListInsert (filled s new) new.2.tid fuel).map fun queue =>
        { s with
          delayedQueue := queue
          tid := update s.tid new.2.tid new.2.tid } := rfl
  rw [hdelay, hinsert]
  exact ⟨_, rfl⟩

def queuedWith (waiting : List Entry) (new : Entry) : List Entry :=
  if new.2.Delays then waiting.orderedInsert Before new else waiting

theorem mem_queuedWith :
    entry ∈ queuedWith waiting new ↔ entry ∈ waiting ∨ entry = new ∧ new.2.Delays := by
  rw [queuedWith]
  split_ifs with hdelays
  · rw [List.mem_orderedInsert]
    tauto
  · tauto

/-- A request that is no delay leaves the queue. -/
theorem Queued.of_same (h : Queued s waiting) (hqueue : s'.delayedQueue = s.delayedQueue)
    (htid : s'.tid = s.tid) : Queued s' waiting := by
  obtain ⟨hlinked, hpriority, hown, hdistinct, hsorted⟩ := h
  rw [← hqueue] at hlinked hpriority
  rw [← htid] at hown
  exact ⟨hlinked, hpriority, hown, hdistinct, hsorted⟩

/-- The `switch` queues a delay and replies to no other task. -/
theorem Queued.answer (h : Queued s waiting)
    (hfresh : new.2.tid ∉ waiting.map fun entry => entry.2.tid)
    (hlatest : ∀ entry ∈ waiting, entry.1 < new.1) (hbegan : new.2.began = s.numTicks)
    {fuel : ℕ} {answered : List Reply}
    (hanswer : s.answer fuel new.2.tid new.2.req = some (answered, s')) :
    Queued s' (queuedWith waiting new) ∧ (∀ reply ∈ answered, reply.tid = new.2.tid) ∧
      (new.2.Delays → answered = []) := by
  have hqueued : ∀ priority, new.2.deadline = priority → new.2.Delays →
      (s.delay fuel new.2.tid priority).map (fun s => ([], s)) = some (answered, s') →
        Queued s' (queuedWith waiting new) ∧ (∀ reply ∈ answered, reply.tid = new.2.tid) ∧
          (new.2.Delays → answered = []) := by
    rintro priority rfl hdelays hmap
    rw [Option.map_eq_some_iff] at hmap
    obtain ⟨later, hdelay, heq⟩ := hmap
    obtain ⟨rfl, rfl⟩ := Prod.mk.inj heq
    rw [queuedWith, if_pos hdelays]
    exact ⟨(h.delay hfresh hlatest hdelay).1, by simp, fun _ => rfl⟩
  rw [State.answer] at hanswer
  by_cases hdelay : new.2.req.type = csDelay
  · have hdeadline : new.2.deadline = new.2.req.data + s.numTicks := by
      rw [Iteration.deadline, if_pos hdelay, hbegan]
    rw [if_neg (by rw [hdelay]; decide), if_pos hdelay] at hanswer
    exact hqueued _ hdeadline (.inl hdelay) hanswer
  · by_cases huntil : new.2.req.type = csDelayUntil
    · have hdeadline : new.2.deadline = new.2.req.data := by
        rw [Iteration.deadline, if_neg hdelay]
      rw [if_neg (by rw [huntil]; decide), if_neg hdelay, if_pos huntil] at hanswer
      exact hqueued _ hdeadline (.inr huntil) hanswer
    · have hnot : ¬new.2.Delays := fun hdelays => hdelays.elim hdelay huntil
      rw [queuedWith, if_neg hnot]
      rw [if_neg hdelay, if_neg huntil] at hanswer
      split_ifs at hanswer
      · obtain ⟨rfl, rfl⟩ := Prod.mk.inj (Option.some.inj hanswer)
        exact ⟨h, by simp, fun hdelays => absurd hdelays hnot⟩
      · obtain ⟨rfl, rfl⟩ := Prod.mk.inj (Option.some.inj hanswer)
        exact ⟨h.of_same rfl rfl, by simp, fun hdelays => absurd hdelays hnot⟩
      · obtain ⟨rfl, rfl⟩ := Prod.mk.inj (Option.some.inj hanswer)
        exact ⟨h, by simp, fun hdelays => absurd hdelays hnot⟩

theorem Queued.exists_answer (h : Queued s waiting)
    (hfresh : new.2.tid ∉ waiting.map fun entry => entry.2.tid)
    (hlatest : ∀ entry ∈ waiting, entry.1 < new.1) (hbegan : new.2.began = s.numTicks)
    {fuel : ℕ} (hfuel : waiting.length < fuel) :
    ∃ answered, s.answer fuel new.2.tid new.2.req = some answered := by
  obtain ⟨delayed, hdelay⟩ := h.exists_delay hfresh hlatest hfuel
  rw [State.answer]
  split_ifs with _ hrelative habsolute
  · exact ⟨_, rfl⟩
  · rw [Iteration.deadline, if_pos hrelative, hbegan] at hdelay
    rw [hdelay]
    exact ⟨_, rfl⟩
  · rw [Iteration.deadline, if_neg hrelative] at hdelay
    rw [hdelay]
    exact ⟨_, rfl⟩
  · exact ⟨_, rfl⟩
  · exact ⟨_, rfl⟩

/-! ## Releasing -/

/-- The loop releases the entries in front that are over. -/
theorem eq_of_release {first : Option ℤ} {fuel : ℕ} {released : List Reply}
    {head : Option ℤ}
    (hlinked : Linked s.delayedQueue.node first (waiting.map fun entry => entry.2.tid))
    (hpriority : ∀ entry ∈ waiting,
      (s.delayedQueue.node entry.2.tid).priority = entry.2.deadline)
    (htid : ∀ entry ∈ waiting, s.tid entry.2.tid = entry.2.tid)
    (hrelease : s.release fuel first = some (released, head)) :
    released = (waiting.takeWhile (expired s.numTicks)).map reply ∧
      Linked s.delayedQueue.node head
        ((waiting.dropWhile (expired s.numTicks)).map fun entry => entry.2.tid) := by
  induction waiting generalizing first fuel released with
  | nil =>
      have hfirst : first = none := hlinked
      subst hfirst
      rw [State.release, Option.some.injEq, Prod.mk.injEq] at hrelease
      obtain ⟨rfl, rfl⟩ := hrelease
      exact ⟨rfl, rfl⟩
  | cons entry rest ih =>
      obtain ⟨rfl, hrest⟩ := hlinked
      have hnode := hpriority entry List.mem_cons_self
      cases fuel with
      | zero => simp [State.release] at hrelease
      | succ fuel =>
          rw [State.release, hnode] at hrelease
          split_ifs at hrelease with hexpired
          · have hpass : expired s.numTicks entry = true := decide_eq_true hexpired
            rw [Option.map_eq_some_iff] at hrelease
            obtain ⟨⟨later, last⟩, hlater, heq⟩ := hrelease
            obtain ⟨rfl, rfl⟩ := Prod.mk.inj heq
            obtain ⟨rfl, hlast⟩ := ih hrest
              (fun other hother => hpriority other (List.mem_cons_of_mem _ hother))
              (fun other hother => htid other (List.mem_cons_of_mem _ hother)) hlater
            rw [List.takeWhile_cons_of_pos hpass, List.dropWhile_cons_of_pos hpass,
              htid entry List.mem_cons_self]
            exact ⟨rfl, hlast⟩
          · have hstop : ¬expired s.numTicks entry = true := by
              rw [expired, decide_eq_true_iff]
              exact hexpired
            obtain ⟨rfl, rfl⟩ := Prod.mk.inj (Option.some.inj hrelease)
            rw [List.takeWhile_cons_of_neg hstop, List.dropWhile_cons_of_neg hstop]
            exact ⟨rfl, rfl, hrest⟩

theorem exists_release {first : Option ℤ} {nodes : List ℤ} {fuel : ℕ}
    (hlinked : Linked s.delayedQueue.node first nodes) (hfuel : nodes.length ≤ fuel) :
    ∃ released, s.release fuel first = some released := by
  induction nodes generalizing first fuel with
  | nil =>
      have hfirst : first = none := hlinked
      subst hfirst
      exact ⟨_, by rw [State.release]⟩
  | cons node rest ih =>
      obtain ⟨rfl, hrest⟩ := hlinked
      rw [List.length_cons] at hfuel
      cases fuel with
      | zero => omega
      | succ fuel =>
          obtain ⟨released, hreleased⟩ := ih hrest (Nat.le_of_succ_le_succ hfuel)
          rw [State.release, hreleased, Option.map_some]
          split_ifs
          · exact ⟨_, rfl⟩
          · exact ⟨_, rfl⟩

/-- In a sorted queue the entries in front that are over are all that are over. -/
theorem takeWhile_expired (ticks : Word) (hsorted : waiting.Pairwise Earlier) :
    waiting.takeWhile (expired ticks) = waiting.filter (expired ticks) ∧
      waiting.dropWhile (expired ticks) = waiting.filter fun entry => !expired ticks entry := by
  induction waiting with
  | nil => exact ⟨rfl, rfl⟩
  | cons entry rest ih =>
      rw [List.pairwise_cons] at hsorted
      obtain ⟨htake, hdrop⟩ := ih hsorted.2
      by_cases hexpired : expired ticks entry = true
      · rw [List.takeWhile_cons_of_pos hexpired, List.dropWhile_cons_of_pos hexpired,
          List.filter_cons_of_pos hexpired, List.filter_cons_of_neg (by simp [hexpired]), htake,
          hdrop]
        exact ⟨rfl, rfl⟩
      · have hrest : ∀ later ∈ rest, ¬expired ticks later = true := by
          intro later hlater
          rw [expired, decide_eq_true_iff, not_le] at hexpired ⊢
          rcases hsorted.1 later hlater with hlt | ⟨heq, _⟩
          · exact lt_trans hexpired hlt
          · rwa [← heq]
        have hnone : rest.filter (expired ticks) = [] := List.filter_eq_nil_iff.mpr hrest
        have hall : rest.filter (fun entry => !expired ticks entry) = rest :=
          List.filter_eq_self.mpr fun later hlater => by simpa using hrest later hlater
        rw [List.takeWhile_cons_of_neg hexpired, List.dropWhile_cons_of_neg hexpired,
          List.filter_cons_of_neg hexpired, List.filter_cons_of_pos (by simpa using hexpired),
          hnone, hall]
        exact ⟨rfl, rfl⟩

/-- What is left of the queue. -/
theorem Queued.release (h : Queued s waiting) {fuel : ℕ} {released : List Reply}
    {head : Option ℤ}
    (hrelease : s.release fuel s.delayedQueue.first = some (released, head)) :
    released = (waiting.filter (expired s.numTicks)).map reply ∧
      Queued { s with delayedQueue := { s.delayedQueue with first := head } }
        (waiting.filter fun entry => !expired s.numTicks entry) := by
  obtain ⟨hreleased, hlinked⟩ := eq_of_release h.linked h.priority h.tid hrelease
  obtain ⟨htake, hdrop⟩ := takeWhile_expired s.numTicks h.sorted
  have hsub := List.filter_sublist (p := fun entry => !expired s.numTicks entry) (l := waiting)
  rw [htake] at hreleased
  rw [hdrop] at hlinked
  refine ⟨hreleased, hlinked, ?_, ?_, ?_, h.sorted.sublist hsub⟩
  · exact fun entry hentry => h.priority entry (hsub.subset hentry)
  · exact fun entry hentry => h.tid entry (hsub.subset hentry)
  · exact h.distinct.sublist (hsub.map _)

end Queue

end Rtk.ClockServer
