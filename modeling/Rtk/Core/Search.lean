import Mathlib.Data.Nat.Find

/-!
# What a search looks at

A loop over a list that stops at the first element that meets a test looks at the
elements up to that one.
-/

namespace Rtk.Search

variable {α : Type*}

/-- The elements that a search looks at which stops at the first that meets `stops`. -/
def examined (stops : α → Bool) : List α → List α
  | [] => []
  | a :: rest => a :: if stops a then [] else examined stops rest

variable {stops : α → Bool} {a : α} {list list' : List α}

/-- What is found has been looked at. -/
theorem mem_examined_of_find? (hfound : list.find? stops = some a) : a ∈ examined stops list := by
  induction list with
  | nil => simp at hfound
  | cons b rest ih =>
      rw [examined]
      cases hstop : stops b with
      | true =>
          rw [List.find?_cons_of_pos hstop, Option.some.injEq] at hfound
          rw [hfound]
          exact List.mem_cons_self
      | false =>
          rw [List.find?_cons_of_neg (by simp [hstop])] at hfound
          exact List.mem_cons_of_mem b (ih hfound)

/-- What is found depends on nothing else. -/
theorem find?_congr {stops' : α → Bool}
    (hsame : ∀ a ∈ examined stops list, stops a = stops' a) :
    list.find? stops = list.find? stops' := by
  induction list with
  | nil => rfl
  | cons b rest ih =>
      have hfirst : stops b = stops' b := hsame b List.mem_cons_self
      rw [List.find?_cons, List.find?_cons, ← hfirst]
      cases hstop : stops b with
      | true => rfl
      | false =>
          apply ih
          intro a ha
          apply hsame
          rw [examined, hstop]
          exact List.mem_cons_of_mem b ha

theorem any_congr {stops' : α → Bool} (hsame : ∀ a ∈ examined stops list, stops a = stops' a) :
    list.any stops = list.any stops' := by
  rw [← List.isSome_find?, ← List.isSome_find?, find?_congr hsame]

theorem mem_examined_append :
    a ∈ examined stops (list ++ list') ↔
      a ∈ examined stops list ∨ (∀ b ∈ list, stops b = false) ∧ a ∈ examined stops list' := by
  induction list with
  | nil => simp [examined]
  | cons b rest ih =>
      rw [List.cons_append, examined, examined]
      cases hstop : stops b with
      | true => simp [hstop]
      | false => simp [hstop, ih, or_assoc]

/-- One more element changes what is found when it is the first that is searched for. -/
theorem idxOf?_concat_eq_iff [DecidableEq α] {last : α} :
    (list ++ [last]).idxOf? a = list.idxOf? a ↔ (last = a → a ∈ list) := by
  have happend : (list ++ [last]).idxOf? a =
      (list.idxOf? a).or (([last].idxOf? a).map (· + list.length)) := List.findIdx?_append
  by_cases hmem : a ∈ list
  · obtain ⟨i, hfound⟩ := Option.isSome_iff_exists.mp (List.isSome_idxOf?.mpr hmem)
    rw [happend, hfound, Option.some_or]
    exact iff_of_true rfl fun _ => hmem
  · rw [happend, List.idxOf?_eq_none_iff.mpr hmem, Option.none_or, Option.map_eq_none_iff,
      List.idxOf?_eq_none_iff, List.mem_singleton, eq_comm]
    exact ⟨fun hne heq => absurd heq hne, fun himp heq => hmem (himp heq)⟩

/-- A counting loop looks at `i` when nothing below has stopped it. -/
theorem mem_examined_range {stops : ℕ → Bool} {n i : ℕ} :
    i ∈ examined stops (List.range n) ↔ i < n ∧ ∀ j < i, stops j = false := by
  induction n with
  | zero => simp [examined]
  | succ n ih =>
      rw [List.range_succ, mem_examined_append, ih]
      simp only [examined, ite_self, List.mem_range, List.mem_singleton]
      constructor
      · rintro (⟨hi, hbelow⟩ | ⟨hbelow, rfl⟩)
        · exact ⟨Nat.lt_succ_of_lt hi, hbelow⟩
        · exact ⟨Nat.lt_succ_self i, hbelow⟩
      · rintro ⟨hi, hbelow⟩
        rcases Nat.lt_succ_iff_lt_or_eq.mp hi with hlt | rfl
        · exact .inl ⟨hlt, hbelow⟩
        · exact .inr ⟨hbelow, rfl⟩

/-- What a counting loop does not get to lies behind the number that stops it. -/
theorem exists_stop {stops : ℕ → Bool} {n i : ℕ} (hi : i < n)
    (hmissed : i ∉ examined stops (List.range n)) :
    ∃ j < i, j ∈ examined stops (List.range n) ∧ stops j = true := by
  have hexists : ∃ j, j < i ∧ stops j = true := by
    by_contra hnone
    apply hmissed
    refine mem_examined_range.mpr ⟨hi, fun j hj => ?_⟩
    rw [← Bool.not_eq_true]
    exact fun hstop => hnone ⟨j, hj, hstop⟩
  obtain ⟨hlt, hstop⟩ := Nat.find_spec hexists
  refine ⟨Nat.find hexists, hlt, mem_examined_range.mpr ⟨Nat.lt_trans hlt hi, ?_⟩, hstop⟩
  intro j hj
  rw [← Bool.not_eq_true]
  exact fun hearlier => Nat.find_min hexists hj ⟨Nat.lt_trans hj hlt, hearlier⟩

end Rtk.Search
