import Rtk.Lib.String

/-!
# Moving a block of memory

`memmove` of `lib/string.c`.  It copies down when the destination starts inside the source
and hands every other pair of ranges to `memcpy`.
-/

namespace Rtk.Lib

open Function
open Rtk.ByteMemory

/-- The loop of `memmove` that copies down from `d` and `s`. -/
def memmoveDown (memory : Memory) (d s : ℕ) : ℕ → ℕ × Memory
  | 0 => (d, memory)
  | n + 1 => memmoveDown (update memory (d - 1) (memory (s - 1))) (d - 1) (s - 1) n

/-- `memmove`: the pointer that it returns and the memory. -/
def memmove (memory : Memory) (dest src n : ℕ) : ℕ × Memory :=
  if dest = src then (dest, memory)
  else if src < dest ∧ dest < src + n then memmoveDown memory (dest + n) (src + n) n
  else (dest, memcpy memory dest src n)

/-- The memory in which the `n` bytes from `src` on were moved to `dest` all at once. -/
def moved (memory : Memory) (dest src n : ℕ) : Memory := fun target =>
  if InRange dest n target then memory (src + (target - dest)) else memory target

section Moved

variable {memory : Memory} {dest src n : ℕ}

theorem moved_add {index : ℕ} (hindex : index < n) :
    moved memory dest src n (dest + index) = memory (src + index) := by
  have hinside : InRange dest n (dest + index) :=
    ⟨Nat.le_add_right _ _, Nat.add_lt_add_left hindex _⟩
  rw [moved, if_pos hinside, Nat.add_sub_cancel_left]

theorem moved_of_not_inRange {target : ℕ} (htarget : ¬InRange dest n target) :
    moved memory dest src n target = memory target := if_neg htarget

theorem moved_zero (memory : Memory) (dest src : ℕ) : moved memory dest src 0 = memory := by
  funext target
  apply moved_of_not_inRange
  rintro ⟨hle, hlt⟩
  exact Nat.not_lt_of_le hle hlt

/-- A block that is moved to its own place. -/
theorem moved_self (memory : Memory) (dest n : ℕ) : moved memory dest dest n = memory := by
  funext target
  by_cases hinside : InRange dest n target
  · rw [moved, if_pos hinside, Nat.add_sub_of_le hinside.1]
  · exact moved_of_not_inRange hinside

/-- The first byte may be copied before the others, when no later one is read from its
place. -/
theorem moved_ascend (hapart : ¬(src < dest ∧ dest < src + (n + 1))) :
    moved (update memory dest (memory src)) (dest + 1) (src + 1) n =
      moved memory dest src (n + 1) := by
  funext target
  by_cases hfirst : target = dest
  · have hout : ¬InRange (dest + 1) n target := fun hinside => by
      have := hinside.1
      omega
    have hinside : InRange dest (n + 1) target := ⟨by omega, by omega⟩
    rw [moved_of_not_inRange hout, hfirst, update_self, moved, if_pos (hfirst ▸ hinside),
      Nat.sub_self, Nat.add_zero]
  · by_cases hinside : InRange (dest + 1) n target
    · obtain ⟨hle, hlt⟩ := hinside
      have hsource : src + 1 + (target - (dest + 1)) = src + (target - dest) := by omega
      have hkept : src + (target - dest) ≠ dest := by omega
      rw [moved, if_pos ⟨hle, hlt⟩, hsource, update_of_ne hkept, moved,
        if_pos ⟨by omega, by omega⟩]
    · have hout : ¬InRange dest (n + 1) target := by
        rintro ⟨hle, hlt⟩
        exact hinside ⟨by omega, by omega⟩
      rw [moved_of_not_inRange hinside, update_of_ne hfirst, moved_of_not_inRange hout]

/-- The last byte may be copied before the others, when the source lies below. -/
theorem moved_descend (hbehind : src < dest) :
    moved (update memory (dest + n) (memory (src + n))) dest src n =
      moved memory dest src (n + 1) := by
  funext target
  by_cases hlast : target = dest + n
  · have hout : ¬InRange dest n target := fun hinside => by
      have := hinside.2
      omega
    rw [moved_of_not_inRange hout, hlast, update_self, moved_add (Nat.lt_succ_self n)]
  · by_cases hinside : InRange dest n target
    · obtain ⟨hle, hlt⟩ := hinside
      have hkept : src + (target - dest) ≠ dest + n := by omega
      rw [moved, if_pos ⟨hle, hlt⟩, update_of_ne hkept, moved,
        if_pos ⟨hle, Nat.lt_succ_of_lt hlt⟩]
    · have hout : ¬InRange dest (n + 1) target := by
        rintro ⟨hle, hlt⟩
        exact hinside ⟨hle, by omega⟩
      rw [moved_of_not_inRange hinside, update_of_ne hlast, moved_of_not_inRange hout]

end Moved

/-! ## The two directions -/

theorem memcpy_eq_moved {memory : Memory} {dest src n : ℕ}
    (hapart : ¬(src < dest ∧ dest < src + n)) :
    memcpy memory dest src n = moved memory dest src n := by
  induction n generalizing memory dest src with
  | zero => exact (moved_zero memory dest src).symm
  | succ n ih =>
      have hrest : ¬(src + 1 < dest + 1 ∧ dest + 1 < src + 1 + n) := by omega
      rw [memcpy, ih hrest, moved_ascend hapart]

/-- The pointer comes back to the start of the destination. -/
theorem memmoveDown_eq {memory : Memory} {dest src n : ℕ} (hbehind : src < dest) :
    memmoveDown memory (dest + n) (src + n) n = (dest, moved memory dest src n) := by
  induction n generalizing memory with
  | zero =>
      rw [moved_zero]
      rfl
  | succ n ih =>
      have hdest : dest + (n + 1) - 1 = dest + n := rfl
      have hsrc : src + (n + 1) - 1 = src + n := rfl
      rw [memmoveDown, hdest, hsrc, ih, moved_descend hbehind]

theorem memmove_eq (memory : Memory) (dest src n : ℕ) :
    memmove memory dest src n = (dest, moved memory dest src n) := by
  by_cases hsame : dest = src
  · subst src
    rw [memmove, if_pos rfl, moved_self]
  · rw [memmove, if_neg hsame]
    by_cases hoverlap : src < dest ∧ dest < src + n
    · rw [if_pos hoverlap, memmoveDown_eq hoverlap.1]
    · rw [if_neg hoverlap, memcpy_eq_moved hoverlap]

/-- `memmove` moves the bytes as they were, whether or not the two ranges overlap, leaves the
other bytes alone and returns the destination. -/
theorem memmove_moves (memory : Memory) (dest src n : ℕ) :
    (memmove memory dest src n).1 = dest ∧
      (∀ index < n, (memmove memory dest src n).2 (dest + index) = memory (src + index)) ∧
      ∀ target, ¬InRange dest n target → (memmove memory dest src n).2 target = memory target := by
  rw [memmove_eq]
  exact ⟨rfl, fun _ hindex => moved_add hindex, fun _ htarget => moved_of_not_inRange htarget⟩

/-- Three bytes that are moved up by one, and down by one. -/
example :
    let memory : Memory := fun address => BitVec.ofNat 8 address
    (List.range 6).map (memmove memory 2 1 3).2 = [0, 1, 1, 2, 3, 5] ∧
      (List.range 6).map (memmove memory 1 2 3).2 = [0, 2, 3, 4, 4, 5] := by
  decide

end Rtk.Lib
