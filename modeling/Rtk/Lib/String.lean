import Mathlib.Tactic.SplitIfs
import Rtk.Core.ByteMemory

/-!
# Memory copying, strings and signed minimum

`memcpy`, `strnlen` and `strncpy` of `lib/string.c` and `min` of `lib/math.c`.
`memcpy` counts an unsigned `size_t` down, so a negative count handed to it becomes
a very large one.  A string is read as the bytes from its address on.
-/

namespace Rtk.Lib

open Function
open Rtk.ByteMemory

/-- `memcpy`: one byte at a time, in order of increasing address. -/
def memcpy (memory : Memory) (dest src : ℕ) : ℕ → Memory
  | 0 => memory
  | num + 1 => memcpy (update memory dest (memory src)) (dest + 1) (src + 1) num

/-- `min` on `long`, which has 32 bits on the target. -/
def min (a b : Word) : Word :=
  if a.slt b then a else b

theorem toInt_min (a b : Word) : (min a b).toInt = Min.min a.toInt b.toInt := by
  rw [min]
  split_ifs with hlt
  · rw [BitVec.slt_iff_toInt_lt] at hlt
    omega
  · rw [BitVec.slt_iff_toInt_lt] at hlt
    omega

/-- A nonnegative `int` keeps its value as a `size_t`. -/
theorem toNat_of_nonneg {a : Word} (ha : 0 ≤ a.toInt) :
    (a.toNat : ℤ) = a.toInt := by
  rw [BitVec.toInt_eq_toNat_cond] at ha ⊢
  split_ifs at ha ⊢ <;> omega

/-- A negative `int` becomes a `size_t` of at least 2^31. -/
theorem toNat_of_neg {a : Word} (ha : a.toInt < 0) : 2 ^ 31 ≤ a.toNat := by
  rw [BitVec.toInt_eq_toNat_cond] at ha
  split_ifs at ha <;> omega

/-- Nonnegative lengths compare as `size_t` as they do as `int`. -/
theorem toNat_min {a b : Word} (ha : 0 ≤ a.toInt) (hb : 0 ≤ b.toInt) :
    (min a b).toNat = Min.min a.toNat b.toNat := by
  have hmin := toInt_min a b
  have hnonneg : 0 ≤ (min a b).toInt := by omega
  have := toNat_of_nonneg ha
  have := toNat_of_nonneg hb
  have := toNat_of_nonneg hnonneg
  omega

/-- `memcpy` writes no byte outside its destination. -/
theorem memcpy_of_not_inRange {memory : Memory} {dest src num target : ℕ}
    (htarget : ¬InRange dest num target) :
    memcpy memory dest src num target = memory target := by
  induction num generalizing memory dest src with
  | zero => rfl
  | succ num ih =>
      have hrest : ¬InRange (dest + 1) num target := by
        rw [InRange] at htarget ⊢
        omega
      have hne : target ≠ dest := by
        rintro rfl
        exact htarget ⟨by omega, by omega⟩
      rw [memcpy, ih hrest, update_of_ne hne]

/-- Memories that agree on the source still agree after the same copy. -/
theorem memcpy_congr {memory memory' : Memory} {dest src num target : ℕ}
    (hsource : ∀ index < num, memory (src + index) = memory' (src + index))
    (hsame : memory target = memory' target ∨ InRange dest num target) :
    memcpy memory dest src num target = memcpy memory' dest src num target := by
  induction num generalizing memory memory' dest src with
  | zero =>
      apply hsame.resolve_right
      rintro ⟨hle, hlt⟩
      omega
  | succ num ih =>
      have hfirst : memory src = memory' src := hsource 0 (by omega)
      have hupdate : ∀ address, memory address = memory' address ∨ address = dest →
          update memory dest (memory src) address =
            update memory' dest (memory' src) address := by
        intro address haddress
        rw [hfirst, update_apply, update_apply]
        split_ifs with heq
        · rfl
        · exact haddress.resolve_right heq
      rw [memcpy, memcpy]
      apply ih
      · intro index hindex
        apply hupdate
        left
        rw [Nat.add_right_comm]
        exact hsource (index + 1) (by omega)
      · by_cases hdest : target = dest
        · exact .inl (hupdate _ (.inr hdest))
        · refine hsame.imp (fun heq => hupdate _ (.inl heq)) ?_
          rintro ⟨hle, hlt⟩
          exact ⟨by omega, by omega⟩

/-! ## Strings -/

/-- From `index` on, `str` holds the characters and then the terminator. -/
def Spells (str : ℕ → Byte) : ℕ → List Byte → Prop
  | index, [] => str index = 0
  | index, char :: chars =>
      str index = char ∧ char ≠ 0 ∧ Spells str (index + 1) chars

instance decidableSpells (str : ℕ → Byte) :
    ∀ index chars, Decidable (Spells str index chars)
  | index, [] => inferInstanceAs (Decidable (str index = 0))
  | index, char :: chars =>
      have : Decidable (Spells str (index + 1) chars) := decidableSpells str (index + 1) chars
      inferInstanceAs (Decidable (str index = char ∧ char ≠ 0 ∧ Spells str (index + 1) chars))

def strnlenFrom (str : ℕ → Byte) (ret : ℕ) : ℕ → ℕ
  | 0 => ret + 1
  | num + 1 => if str ret = 0 then ret + 1 else strnlenFrom str (ret + 1) num

/-- `strnlen`, which counts the terminator. -/
def strnlen (str : ℕ → Byte) (num : ℕ) : ℕ := strnlenFrom str 0 num

def strncpyFrom (dest src : ℕ → Byte) (index : ℕ) : ℕ → ℕ → Byte
  | 0 => dest
  | n + 1 => strncpyFrom (update dest index (src index)) src (index + 1) n

/-- `strncpy`.  The loop leaves its unsigned count at the largest value, so the
terminator behind the copied characters is always written. -/
def strncpy (dest src : ℕ → Byte) (n : ℕ) : ℕ → Byte :=
  update (strncpyFrom dest src 0 n) n 0

section Strings

variable {str dest : ℕ → Byte} {index : ℕ} {chars : List Byte}

theorem Spells.congr {str' : ℕ → Byte} (h : Spells str index chars)
    (hsame : ∀ i, index ≤ i → i ≤ index + chars.length → str' i = str i) :
    Spells str' index chars := by
  induction chars generalizing index with
  | nil =>
      rw [Spells, hsame index (by omega) (by simp)]
      exact h
  | cons char chars ih =>
      obtain ⟨hchar, hne, hrest⟩ := h
      refine ⟨?_, hne, ih hrest fun i hle hlt => hsame i (by omega) ?_⟩
      · rw [hsame index (by omega) (by omega), hchar]
      · rw [List.length_cons]
        omega

/-- At most `num` characters are counted, and one more byte. -/
theorem strnlenFrom_of_spells (h : Spells str index chars) (num : ℕ) :
    strnlenFrom str index num = index + Min.min chars.length num + 1 := by
  induction chars generalizing index num with
  | nil =>
      have hstop : str index = 0 := h
      rw [List.length_nil, Nat.zero_min, Nat.add_zero]
      cases num with
      | zero => rfl
      | succ num => rw [strnlenFrom, if_pos hstop]
  | cons char chars ih =>
      obtain ⟨hchar, hne, hrest⟩ := h
      cases num with
      | zero =>
          rw [Nat.min_zero]
          rfl
      | succ num =>
          rw [strnlenFrom, hchar, if_neg hne, ih hrest, List.length_cons]
          omega

theorem strncpyFrom_apply (dest src : ℕ → Byte) (index n i : ℕ) :
    strncpyFrom dest src index n i =
      if index ≤ i ∧ i < index + n then src i else dest i := by
  induction n generalizing dest index with
  | zero =>
      rw [if_neg (by omega)]
      rfl
  | succ n ih =>
      rw [strncpyFrom, ih]
      by_cases hfirst : i = index
      · subst i
        rw [if_neg (by omega), update_self, if_pos (by omega)]
      · rw [update_of_ne hfirst]
        congr 1
        apply propext
        omega

theorem strncpy_apply (dest src : ℕ → Byte) (n i : ℕ) :
    strncpy dest src n i = if i < n then src i else if i = n then 0 else dest i := by
  rw [strncpy, update_apply, strncpyFrom_apply]
  split_ifs <;> first | rfl | omega

/-- Copying a string with its terminator copies the string. -/
theorem Spells.strncpy (h : Spells str 0 chars) :
    Spells (strncpy dest str (chars.length + 1)) 0 chars := by
  apply h.congr
  intro i _ hi
  rw [strncpy_apply, if_pos (by omega)]

end Strings

end Rtk.Lib
