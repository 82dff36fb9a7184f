import Rtk.Lib.CString

/-!
# Formatted output

The conversions of `lib/print.c` for `%s` and for `%d`, without a width.  A call of
`Print` is the list of the pieces of its format string with their arguments, and what it
hands to `Putc`.
-/

namespace Rtk.Print

open Rtk.ByteMemory

def ascii (characters : List Char) : List Byte :=
  characters.map fun character => BitVec.ofNat 8 character.toNat

/-- The first loop of `ui2a` for base 10, from `d` on. -/
def ui2aScale (num : ℕ) : ℕ → ℕ → ℕ
  | 0, d => d
  | fuel + 1, d => if 10 ≤ num / d then ui2aScale num fuel (d * 10) else d

/-- The second loop of `ui2a` for base 10: `started` once a digit is written. -/
def ui2aDigits : ℕ → ℕ → ℕ → Bool → List Byte
  | 0, _, _, _ => []
  | fuel + 1, num, d, started =>
      if d = 0 then []
      else
        let dgt := num / d
        let num := num % d
        let d := d / 10
        if started ∨ 0 < dgt ∨ d = 0 then
          BitVec.ofNat 8 (dgt + 48) :: ui2aDigits fuel num d true
        else ui2aDigits fuel num d started

/-- `ui2a` for base 10. -/
def ui2a (num : ℕ) : List Byte :=
  let d := ui2aScale num num 1
  ui2aDigits (d + 1) num d false

def i2a (num : ℤ) : List Byte :=
  if num < 0 then ascii ['-'] ++ ui2a num.natAbs else ui2a num.natAbs

/-- A piece of a format string with its argument. -/
inductive Piece where
  /-- Characters of the format string, or a string constant for a `%s`. -/
  | text (bytes : List Byte)
  /-- `%s` for a pointer. -/
  | s (pointer : List Byte)
  /-- `%d`. -/
  | d (num : ℤ)

def Piece.format : Piece → Option (List Byte)
  | text bytes => some bytes
  | s pointer => CString.chars pointer
  | d num => some (i2a num)

def print : List Piece → Option (List Byte)
  | [] => some []
  | piece :: pieces =>
      piece.format.bind fun bytes => (print pieces).map (bytes ++ ·)

theorem print_cons (piece : Piece) (pieces : List Piece) :
    print (piece :: pieces) =
      piece.format.bind fun bytes => (print pieces).map (bytes ++ ·) := rfl

theorem print_s (pointer : List Byte) : print [.s pointer] = CString.chars pointer := by
  rw [print_cons, Piece.format]
  cases CString.chars pointer with
  | none => rfl
  | some shown => simp [print]

/-! ## Reading numbers back -/

def IsDigit (byte : Byte) : Prop := 48 ≤ byte.toNat ∧ byte.toNat < 58

def decimalFrom (start : ℕ) (bytes : List Byte) : ℕ :=
  bytes.foldl (fun value byte => 10 * value + (byte.toNat - 48)) start

section Decimal

variable {num d k fuel : ℕ}

theorem toNat_digit {dgt : ℕ} (hdgt : dgt < 10) :
    (BitVec.ofNat 8 (dgt + 48)).toNat = dgt + 48 := by
  rw [BitVec.toNat_ofNat, Nat.mod_eq_of_lt (by omega)]

theorem exists_ui2aScale (hnum : num < 10 ^ (k + fuel + 1)) :
    ∃ k', ui2aScale num fuel (10 ^ k) = 10 ^ k' ∧ num < 10 ^ (k' + 1) := by
  induction fuel generalizing k with
  | zero => exact ⟨k, rfl, hnum⟩
  | succ fuel ih =>
      rw [ui2aScale, ← Nat.pow_succ]
      split_ifs with hlarge
      · apply ih
        rwa [Nat.add_right_comm k 1 fuel]
      · refine ⟨k, rfl, ?_⟩
        rw [Nat.pow_succ, Nat.mul_comm, ← Nat.div_lt_iff_lt_mul (Nat.pow_pos (by omega))]
        omega

theorem ui2aDigits_zero (fuel : ℕ) (num : ℕ) (started : Bool) :
    ui2aDigits (fuel + 2) num (10 ^ 0) started = [BitVec.ofNat 8 (num + 48)] := by
  simp [ui2aDigits]

theorem ui2aDigits_succ (fuel num k : ℕ) (started : Bool) :
    ui2aDigits (fuel + 1) num (10 ^ (k + 1)) started =
      if started ∨ 0 < num / 10 ^ (k + 1) then
        BitVec.ofNat 8 (num / 10 ^ (k + 1) + 48) ::
          ui2aDigits fuel (num % 10 ^ (k + 1)) (10 ^ k) true
      else ui2aDigits fuel (num % 10 ^ (k + 1)) (10 ^ k) started := by
  have hpos : 0 < 10 ^ (k + 1) := Nat.pow_pos (by omega)
  have hleft : 10 ^ k ≠ 0 := (Nat.pow_pos (by omega)).ne'
  have hdiv : 10 ^ (k + 1) / 10 = 10 ^ k := by
    rw [Nat.pow_succ, Nat.mul_div_cancel _ (by omega)]
  rw [ui2aDigits, if_neg hpos.ne']
  simp only [hdiv, hleft, or_false]

/-- A digit continues the number in front of it. -/
theorem decimal_succ (start num k : ℕ) :
    (10 * start + num / 10 ^ (k + 1)) * 10 ^ (k + 1) + num % 10 ^ (k + 1) =
      start * 10 ^ (k + 2) + num := by
  calc
    (10 * start + num / 10 ^ (k + 1)) * 10 ^ (k + 1) + num % 10 ^ (k + 1) =
        10 * start * 10 ^ (k + 1) +
          (10 ^ (k + 1) * (num / 10 ^ (k + 1)) + num % 10 ^ (k + 1)) := by
      rw [Nat.add_mul, Nat.mul_comm (num / 10 ^ (k + 1)), Nat.add_assoc]
    _ = 10 * start * 10 ^ (k + 1) + num := by
      rw [Nat.div_add_mod]
    _ = start * 10 ^ (k + 2) + num := by
      rw [Nat.mul_comm 10 start, Nat.mul_assoc, Nat.pow_succ 10 (k + 1),
        Nat.mul_comm 10 (10 ^ (k + 1))]

/-- The digits that the second loop writes are those of the number. -/
theorem ui2aDigits_spec {start : ℕ} {started : Bool} (hfuel : k + 1 < fuel)
    (hnum : num < 10 ^ (k + 1)) (hstart : started = false → start = 0) :
    decimalFrom start (ui2aDigits fuel num (10 ^ k) started) = start * 10 ^ (k + 1) + num ∧
      ∀ byte ∈ ui2aDigits fuel num (10 ^ k) started, IsDigit byte := by
  induction k generalizing fuel num start started with
  | zero =>
      obtain ⟨fuel, rfl⟩ : ∃ fuel', fuel = fuel' + 2 := ⟨fuel - 2, by omega⟩
      have hbyte := toNat_digit (show num < 10 from hnum)
      rw [ui2aDigits_zero]
      constructor
      · rw [decimalFrom, List.foldl_cons, List.foldl_nil, hbyte]
        omega
      · intro byte hmem
        rw [List.mem_singleton.mp hmem, IsDigit, hbyte]
        omega
  | succ k ih =>
      obtain ⟨fuel, rfl⟩ : ∃ fuel', fuel = fuel' + 1 := ⟨fuel - 1, by omega⟩
      have hpos : 0 < 10 ^ (k + 1) := Nat.pow_pos (by omega)
      have hdgt : num / 10 ^ (k + 1) < 10 := by
        rw [Nat.div_lt_iff_lt_mul hpos, Nat.mul_comm, ← Nat.pow_succ]
        exact hnum
      have hmod : num % 10 ^ (k + 1) < 10 ^ (k + 1) := Nat.mod_lt _ hpos
      rw [ui2aDigits_succ]
      split_ifs with hwrite
      · have hbyte := toNat_digit hdgt
        obtain ⟨hvalue, hdigits⟩ := @ih _ fuel (10 * start + num / 10 ^ (k + 1)) true
          (by omega) hmod (by simp)
        constructor
        · rw [decimalFrom, List.foldl_cons, hbyte, Nat.add_sub_cancel]
          exact hvalue.trans (decimal_succ start num k)
        · intro byte hmem
          rcases List.mem_cons.mp hmem with rfl | hmem
          · rw [IsDigit, hbyte]
            exact ⟨Nat.le_add_left _ _, Nat.add_lt_add_right hdgt 48⟩
          · exact hdigits byte hmem
      · -- a leading zero is not written
        rw [not_or] at hwrite
        have hsame : num % 10 ^ (k + 1) = num :=
          Nat.mod_eq_of_lt ((Nat.div_eq_zero_iff_lt hpos).mp (Nat.eq_zero_of_not_pos hwrite.2))
        have hnone := hstart (by simpa using hwrite.1)
        obtain ⟨hvalue, hdigits⟩ := @ih _ fuel start started (by omega) hmod hstart
        refine ⟨?_, hdigits⟩
        rw [hvalue, hsame, hnone, Nat.zero_mul, Nat.zero_mul]

/-- `ui2a` writes the decimal digits of the number. -/
theorem ui2a_spec (num : ℕ) :
    decimalFrom 0 (ui2a num) = num ∧ ∀ byte ∈ ui2a num, IsDigit byte := by
  have hlarge : num < 10 ^ (0 + num + 1) :=
    (Nat.lt_pow_self (by omega)).trans (Nat.pow_lt_pow_right (by omega) (by omega))
  obtain ⟨k, hscale, hnum⟩ := exists_ui2aScale hlarge
  have hk : k < 10 ^ k := Nat.lt_pow_self (by omega)
  have hspec := @ui2aDigits_spec num k (10 ^ k + 1) 0 false (by omega) hnum (fun _ => rfl)
  rw [Nat.zero_mul, Nat.zero_add] at hspec
  rw [Nat.pow_zero] at hscale
  rw [ui2a, hscale]
  exact hspec

end Decimal

end Rtk.Print
