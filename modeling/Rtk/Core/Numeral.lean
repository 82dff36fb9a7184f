import Mathlib.Data.Nat.Digits.Lemmas
import Mathlib.Data.Nat.Log

/-!
# Numerals

The digits of a number in a base, the first one first.  They are what a loop reads off that
divides by the powers of the base, from the largest one that is not above the number.
-/

namespace Rtk.Numeral

def numeral (b n : ℕ) : List ℕ :=
  if n = 0 then [0] else (Nat.digits b n).reverse

def places (b : ℕ) : ℕ → ℕ → List ℕ
  | 0, n => [n]
  | k + 1, n => n / b ^ (k + 1) :: places b k (n % b ^ (k + 1))

/-- The number that digits continue. -/
def valueFrom (b start : ℕ) (digits : List ℕ) : ℕ :=
  digits.foldl (fun value digit => value * b + digit) start

section Numeral

variable {b k n : ℕ}

/-- The last digit is the remainder. -/
theorem places_succ (b k n : ℕ) :
    places b (k + 1) n = places b k (n / b) ++ [n % b] := by
  induction k generalizing n with
  | zero =>
      rw [places, places, places, pow_one, List.singleton_append]
  | succ k ih =>
      have hdiv : n / b ^ (k + 2) = n / b / b ^ (k + 1) := by
        rw [Nat.div_div_eq_div_mul, pow_succ' b (k + 1)]
      have hrest : n % b ^ (k + 2) / b = n / b % b ^ (k + 1) := by
        rw [pow_succ', Nat.mod_mul_right_div_self]
      have hlast : n % b ^ (k + 2) % b = n % b := Nat.mod_mod_of_dvd n (dvd_pow_self b (by omega))
      rw [places, ih, hrest, hlast, hdiv, places, List.cons_append]

theorem places_eq_digits (hb : 1 < b) (hlow : b ^ k ≤ n) (hhigh : n < b ^ (k + 1)) :
    places b k n = (Nat.digits b n).reverse := by
  induction k generalizing n with
  | zero =>
      rw [pow_zero] at hlow
      rw [zero_add, pow_one] at hhigh
      rw [places, Nat.digits_of_lt b n (by omega) hhigh, List.reverse_singleton]
  | succ k ih =>
      have hpos : 0 < n := lt_of_lt_of_le (pow_pos (by omega) _) hlow
      have hlow' : b ^ k ≤ n / b := by
        rwa [Nat.le_div_iff_mul_le (by omega), ← pow_succ]
      have hhigh' : n / b < b ^ (k + 1) := by
        rwa [Nat.div_lt_iff_lt_mul (by omega), ← pow_succ]
      rw [places_succ, ih hlow' hhigh', Nat.digits_def' hb hpos, List.reverse_cons]

/-- The places of a number start with its largest one. -/
theorem places_log (hb : 1 < b) (n : ℕ) : places b (Nat.log b n) n = numeral b n := by
  rw [numeral]
  split_ifs with hzero
  · rw [hzero, Nat.log_zero_right, places]
  · exact places_eq_digits hb (Nat.pow_log_le_self b hzero) (Nat.lt_pow_succ_log_self hb n)

theorem lt_of_mem_numeral (hb : 1 < b) {digit : ℕ} (hmem : digit ∈ numeral b n) : digit < b := by
  rw [numeral] at hmem
  split_ifs at hmem with hzero
  · rw [List.mem_singleton.mp hmem]
    omega
  · exact Nat.digits_lt_base hb (List.mem_reverse.mp hmem)

/-- A number other than zero has no leading zero. -/
theorem head_numeral_ne_zero (hn : n ≠ 0) : (numeral b n).head? ≠ some 0 := by
  have hdigits : Nat.digits b n ≠ [] := Nat.digits_ne_nil_iff_ne_zero.mpr hn
  rw [numeral, if_neg hn, List.head?_reverse, List.getLast?_eq_some_getLast hdigits, ne_eq,
    Option.some.injEq]
  exact Nat.getLast_digit_ne_zero b hn

theorem length_numeral_le (hb : 1 < b) (hk : 0 < k) (hn : n < b ^ k) :
    (numeral b n).length ≤ k := by
  rw [numeral]
  split_ifs
  · exact hk
  · rw [List.length_reverse]
    exact (Nat.digits_length_le_iff hb n).mpr hn

/-- A numeral reads back as its number. -/
theorem valueFrom_numeral (b n : ℕ) : valueFrom b 0 (numeral b n) = n := by
  rw [valueFrom, numeral]
  split_ifs with hzero
  · simp [hzero]
  · calc
      (Nat.digits b n).reverse.foldl (fun value digit => value * b + digit) 0 =
          (Nat.digits b n).foldr (fun digit value => digit + b * value) 0 := by
        rw [List.foldl_reverse]
        simp only [Nat.mul_comm, Nat.add_comm]
      _ = Nat.ofDigits b (Nat.digits b n) := (Nat.ofDigits_eq_foldr b _).symm
      _ = n := Nat.ofDigits_digits b n

end Numeral

end Rtk.Numeral
