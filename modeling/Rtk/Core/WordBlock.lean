import Mathlib.Data.List.Basic
import Rtk.Core.ByteMemory

/-!
# Blocks of words

A block transfer stores or loads consecutive words from a word address on.  The two low
bits of an address do not count, so that every word lies at a multiple of four.
-/

namespace Rtk.ByteMemory

/-- The bytes that an access to an address uses start here. -/
def wordAddress (address : Word) : ℕ := 4 * (address.toNat / 4)

def storeWords (memory : Memory) (address : Word) : List Word → Memory
  | [] => memory
  | word :: words => storeWords (storeWord memory (wordAddress address) word) (address + 4) words

def loadWords (memory : Memory) (address : Word) : ℕ → List Word
  | 0 => []
  | num + 1 => loadWord memory (wordAddress address) :: loadWords memory (address + 4) num

section Words

variable {memory memory' : Memory} {address : Word} {words : List Word} {num target : ℕ}

theorem wordAddress_of_aligned (haligned : 4 ∣ address.toNat) :
    wordAddress address = address.toNat := Nat.mul_div_cancel' haligned

theorem wordAddress_add_four (hfits : wordAddress address + 8 ≤ 2 ^ 32) :
    wordAddress (address + 4) = wordAddress address + 4 := by
  have hfour : (4 : Word).toNat = 4 := rfl
  simp only [wordAddress] at *
  rw [BitVec.toNat_add, hfour, Nat.mod_eq_of_lt (by omega)]
  omega

/-- A block below an address that has room for it. -/
theorem wordAddress_sub (hroom : 4 * num ≤ address.toNat) :
    wordAddress (address - BitVec.ofNat 32 (4 * num)) + 4 * num = wordAddress address := by
  have hlarge := address.isLt
  simp only [wordAddress]
  rw [BitVec.toNat_sub, BitVec.toNat_ofNat]
  omega

theorem wordAddress_lt (address : Word) : wordAddress address + 4 ≤ 2 ^ 32 := by
  have hlarge := address.isLt
  simp only [wordAddress]
  omega

theorem length_loadWords (memory : Memory) (address : Word) (num : ℕ) :
    (loadWords memory address num).length = num := by
  induction num generalizing address with
  | zero => rfl
  | succ num ih => rw [loadWords, List.length_cons, ih]

/-- Behind the first word the block goes on. -/
theorem block_succ (hfits : wordAddress address + 4 * (num + 1) ≤ 2 ^ 32) :
    num = 0 ∨ wordAddress (address + 4) = wordAddress address + 4 ∧
      wordAddress (address + 4) + 4 * num ≤ 2 ^ 32 := by
  rcases Nat.eq_zero_or_pos num with hnum | hnum
  · exact .inl hnum
  · have hnext := @wordAddress_add_four address (by omega)
    exact .inr ⟨hnext, by omega⟩

/-- A block in two parts. -/
theorem loadWords_add (memory : Memory) (address : Word) (num num' : ℕ) :
    loadWords memory address (num + num') = loadWords memory address num ++
      loadWords memory (address + BitVec.ofNat 32 (4 * num)) num' := by
  induction num generalizing address with
  | zero => rw [Nat.zero_add, Nat.mul_zero, BitVec.add_zero]; rfl
  | succ num ih =>
      have hnext : address + 4 + BitVec.ofNat 32 (4 * num) =
          address + BitVec.ofNat 32 (4 * (num + 1)) := by
        rw [BitVec.add_assoc, Nat.mul_succ, Nat.add_comm, BitVec.ofNat_add]
        rfl
      rw [Nat.add_right_comm, loadWords, ih, hnext]
      rfl

/-- What lies outside the block keeps its value. -/
theorem storeWords_of_not_inRange (memory : Memory)
    (hfits : wordAddress address + 4 * words.length ≤ 2 ^ 32)
    (htarget : ¬InRange (wordAddress address) (4 * words.length) target) :
    storeWords memory address words target = memory target := by
  induction words generalizing memory address with
  | nil => rfl
  | cons word words ih =>
      rw [List.length_cons] at hfits htarget
      have hfirst : storeWord memory (wordAddress address) word target = memory target := by
        apply storeWord_of_not_inRange
        rintro ⟨hstart, hend⟩
        exact htarget ⟨hstart, by omega⟩
      rw [storeWords]
      rcases block_succ hfits with hnone | ⟨hnext, hrest⟩
      · rw [List.eq_nil_of_length_eq_zero hnone]
        exact hfirst
      · rw [ih _ hrest]
        · exact hfirst
        · rintro ⟨hstart, hend⟩
          exact htarget ⟨by omega, by omega⟩

/-- Memories that agree on the block hold the same words. -/
theorem loadWords_congr (hfits : wordAddress address + 4 * num ≤ 2 ^ 32)
    (hsame : ∀ target, InRange (wordAddress address) (4 * num) target →
      memory target = memory' target) :
    loadWords memory address num = loadWords memory' address num := by
  induction num generalizing address with
  | zero => rfl
  | succ num ih =>
      have hfirst : loadWord memory (wordAddress address) =
          loadWord memory' (wordAddress address) := by
        apply loadWord_congr
        rintro target ⟨hstart, hend⟩
        exact hsame target ⟨hstart, by omega⟩
      rw [loadWords, loadWords, hfirst]
      rcases block_succ hfits with rfl | ⟨hnext, hrest⟩
      · rfl
      · rw [ih hrest]
        rintro target ⟨hstart, hend⟩
        exact hsame target ⟨by omega, by omega⟩

/-- A stored block is loaded again. -/
theorem loadWords_storeWords (memory : Memory)
    (hfits : wordAddress address + 4 * words.length ≤ 2 ^ 32) :
    loadWords (storeWords memory address words) address words.length = words := by
  induction words generalizing memory address with
  | nil => rfl
  | cons word words ih =>
      rw [List.length_cons] at hfits
      rw [List.length_cons, loadWords, storeWords]
      rcases block_succ hfits with hnone | ⟨hnext, hrest⟩
      · rw [List.eq_nil_of_length_eq_zero hnone, storeWords, loadWord_storeWord]
        rfl
      · have hkept : loadWord
            (storeWords (storeWord memory (wordAddress address) word) (address + 4) words)
            (wordAddress address) = word := by
          rw [← loadWord_storeWord memory (wordAddress address) word]
          apply loadWord_congr
          rintro target ⟨_, hend⟩
          rw [loadWord_storeWord]
          apply storeWords_of_not_inRange _ hrest
          rintro ⟨hstart, _⟩
          omega
        rw [hkept, ih _ hrest]

end Words

end Rtk.ByteMemory
