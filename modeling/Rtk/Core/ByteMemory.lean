import Mathlib.Algebra.Group.Int.Defs
import Mathlib.Algebra.Group.Nat.Defs
import Mathlib.Data.Int.Notation
import Mathlib.Data.Nat.Notation
import Mathlib.Logic.Function.Basic

/-!
# Flat byte memory

A memory is a byte for every address, without wrap-around.  Words are stored
little-endian.  A write is described by the range of addresses it may change;
everything outside that range keeps its value.
-/

namespace Rtk.ByteMemory

open Function

abbrev Byte := BitVec 8
abbrev Word := BitVec 32
abbrev Memory := ℕ → Byte

/-- `address` lies in the `length` bytes from `start` on. -/
def InRange (start length address : ℕ) : Prop :=
  start ≤ address ∧ address < start + length

instance (start length address : ℕ) : Decidable (InRange start length address) :=
  inferInstanceAs (Decidable (_ ∧ _))

/-- The byte of a word at a little-endian position. -/
def wordByte (word : Word) (index : ℕ) : Byte :=
  word.extractLsb' (8 * index) 8

def storeWord (memory : Memory) (address : ℕ) (word : Word) : Memory :=
  fun target =>
    if InRange address 4 target then wordByte word (target - address)
    else memory target

def loadWord (memory : Memory) (address : ℕ) : Word :=
  memory (address + 3) ++ memory (address + 2) ++ memory (address + 1) ++
    memory address

theorem storeWord_of_not_inRange {memory : Memory} {address target : ℕ}
    {word : Word} (htarget : ¬InRange address 4 target) :
    storeWord memory address word target = memory target := by
  rw [storeWord, if_neg htarget]

theorem storeWord_add (memory : Memory) (address : ℕ) (word : Word)
    {index : ℕ} (hindex : index < 4) :
    storeWord memory address word (address + index) = wordByte word index := by
  have hrange : InRange address 4 (address + index) := by
    constructor <;> omega
  rw [storeWord, if_pos hrange, Nat.add_sub_cancel_left]

/-- Memories that agree at an address still do after the same store. -/
theorem storeWord_congr {memory memory' : Memory} {address target : ℕ} (word : Word)
    (hsame : memory target = memory' target ∨ InRange address 4 target) :
    storeWord memory address word target = storeWord memory' address word target := by
  rw [storeWord, storeWord]
  by_cases hrange : InRange address 4 target
  · rw [if_pos hrange, if_pos hrange]
  · rw [if_neg hrange, if_neg hrange]
    exact hsame.resolve_right hrange

/-- A stored word is read back. -/
theorem loadWord_storeWord (memory : Memory) (address : ℕ) (word : Word) :
    loadWord (storeWord memory address word) address = word := by
  have hbyte : ∀ index < 4,
      storeWord memory address word (address + index) = wordByte word index :=
    fun _ => storeWord_add memory address word
  have hzero := hbyte 0 (by omega)
  rw [Nat.add_zero] at hzero
  rw [loadWord, hzero, hbyte 1 (by omega), hbyte 2 (by omega),
    hbyte 3 (by omega)]
  apply BitVec.eq_of_getLsbD_eq
  intro bit hbit
  simp only [wordByte, BitVec.getLsbD_append, BitVec.getLsbD_extractLsb']
  grind

/-- Memories that agree on a word hold the same word. -/
theorem loadWord_congr {memory memory' : Memory} {start : ℕ}
    (hsame : ∀ target, InRange start 4 target → memory target = memory' target) :
    loadWord memory start = loadWord memory' start := by
  have hbyte : ∀ index < 4, memory (start + index) = memory' (start + index) :=
    fun index hindex => hsame _ ⟨Nat.le_add_right _ _, by omega⟩
  have hzero := hbyte 0 (by omega)
  rw [Nat.add_zero] at hzero
  rw [loadWord, loadWord, hzero, hbyte 1 (by omega), hbyte 2 (by omega), hbyte 3 (by omega)]

/-- A store next to a word leaves the word. -/
theorem loadWord_storeWord_of_disjoint (memory : Memory) {address other : ℕ} (word : Word)
    (hdisjoint : ∀ target, InRange address 4 target → ¬InRange other 4 target) :
    loadWord (storeWord memory other word) address = loadWord memory address :=
  loadWord_congr fun target htarget => storeWord_of_not_inRange (hdisjoint target htarget)

/-! ## Words as masks -/

/-- A mask lies in a word without some bits when it lies in the word and has none of
them. -/
theorem and_and_not_eq_iff (mask value word : Word) :
    mask &&& (value &&& ~~~word) = mask ↔ mask &&& value = mask ∧ mask &&& word = 0 := by
  simp only [BitVec.eq_of_getLsbD_eq_iff, BitVec.getLsbD_and, BitVec.getLsbD_not]
  constructor
  · intro h
    constructor
    · intro bit hbit
      have hbits := h bit hbit
      grind
    · intro bit hbit
      have hbits := h bit hbit
      grind
  · rintro ⟨hvalue, hword⟩ bit hbit
    have hbits := hvalue bit hbit
    have hdisjoint := hword bit hbit
    grind

theorem and_or_eq_of_and_eq {mask value : Word} (h : mask &&& value = mask) (word : Word) :
    mask &&& (value ||| word) = mask := by
  simp only [BitVec.eq_of_getLsbD_eq_iff, BitVec.getLsbD_and, BitVec.getLsbD_or] at h ⊢
  intro bit hbit
  have hbits := h bit hbit
  grind

/-! ## Words as signed numbers -/

theorem toInt_add_one {word : Word} (hle : word.toInt + 1 < 2 ^ 31) :
    (word + 1).toInt = word.toInt + 1 := by
  have hlower := @BitVec.le_toInt 32 word
  have hone : (1 : Word).toInt = 1 := rfl
  rw [BitVec.toInt_add, hone, Int.bmod_eq_of_le] <;> omega

theorem toInt_sub_one {word : Word} (hle : -2 ^ 31 ≤ word.toInt - 1) :
    (word - 1).toInt = word.toInt - 1 := by
  have hupper := @BitVec.toInt_lt 32 word
  have hone : (1 : Word).toInt = 1 := rfl
  rw [BitVec.toInt_sub, hone, Int.bmod_eq_of_le] <;> omega

end Rtk.ByteMemory
