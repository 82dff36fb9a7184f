import Mathlib.Data.List.TakeWhile
import Rtk.Core.ByteObject

/-!
# Strings in objects

Functions of `lib/string.c` with every access checked against the object that it must
keep to.  Where a function only reads, a pointer is the list of the bytes of its object
from there on.
-/

namespace Rtk.CString

open Rtk.ByteMemory
open Rtk.ByteObject

/-! ## Blocks -/

def memcpy (object : List Byte) (dest src : ℕ) : ℕ → Option (List Byte)
  | 0 => some object
  | num + 1 => (copy object dest src).bind fun object => memcpy object (dest + 1) (src + 1) num

/-- The loop of `memmove` that copies down from `d` and `s`. -/
def memmoveDown (object : List Byte) (d s : ℕ) : ℕ → Option (ℕ × List Byte)
  | 0 => some (d, object)
  | n + 1 =>
      (copy object (d - 1) (s - 1)).bind fun object => memmoveDown object (d - 1) (s - 1) n

/-- `memmove` inside one object: the pointer that it returns and the object. -/
def memmove (object : List Byte) (dest src n : ℕ) : Option (ℕ × List Byte) :=
  if dest = src then some (dest, object)
  else if src < dest ∧ dest < src + n then memmoveDown object (dest + n) (src + n) n
  else (memcpy object dest src n).map fun object => (dest, object)

section Blocks

variable {object : List Byte} {dest src num n : ℕ}

theorem exists_memcpy (hdest : dest + num ≤ object.length) (hsrc : src + num ≤ object.length)
    (hapart : ¬(src < dest ∧ dest < src + num)) :
    ∃ object', memcpy object dest src num = some object' ∧
      Moved object dest src num object' := by
  induction num generalizing object dest src with
  | zero => exact ⟨object, rfl, .refl object dest src⟩
  | succ num ih =>
      obtain ⟨first, hcopy, hlength, hfirst⟩ :=
        @exists_copy object dest src (by omega) (by omega)
      obtain ⟨object', hrest, hmoved⟩ :=
        @ih first (dest + 1) (src + 1) (by omega) (by omega) (by omega)
      refine ⟨object', ?_, hmoved.ascend hlength hfirst hapart⟩
      rw [memcpy, hcopy, Option.bind_some]
      exact hrest

theorem exists_memmoveDown (hdest : dest + n ≤ object.length)
    (hsrc : src + n ≤ object.length) (hbehind : src < dest) :
    ∃ object', memmoveDown object (dest + n) (src + n) n = some (dest, object') ∧
      Moved object dest src n object' := by
  induction n generalizing object with
  | zero => exact ⟨object, rfl, .refl object dest src⟩
  | succ n ih =>
      obtain ⟨last, hcopy, hlength, hlast⟩ :=
        @exists_copy object (dest + n) (src + n) (by omega) (by omega)
      obtain ⟨object', hrest, hmoved⟩ := @ih last (by omega) (by omega)
      refine ⟨object', ?_, hmoved.descend hlength hlast hbehind⟩
      have hd : dest + (n + 1) - 1 = dest + n := by omega
      have hs : src + (n + 1) - 1 = src + n := by omega
      rw [memmoveDown, hd, hs, hcopy, Option.bind_some]
      exact hrest

/-- `memmove` moves the block whether or not the two ranges overlap. -/
theorem exists_memmove (hdest : dest + n ≤ object.length) (hsrc : src + n ≤ object.length) :
    ∃ object', memmove object dest src n = some (dest, object') ∧
      Moved object dest src n object' := by
  by_cases hsame : dest = src
  · subst src
    exact ⟨object, if_pos rfl, .self object dest n⟩
  · by_cases hoverlap : src < dest ∧ dest < src + n
    · obtain ⟨object', hmove, hmoved⟩ := exists_memmoveDown hdest hsrc hoverlap.1
      refine ⟨object', ?_, hmoved⟩
      rw [memmove, if_neg hsame, if_pos hoverlap]
      exact hmove
    · obtain ⟨object', hcopy, hmoved⟩ := exists_memcpy hdest hsrc hoverlap
      refine ⟨object', ?_, hmoved⟩
      rw [memmove, if_neg hsame, if_neg hoverlap, hcopy]
      rfl

end Blocks

/-! ## Strings -/

/-- The characters before the terminator. -/
def chars : List Byte → Option (List Byte)
  | [] => none
  | char :: rest => if char = 0 then some [] else (chars rest).map (char :: ·)

/-- `strlen`, which counts the terminator. -/
def strlen : List Byte → Option ℕ
  | [] => none
  | char :: rest => if char = 0 then some 1 else (strlen rest).map (· + 1)

def strcmp : List Byte → List Byte → Option ℤ
  | s :: rest, t :: rest' =>
      if s ≠ 0 ∧ s = t then strcmp rest rest' else some ((s.toNat : ℤ) - t.toNat)
  | _, _ => none

/-- The outer loop of `strcspn`.  The inner one compares a character with the first
`str2Len` of `str2`. -/
def strcspnFrom (str2 : List Byte) (str2Len : ℕ) : List Byte → Option ℕ
  | [] => none
  | char :: rest =>
      if char = 0 then some 0
      else if char ∈ str2.take str2Len then some 0
      else (strcspnFrom str2 str2Len rest).map (· + 1)

def strcspn (str1 str2 : List Byte) : Option ℕ :=
  (strlen str2).bind fun str2Len => strcspnFrom str2 str2Len str1

/-- `strncpy` to the object `dest`, from `index` on.  The loop leaves its unsigned count
at the largest value, so the terminator behind the copied characters is always written. -/
def strncpyFrom (dest : List Byte) (index : ℕ) : ℕ → List Byte → Option (List Byte)
  | 0, _ => store dest index 0
  | _ + 1, [] => none
  | n + 1, char :: rest =>
      (store dest index char).bind fun dest => strncpyFrom dest (index + 1) n rest

def strncpy (dest src : List Byte) (n : ℕ) : Option (List Byte) := strncpyFrom dest 0 n src

section Strings

variable {text rest text' rest' : List Byte}

theorem chars_append (htext : 0 ∉ text) (rest : List Byte) :
    chars (text ++ 0 :: rest) = some text := by
  induction text with
  | nil => rfl
  | cons char text ih =>
      rw [List.mem_cons, not_or] at htext
      rw [List.cons_append, chars, if_neg (Ne.symm htext.1), ih htext.2]
      rfl

/-- A string ends at the first terminator, wherever that is. -/
theorem exists_terminated (text rest : List Byte) :
    ∃ shown rest', text ++ 0 :: rest = shown ++ 0 :: rest' ∧ 0 ∉ shown := by
  induction text with
  | nil => exact ⟨[], rest, rfl, List.not_mem_nil⟩
  | cons char text ih =>
      by_cases hchar : char = 0
      · exact ⟨[], text ++ 0 :: rest, by rw [hchar]; rfl, List.not_mem_nil⟩
      · obtain ⟨shown, rest', heq, hshown⟩ := ih
        refine ⟨char :: shown, rest', ?_, ?_⟩
        · rw [List.cons_append, heq, List.cons_append]
        · rw [List.mem_cons, not_or]
          exact ⟨Ne.symm hchar, hshown⟩

theorem exists_strcmp (text rest text' rest' : List Byte) :
    ∃ difference, strcmp (text ++ 0 :: rest) (text' ++ 0 :: rest') = some difference := by
  induction text generalizing text' with
  | nil =>
      cases text' with
      | nil => exact ⟨0, rfl⟩
      | cons char text' => exact ⟨_, if_neg (by simp)⟩
  | cons char text ih =>
      cases text' with
      | nil =>
          refine ⟨_, if_neg ?_⟩
          rintro ⟨hne, heq⟩
          exact hne heq
      | cons char' text' =>
          obtain ⟨difference, hrest⟩ := ih text'
          rw [List.cons_append, List.cons_append, strcmp, hrest]
          split_ifs
          · exact ⟨difference, rfl⟩
          · exact ⟨_, rfl⟩

/-- `strcmp` is zero for equal strings only. -/
theorem strcmp_append (htext : 0 ∉ text) (htext' : 0 ∉ text')
    {difference : ℤ} (hcompare : strcmp (text ++ 0 :: rest) (text' ++ 0 :: rest') =
      some difference) : difference = 0 ↔ text = text' := by
  induction text generalizing text' with
  | nil =>
      cases text' with
      | nil =>
          obtain rfl := Option.some.inj hcompare
          simp
      | cons char text' =>
          obtain rfl := Option.some.inj ((if_neg (by simp)).symm.trans hcompare)
          simp only [List.mem_cons, not_or] at htext'
          have hchar : char.toNat ≠ 0 := by
            rw [ne_eq, ← BitVec.toNat_zero, BitVec.toNat_inj]
            exact Ne.symm htext'.1
          simp [hchar]
  | cons char text ih =>
      rw [List.mem_cons, not_or] at htext
      cases text' with
      | nil =>
          rw [List.cons_append, List.nil_append, strcmp, if_neg] at hcompare
          · obtain rfl := Option.some.inj hcompare
            have hchar : char.toNat ≠ 0 := by
              rw [ne_eq, ← BitVec.toNat_zero, BitVec.toNat_inj]
              exact Ne.symm htext.1
            simp [hchar]
          · rintro ⟨hne, heq⟩
            exact hne heq
      | cons char' text' =>
          rw [List.mem_cons, not_or] at htext'
          rw [List.cons_append, List.cons_append, strcmp] at hcompare
          by_cases hchar : char = char'
          · rw [if_pos ⟨Ne.symm htext.1, hchar⟩] at hcompare
            rw [ih htext.2 htext'.2 hcompare, hchar, List.cons_inj_right]
          · rw [if_neg fun h => hchar h.2, Option.some.injEq] at hcompare
            rw [← hcompare, Int.sub_eq_zero, Int.natCast_inj, BitVec.toNat_inj]
            simp [hchar]

theorem strlen_append (htext : 0 ∉ text) (rest : List Byte) :
    strlen (text ++ 0 :: rest) = some (text.length + 1) := by
  induction text with
  | nil => rfl
  | cons char text ih =>
      rw [List.mem_cons, not_or] at htext
      rw [List.cons_append, strlen, if_neg (Ne.symm htext.1), ih htext.2]
      rfl

/-- `strcspn` finds the first character of the string that is one of `text'`. -/
theorem strcspn_append (htext : 0 ∉ text) (htext' : 0 ∉ text') (rest rest' : List Byte) :
    strcspn (text ++ 0 :: rest) (text' ++ 0 :: rest') =
      some (text.takeWhile (· ∉ text')).length := by
  rw [strcspn, strlen_append htext', Option.bind_some]
  have hset : (text' ++ 0 :: rest').take (text'.length + 1) = text' ++ [0] := by
    rw [List.take_append, List.take_of_length_le (by omega), Nat.add_sub_cancel_left]
    rfl
  induction text with
  | nil => rfl
  | cons char text ih =>
      rw [List.mem_cons, not_or] at htext
      rw [List.cons_append, strcspnFrom, if_neg (Ne.symm htext.1), ih htext.2, hset]
      by_cases hmem : char ∈ text'
      · rw [if_pos (List.mem_append_left _ hmem), List.takeWhile_cons_of_neg (by simp [hmem])]
        rfl
      · have hneither : char ∉ text' ++ [0] := by
          rw [List.mem_append, List.mem_singleton, not_or]
          exact ⟨hmem, Ne.symm htext.1⟩
        rw [if_neg hneither, List.takeWhile_cons_of_pos (by simp [hmem])]
        rfl

/-- `strcspn` of a single character finds it. -/
theorem strcspn_singleton {char : Byte} (htext : 0 ∉ text) (hchar : char ≠ 0)
    (rest rest' : List Byte) :
    strcspn (text ++ 0 :: rest) ([char] ++ 0 :: rest') =
      some (text.takeWhile (· ≠ char)).length := by
  have hset : (0 : Byte) ∉ [char] := fun hmem => hchar (List.mem_singleton.mp hmem).symm
  rw [strcspn_append htext hset]
  simp only [List.mem_singleton]

theorem store_append (done : List Byte) (old byte : Byte) (rest : List Byte) :
    store (done ++ old :: rest) done.length byte = some (done ++ byte :: rest) := by
  rw [store_of_lt (by rw [List.length_append, List.length_cons]; omega)]
  simp

theorem strncpyFrom_append (done : List Byte) {dest : List Byte}
    (hdest : dest.length = text.length + 1) (rest : List Byte) :
    strncpyFrom (done ++ dest) done.length text.length (text ++ rest) =
      some (done ++ text ++ [0]) := by
  induction text generalizing done dest with
  | nil =>
      obtain ⟨old, rfl⟩ := List.length_eq_one_iff.mp hdest
      rw [List.append_nil, List.length_nil, strncpyFrom]
      exact store_append done old 0 []
  | cons char text ih =>
      cases dest with
      | nil => simp at hdest
      | cons old dest =>
          have hshift : done ++ char :: dest = done ++ [char] ++ dest := by simp
          have hindex : done.length + 1 = (done ++ [char]).length := by simp
          rw [List.length_cons, List.cons_append, strncpyFrom, store_append, Option.bind_some,
            hshift, hindex, ih (done ++ [char]) (Nat.succ.inj hdest)]
          simp

/-- `strncpy` of the first characters of a string to an object that just holds them and a
terminator. -/
theorem strncpy_append {dest : List Byte} (hdest : dest.length = text.length + 1)
    (rest : List Byte) : strncpy dest (text ++ rest) text.length = some (text ++ [0]) :=
  strncpyFrom_append [] hdest rest

end Strings

end Rtk.CString
