import Rtk.Lib.CString

/-!
# Cutting a string into tokens

`strtok` of `lib/string.c`.  Between its calls it keeps a pointer into the string, which is
an offset into the object here.  `NULL` leads to no object, so that reading through it has
no result.
-/

namespace Rtk.CString

open Rtk.ByteMemory
open Rtk.ByteObject

/-- `strncmp`, which does not stop at a terminator. -/
def strncmp : List Byte → List Byte → ℕ → Option ℤ
  | _, _, 0 => some 0
  | s :: rest, t :: rest', n + 1 =>
      if s ≠ t then some ((s.toNat : ℤ) - t.toNat) else strncmp rest rest' n
  | _, _, _ + 1 => none

/-- The string that `strtok` works on, and its static `prev`. -/
structure Tokenizer where
  object : List Byte
  prev : Option ℕ

/-- The loop of `strtok`: how far from `str` on the delimiter is, if it comes before the
terminator. -/
def delimiterFrom (delim : List Byte) (n : ℕ) : List Byte → Option (Option ℕ)
  | [] => none
  | char :: rest =>
      if char = 0 then some none
      else do
        let difference ← strncmp delim (char :: rest) n
        if difference = 0 then return some 0
        else return (← delimiterFrom delim n rest).map (· + 1)

/-- `strtok`: the pointer that it returns, and what it leaves. -/
def strtok (delim : List Byte) (str : Option ℕ) (t : Tokenizer) :
    Option (Option ℕ × Tokenizer) := do
  let delimLen ← strlen delim
  let str := str.or t.prev
  let start := str
  -- `*str`, also when `prev` was `NULL`
  let position ← str
  match ← delimiterFrom delim (delimLen - 1) (t.object.drop position) with
  | some distance =>
      let object ← store t.object (position + distance) 0
      return (start, ⟨object, some (position + distance + 1)⟩)
  | none => return (start, { t with prev := none })

/-- A call with `str` and further ones with `NULL`. -/
def strtoks (delim : List Byte) (str : Option ℕ) (t : Tokenizer) :
    ℕ → Option (List (Option ℕ) × Tokenizer)
  | 0 => some ([], t)
  | calls + 1 => do
      let (token, t) ← strtok delim str t
      let (tokens, t) ← strtoks delim none t calls
      return (token :: tokens, t)

section Delimiter

variable {text : List Byte} {delim : Byte}

/-- The terminator of the delimiter is counted by `strlen` and not compared. -/
theorem strncmp_delimiter (char : Byte) (rest : List Byte) :
    strncmp [delim, 0] (char :: rest) 1 =
      some (if delim = char then 0 else (delim.toNat : ℤ) - char.toNat) := by
  by_cases hchar : delim = char
  · rw [if_pos hchar, strncmp, if_neg (not_not.mpr hchar), strncmp]
  · rw [if_neg hchar, strncmp, if_pos hchar]

/-- Other characters are passed over. -/
theorem delimiterFrom_cons {char : Byte} (hchar : char ≠ 0) (hne : delim ≠ char)
    (rest : List Byte) :
    delimiterFrom [delim, 0] 1 (char :: rest) =
      (delimiterFrom [delim, 0] 1 rest).map (Option.map (· + 1)) := by
  have hdifference : (delim.toNat : ℤ) - char.toNat ≠ 0 := by
    rw [ne_eq, Int.sub_eq_zero, Int.natCast_inj, BitVec.toNat_inj]
    exact hne
  rw [delimiterFrom, if_neg hchar, strncmp_delimiter, if_neg hne]
  simp only [Option.bind_eq_bind, Option.bind_some, if_neg hdifference]
  cases delimiterFrom [delim, 0] 1 rest <;> rfl

theorem delimiterFrom_append (htext : 0 ∉ text) (hfree : delim ∉ text) (rest : List Byte) :
    delimiterFrom [delim, 0] 1 (text ++ 0 :: rest) = some none := by
  induction text with
  | nil => rfl
  | cons char text ih =>
      rw [List.mem_cons, not_or] at htext hfree
      rw [List.cons_append, delimiterFrom_cons (Ne.symm htext.1) hfree.1, ih htext.2 hfree.2]
      rfl

theorem delimiterFrom_append_cons (hdelim : delim ≠ 0) (htext : 0 ∉ text)
    (hfree : delim ∉ text) (rest : List Byte) :
    delimiterFrom [delim, 0] 1 (text ++ delim :: rest) = some (some text.length) := by
  induction text with
  | nil =>
      rw [List.nil_append, delimiterFrom, if_neg hdelim, strncmp_delimiter, if_pos rfl]
      rfl
  | cons char text ih =>
      rw [List.mem_cons, not_or] at htext hfree
      rw [List.cons_append, delimiterFrom_cons (Ne.symm htext.1) hfree.1, ih htext.2 hfree.2]
      rfl

end Delimiter

/-! ## A call -/

section Strtok

variable {done text : List Byte} {delim : Byte} {str prev : Option ℕ}

/-- Without a delimiter the rest of the string is the token, and `prev` becomes `NULL`. -/
theorem strtok_last (hstr : str.or prev = some done.length) (htext : 0 ∉ text)
    (hfree : delim ∉ text) (hdelim : delim ≠ 0) :
    strtok [delim, 0] str ⟨done ++ (text ++ [0]), prev⟩ =
      some (some done.length, ⟨done ++ (text ++ [0]), none⟩) := by
  have hlen : strlen [delim, 0] = some 2 := by
    rw [strlen, if_neg hdelim]
    rfl
  simp only [strtok, hlen, hstr, Option.bind_eq_bind, Option.bind_some, List.drop_left,
    delimiterFrom_append htext hfree]
  rfl

/-- The delimiter is replaced by a terminator, and `prev` leads behind it. -/
theorem strtok_cut (hstr : str.or prev = some done.length) (htext : 0 ∉ text)
    (hfree : delim ∉ text) (hdelim : delim ≠ 0) (rest : List Byte) :
    strtok [delim, 0] str ⟨done ++ (text ++ delim :: rest), prev⟩ =
      some (some done.length,
        ⟨done ++ text ++ [0] ++ rest, some (done ++ text ++ [0]).length⟩) := by
  have hlen : strlen [delim, 0] = some 2 := by
    rw [strlen, if_neg hdelim]
    rfl
  have hstore : store (done ++ (text ++ delim :: rest)) (done.length + text.length) 0 =
      some (done ++ text ++ [0] ++ rest) := by
    rw [← List.append_assoc, ← List.length_append, store_append, List.append_cons]
  have hbehind : done.length + text.length + 1 = (done ++ text ++ [0]).length := by
    simp [Nat.add_assoc]
  simp only [strtok, hlen, hstr, Option.bind_eq_bind, Option.bind_some, List.drop_left,
    delimiterFrom_append_cons hdelim htext hfree, hstore, hbehind]
  rfl

/-- Through a `NULL` pointer nothing is read. -/
theorem strtok_null (delims object : List Byte) :
    strtok delims none ⟨object, none⟩ = none := by
  rw [strtok]
  cases strlen delims <;> rfl

end Strtok
end Rtk.CString
