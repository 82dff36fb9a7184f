import Rtk.Lib.Strtok

/-!
# The pieces that `strtok` returns

Each call cuts one piece off, and the last piece leaves `NULL` in `prev`.  A further call
does not look at `prev` before it reads through it.
-/

namespace Rtk.CString

open Rtk.ByteMemory

/-- What is at the pointers: a string, or nothing for `NULL`. -/
def stringsAt (object : List Byte) (tokens : List (Option ℕ)) :
    List (Option (Option (List Byte))) :=
  tokens.map (Option.map fun token => chars (object.drop token))

/-- A piece for each call in turn, and `NULL` once they are used up. -/
def piecesFor (pieces : List (List Byte)) (calls : ℕ) :
    List (Option (Option (List Byte))) :=
  (List.range calls).map fun call => pieces[call]?.map some

/-- The calls of `strtok` on the string `text` keep to it and return its pieces. -/
def Splits (text : List Byte) (delim : Byte) (prev : Option ℕ) (calls : ℕ) : Prop :=
  ∃ tokens t, strtoks [delim, 0] (some 0) ⟨text ++ [0], prev⟩ calls = some (tokens, t) ∧
    stringsAt t.object tokens = piecesFor (text.splitOn delim) calls

section Pieces

variable {done text : List Byte} {delim : Byte} {str prev : Option ℕ} {calls : ℕ}

theorem piecesFor_eq_take {pieces : List (List Byte)} (hcalls : calls ≤ pieces.length) :
    piecesFor pieces calls = (pieces.take calls).map fun piece => some (some piece) := by
  apply List.ext_getElem
  · rw [piecesFor, List.length_map, List.length_range, List.length_map, List.length_take,
      Nat.min_eq_left hcalls]
  · intro call hleft hright
    rw [List.length_map, List.length_take] at hright
    have hcall : call < pieces.length := by omega
    simp only [piecesFor, List.getElem_map, List.getElem_range, List.getElem_take,
      List.getElem?_eq_getElem hcall, Option.map_some]

/-- As long as there are pieces, the calls return them, and what lies before the rest of the
string stays. -/
theorem exists_strtoks (hdelim : delim ≠ 0) (hstr : str.or prev = some done.length)
    (htext : 0 ∉ text) (hcalls : calls ≤ (text.splitOn delim).length) :
    ∃ tokens rest prev',
      strtoks [delim, 0] str ⟨done ++ (text ++ [0]), prev⟩ calls =
          some (tokens, ⟨done ++ rest, prev'⟩) ∧
        stringsAt (done ++ rest) tokens =
          ((text.splitOn delim).take calls).map fun piece => some (some piece) := by
  induction calls generalizing done text str prev with
  | zero => exact ⟨[], text ++ [0], prev, rfl, rfl⟩
  | succ calls ih =>
      by_cases hmem : delim ∈ text
      · obtain ⟨piece, text', rfl, hfree⟩ := List.eq_append_cons_of_mem hmem
        rw [List.mem_append, List.mem_cons, not_or, not_or] at htext
        obtain ⟨hpiece, _, htext'⟩ := htext
        rw [List.splitOn_append_cons_self_of_not_mem hfree] at hcalls ⊢
        obtain ⟨tokens, rest, prev', hrun, hstrings⟩ :=
          @ih (done ++ piece ++ [0]) text' none _ rfl htext' (Nat.succ_le_succ_iff.mp hcalls)
        have hbehind : done ++ piece ++ [0] ++ rest = done ++ (piece ++ 0 :: rest) := by simp
        refine ⟨some done.length :: tokens, piece ++ 0 :: rest, prev', ?_, ?_⟩
        · rw [List.append_assoc, List.cons_append, strtoks,
            strtok_cut hstr hpiece hfree hdelim, ← hbehind]
          simp only [Option.bind_eq_bind, Option.bind_some, hrun, Option.pure_def]
        · rw [hbehind] at hstrings
          rw [stringsAt, List.map_cons, ← stringsAt, hstrings, List.take_succ_cons,
            List.map_cons, Option.map_some, List.drop_left, chars_append hpiece]
      · -- the last piece, behind which there is no call
        rw [List.splitOn_eq_singleton hmem] at hcalls ⊢
        have hlast : calls = 0 := by
          rw [List.length_singleton] at hcalls
          omega
        subst hlast
        refine ⟨[some done.length], text ++ [0], none, ?_, ?_⟩
        · rw [strtoks, strtok_last hstr htext hmem hdelim]
          rfl
        · rw [stringsAt, List.map_singleton, Option.map_some, List.drop_left,
            chars_append htext]
          rfl

/-- A call more than there are pieces reads through `NULL`. -/
theorem strtoks_eq_none (hdelim : delim ≠ 0) (hstr : str.or prev = some done.length)
    (htext : 0 ∉ text) (hcalls : (text.splitOn delim).length < calls) :
    strtoks [delim, 0] str ⟨done ++ (text ++ [0]), prev⟩ calls = none := by
  induction calls generalizing done text str prev with
  | zero => exact absurd hcalls (Nat.not_lt_zero _)
  | succ calls ih =>
      by_cases hmem : delim ∈ text
      · obtain ⟨piece, text', rfl, hfree⟩ := List.eq_append_cons_of_mem hmem
        rw [List.mem_append, List.mem_cons, not_or, not_or] at htext
        obtain ⟨hpiece, _, htext'⟩ := htext
        rw [List.splitOn_append_cons_self_of_not_mem hfree] at hcalls
        have hrun := @ih (done ++ piece ++ [0]) text' none _ rfl htext'
          (Nat.succ_lt_succ_iff.mp hcalls)
        rw [List.append_assoc, List.cons_append, strtoks,
          strtok_cut hstr hpiece hfree hdelim]
        simp only [Option.bind_eq_bind, Option.bind_some, hrun, Option.bind_none]
      · rw [List.splitOn_eq_singleton hmem, List.length_singleton] at hcalls
        cases calls with
        | zero => exact absurd hcalls (Nat.lt_irrefl _)
        | succ calls =>
            rw [strtoks, strtok_last hstr htext hmem hdelim]
            simp only [Option.bind_eq_bind, Option.bind_some, strtoks, strtok_null,
              Option.bind_none]

end Pieces

/-- The calls return the pieces of the string exactly when there are at most as many of them
as pieces. -/
theorem splits_iff {text : List Byte} {delim : Byte} (htext : 0 ∉ text) (hdelim : delim ≠ 0)
    (prev : Option ℕ) (calls : ℕ) :
    Splits text delim prev calls ↔ calls ≤ (text.splitOn delim).length := by
  have hstart : (some 0).or prev = some ([] : List Byte).length := rfl
  constructor
  · rintro ⟨tokens, t, hrun, _⟩
    by_contra hmore
    have hnone := strtoks_eq_none hdelim hstart htext (Nat.lt_of_not_le hmore)
    rw [List.nil_append] at hnone
    exact absurd (hnone.symm.trans hrun) (by simp)
  · intro hcalls
    obtain ⟨tokens, rest, prev', hrun, hstrings⟩ := exists_strtoks hdelim hstart htext hcalls
    exact ⟨tokens, _, hrun, hstrings.trans (piecesFor_eq_take hcalls).symm⟩

/-- `a  b` has three pieces, of which the second one is empty. -/
example :
    strtoks [0x20, 0] (some 0) ⟨[0x61, 0x20, 0x20, 0x62, 0], none⟩ 3 =
      some ([some 0, some 2, some 3], ⟨[0x61, 0, 0, 0x62, 0], none⟩) := by
  rfl

theorem splits_sample :
    Splits [0x61, 0x20, 0x20, 0x62] 0x20 none 3 ↔
      3 ≤ ([0x61, 0x20, 0x20, 0x62].splitOn (0x20 : Byte)).length :=
  splits_iff (by decide) (by decide) none 3

/-- The command line `rand` has no argument, for which its server asks in a second call. -/
theorem not_splits :
    ¬∀ {text : List Byte} {delim : Byte}, 0 ∉ text → delim ≠ 0 →
      ∀ (prev : Option ℕ) (calls : ℕ), Splits text delim prev calls := by
  intro hsplits
  have htext : (0 : Byte) ∉ [0x72, 0x61, 0x6e, 0x64] := by decide
  obtain ⟨tokens, t, hrun, _⟩ := hsplits htext (by decide : (0x20 : Byte) ≠ 0) none 2
  have hnone : strtoks [0x20, 0] (some 0) ⟨[0x72, 0x61, 0x6e, 0x64] ++ [0], none⟩ 2 = none := rfl
  exact absurd (hnone.symm.trans hrun) (by simp)

end Rtk.CString
