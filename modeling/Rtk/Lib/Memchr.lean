import Rtk.Core.Search
import Rtk.Lib.CString

/-!
# Searching for a byte

`memchr` and `strchr` of `lib/string.c`.  The loop of `memchr` decrements its count before it
tests it, so that the last byte is never looked at, and a count of 0 is none at all.
-/

namespace Rtk.CString

open Rtk.ByteMemory
open Rtk.Search

/-- `memchr`, one round of its loop at a time: how far from `ptr` on the byte is that it
returns, or `NULL`. -/
def memchr (ptr : List Byte) (value : ℤ) (num : Word) : Option (Option ℕ) :=
  if num - 1 = 0 then some none
  else
    match ptr with
    | [] => none
    | char :: rest =>
        if char.toNat = value then some (some 0)
        else (memchr rest value (num - 1)).map (Option.map (· + 1))

def strchr (str : List Byte) (value : ℤ) : Option (Option ℕ) :=
  (strlen str).bind fun len => memchr str value (BitVec.ofNat 32 len)

/-- `memchr` returns the first of the `num` bytes that is `value`, and `NULL` when there is
none; it does so as well when no byte behind them can be read. -/
def MemchrFinds (ptr : List Byte) (value : Byte) (num : Word) : Prop :=
  let bytes := ptr.take num.toNat
  memchr bytes value.toNat num = some (bytes.idxOf? value) ∧
    memchr ptr value.toNat num = some (bytes.idxOf? value)

/-- `strchr` returns the first character of the string that is `value`, of which the terminator
is the last. -/
def StrchrFinds (text rest : List Byte) (value : Byte) : Prop :=
  strchr (text ++ 0 :: rest) value.toNat = some ((text ++ [0]).idxOf? value)

section Memchr

variable {ptr text : List Byte} {value : Byte} {num : Word}

/-- All but the last of the bytes are searched. -/
theorem memchr_of_le (value : Byte) (hptr : (num - 1).toNat ≤ ptr.length) :
    memchr ptr value.toNat num = some ((ptr.take (num - 1).toNat).idxOf? value) := by
  induction ptr generalizing num with
  | nil =>
      have hlast : num - 1 = 0 := BitVec.eq_of_toNat_eq (Nat.le_zero.mp hptr)
      rw [memchr, if_pos hlast, List.take_nil]
      rfl
  | cons char rest ih =>
      by_cases hlast : num - 1 = 0
      · rw [memchr, if_pos hlast, hlast]
        rfl
      · have hcount : (num - 1).toNat = (num - 1 - 1).toNat + 1 := by
          bv_omega
        rw [hcount, List.length_cons, Nat.succ_le_succ_iff] at hptr
        rw [memchr, if_neg hlast, ih hptr, hcount, List.take_succ_cons, List.idxOf?_cons]
        by_cases hchar : char = value
        · rw [hchar, if_pos rfl, if_pos (beq_self_eq_true value)]
        · have hne : (char.toNat : ℤ) ≠ value.toNat := by
            rw [ne_eq, Int.natCast_inj, BitVec.toNat_inj]
            exact hchar
          rw [if_neg hne, if_neg (by simpa using hchar)]
          rfl

/-- With a count of 0 the loop does not stop before a first byte. -/
theorem memchr_nil_zero (value : ℤ) : memchr [] value 0 = none := if_neg (by decide)

/-- The byte that the loop misses matters when it is the first that is searched for. -/
theorem memchrFinds_iff (hnum : num.toNat ≤ ptr.length) (value : Byte) :
    MemchrFinds ptr value num ↔
      num ≠ 0 ∧ (ptr[num.toNat - 1]? = some value → value ∈ ptr.take (num.toNat - 1)) := by
  by_cases hzero : num = 0
  · subst num
    refine iff_of_false ?_ fun h => h.1 rfl
    rintro ⟨hfinds, _⟩
    exact absurd (hfinds.symm.trans (memchr_nil_zero value.toNat)) (by simp)
  · have hcount : num.toNat = (num - 1).toNat + 1 := by
      bv_omega
    have hinside : (num - 1).toNat < ptr.length := by omega
    have htake : ptr.take num.toNat = ptr.take (num - 1).toNat ++ [ptr[(num - 1).toNat]] := by
      rw [hcount, List.take_succ_eq_append_getElem hinside]
    have hwhole := memchr_of_le value (Nat.le_of_lt hinside)
    have hbytes : memchr (ptr.take num.toNat) value.toNat num =
        some ((ptr.take (num - 1).toNat).idxOf? value) := by
      rw [memchr_of_le, List.take_take, Nat.min_eq_left (by omega)]
      rw [List.length_take]
      omega
    rw [MemchrFinds, hbytes, hwhole, and_self, Option.some.injEq, eq_comm, htake,
      idxOf?_concat_eq_iff, hcount, Nat.add_sub_cancel, List.getElem?_eq_getElem hinside,
      Option.some.injEq]
    exact (and_iff_right hzero).symm

/-- The terminator is what `memchr` misses of a string. -/
theorem strchr_eq (htext : 0 ∉ text) (hlength : text.length < 2 ^ 32) (rest : List Byte)
    (value : Byte) : strchr (text ++ 0 :: rest) value.toNat = some (text.idxOf? value) := by
  have hcount : (BitVec.ofNat 32 (text.length + 1) - 1).toNat = text.length := by
    rw [BitVec.toNat_sub, BitVec.toNat_ofNat]
    have hone : (1 : Word).toNat = 1 := rfl
    omega
  rw [strchr, strlen_append htext, Option.bind_some, memchr_of_le, hcount, List.take_left]
  rw [hcount, List.length_append]
  exact Nat.le_add_right _ _

theorem strchrFinds_iff (htext : 0 ∉ text) (hlength : text.length < 2 ^ 32) (rest : List Byte)
    (value : Byte) : StrchrFinds text rest value ↔ value ≠ 0 := by
  rw [StrchrFinds, strchr_eq htext hlength, Option.some.injEq, eq_comm, idxOf?_concat_eq_iff]
  constructor
  · rintro hmem rfl
    exact htext (hmem rfl)
  · exact fun hne hzero => absurd hzero.symm hne

end Memchr

/-- `memchr` is right exactly when it is to look at a byte and the last one is not the first that
is searched for, and `strchr` exactly when it is not the terminator that is. -/
theorem finds_iff {ptr text : List Byte} {num : Word} (hnum : num.toNat ≤ ptr.length)
    (htext : 0 ∉ text) (hlength : text.length < 2 ^ 32) (rest : List Byte) (value : Byte) :
    (MemchrFinds ptr value num ↔
      num ≠ 0 ∧ (ptr[num.toNat - 1]? = some value → value ∈ ptr.take (num.toNat - 1))) ∧
    (StrchrFinds text rest value ↔ value ≠ 0) :=
  ⟨memchrFinds_iff hnum value, strchrFinds_iff htext hlength rest value⟩

/-- The second of three bytes, and the second character of a string. -/
example :
    memchr [1, 2, 3] 2 3 = some (some 1) ∧ strchr ([1, 2] ++ 0 :: [2]) 2 = some (some 1) := by
  decide

theorem finds_sample : MemchrFinds [1, 2, 3] 2 3 ∧ StrchrFinds [1, 2] [] 2 := by
  obtain ⟨hmemchr, hstrchr⟩ :=
    @finds_iff [1, 2, 3] [1, 2] 3 (by decide) (by decide) (by decide) [] 2
  exact ⟨hmemchr.mpr ⟨by decide, by decide⟩, hstrchr.mpr (by decide)⟩

/-- A single byte is not found, and neither is the terminator of the empty string. -/
theorem not_finds :
    (¬∀ {ptr : List Byte} {num : Word}, num.toNat ≤ ptr.length →
      ∀ value, MemchrFinds ptr value num) ∧
    ¬∀ {text : List Byte}, 0 ∉ text → text.length < 2 ^ 32 →
      ∀ rest value, StrchrFinds text rest value := by
  constructor
  · intro hall
    have hfinds := (@hall [97] 1 (by decide) 97).2
    exact absurd hfinds (by decide)
  · intro hall
    have hfinds := @hall [] (by decide) (by decide) [] 0
    exact absurd hfinds (by decide : strchr [0] 0 ≠ some (some 0))

end Rtk.CString
