import Mathlib.Data.List.Basic
import Rtk.Core.ByteMemory

/-!
# Objects of bytes

An object is the list of its bytes, and a pointer into it is an offset.  A load or a
store outside the object is `none`, so that a computation with a result has kept to it.
-/

namespace Rtk.ByteObject

open Rtk.ByteMemory

def load (object : List Byte) (offset : ℕ) : Option Byte := object[offset]?

def store (object : List Byte) (offset : ℕ) (byte : Byte) : Option (List Byte) :=
  if offset < object.length then some (object.set offset byte) else none

def copy (object : List Byte) (dest src : ℕ) : Option (List Byte) :=
  (load object src).bind (store object dest)

/-- An integer as an offset.  A negative one designates nothing in the object. -/
def offset (index : ℤ) : Option ℕ := if 0 ≤ index then some index.toNat else none

/-- `moved` is the object after the `num` bytes from `src` on were copied to `dest`, as
if by way of a second object. -/
structure Moved (object : List Byte) (dest src num : ℕ) (moved : List Byte) : Prop where
  length : moved.length = object.length
  inside : ∀ index < num, moved[dest + index]? = object[src + index]?
  outside : ∀ index, index < dest ∨ dest + num ≤ index → moved[index]? = object[index]?

section Accesses

variable {object object' moved : List Byte} {dest src num index : ℕ} {byte : Byte}

@[simp]
theorem offset_natCast (index : ℕ) : offset index = some index := by
  rw [offset, if_pos (Int.natCast_nonneg index), Int.toNat_natCast]

theorem store_of_lt (hindex : index < object.length) (byte : Byte) :
    store object index byte = some (object.set index byte) := if_pos hindex

/-- What a store changes. -/
theorem getElem?_of_store (hstore : store object index byte = some object') (other : ℕ) :
    object'[other]? = if other = index then some byte else object[other]? := by
  rw [store, Option.ite_none_right_eq_some, Option.some.injEq] at hstore
  obtain ⟨hindex, rfl⟩ := hstore
  rw [List.getElem?_set]
  by_cases hother : index = other
  · rw [if_pos hother, if_pos (hother ▸ hindex), if_pos hother.symm]
  · rw [if_neg hother, if_neg (Ne.symm hother)]

theorem length_of_store (hstore : store object index byte = some object') :
    object'.length = object.length := by
  rw [store, Option.ite_none_right_eq_some, Option.some.injEq] at hstore
  rw [← hstore.2, List.length_set]

theorem exists_copy (hdest : dest < object.length) (hsrc : src < object.length) :
    ∃ object', copy object dest src = some object' ∧ object'.length = object.length ∧
      ∀ index, object'[index]? = if index = dest then object[src]? else object[index]? := by
  have hstore := store_of_lt hdest object[src]
  refine ⟨_, ?_, length_of_store hstore, ?_⟩
  · rw [copy, load, List.getElem?_eq_getElem hsrc, Option.bind_some]
    exact hstore
  · intro index
    rw [getElem?_of_store hstore, List.getElem?_eq_getElem hsrc]

theorem Moved.refl (object : List Byte) (dest src : ℕ) : Moved object dest src 0 object where
  length := rfl
  inside := by
    intro index hindex
    omega
  outside _ _ := rfl

/-- A block that is copied to itself. -/
theorem Moved.self (object : List Byte) (dest num : ℕ) : Moved object dest dest num object where
  length := rfl
  inside _ _ := rfl
  outside _ _ := rfl

/-- The first byte is copied before the others, which it does not hit. -/
theorem Moved.ascend (hlength : object'.length = object.length)
    (hfirst : ∀ index, object'[index]? = if index = dest then object[src]? else object[index]?)
    (h : Moved object' (dest + 1) (src + 1) num moved)
    (hapart : ¬(src < dest ∧ dest < src + (num + 1))) :
    Moved object dest src (num + 1) moved where
  length := h.length.trans hlength
  inside := by
    intro index hindex
    cases index with
    | zero => rw [h.outside _ (by omega), hfirst, if_pos (by omega), Nat.add_zero]
    | succ index =>
        have hmoved := h.inside index (by omega)
        have hdest : dest + 1 + index = dest + (index + 1) := by omega
        have hsrc : src + 1 + index = src + (index + 1) := by omega
        rw [hdest, hsrc, hfirst, if_neg (by omega)] at hmoved
        exact hmoved
  outside := by
    intro index hindex
    rw [h.outside index (by omega), hfirst, if_neg (by omega)]

/-- The last byte is copied before the others, which it does not hit. -/
theorem Moved.descend (hlength : object'.length = object.length)
    (hlast : ∀ index, object'[index]? =
      if index = dest + num then object[src + num]? else object[index]?)
    (h : Moved object' dest src num moved) (hapart : src < dest) :
    Moved object dest src (num + 1) moved where
  length := h.length.trans hlength
  inside := by
    intro index hindex
    by_cases hend : index = num
    · rw [hend, h.outside _ (by omega), hlast, if_pos rfl]
    · rw [h.inside index (by omega), hlast, if_neg (by omega)]
  outside := by
    intro index hindex
    rw [h.outside index (by omega), hlast, if_neg (by omega)]

end Accesses

end Rtk.ByteObject
