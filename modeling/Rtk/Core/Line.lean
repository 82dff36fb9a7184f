import Mathlib.Data.List.Basic
import Mathlib.Tactic.TypeStar

/-!
# A line of text with a cursor

The text of a line editor: at most `capacity` characters and a cursor between two of
them, in front of the first or behind the last.
-/

namespace Rtk

/-- A text of at most `capacity` characters with a cursor. -/
structure Line (A : Type*) (capacity : ℕ) where
  text : List A
  cursor : ℕ
  cursor_le : cursor ≤ text.length
  length_le : text.length ≤ capacity

namespace Line

variable {A : Type*} {capacity : ℕ}

def empty : Line A capacity := ⟨[], 0, Nat.le_refl 0, Nat.zero_le capacity⟩

def insert (line : Line A capacity) (a : A) : Line A capacity :=
  if h : line.text.length < capacity then
    { text := line.text.take line.cursor ++ a :: line.text.drop line.cursor
      cursor := line.cursor + 1
      cursor_le := by
        have := line.cursor_le
        simp only [List.length_append, List.length_take, List.length_cons, List.length_drop]
        omega
      length_le := by
        simp only [List.length_append, List.length_take, List.length_cons, List.length_drop]
        omega }
  else line

def delete (line : Line A capacity) : Line A capacity :=
  if h : 0 < line.cursor then
    { text := line.text.take (line.cursor - 1) ++ line.text.drop line.cursor
      cursor := line.cursor - 1
      cursor_le := by
        have := line.cursor_le
        simp only [List.length_append, List.length_take, List.length_drop]
        omega
      length_le := by
        have := line.length_le
        simp only [List.length_append, List.length_take, List.length_drop]
        omega }
  else line

def right (line : Line A capacity) : Line A capacity :=
  if h : line.cursor < line.text.length then
    { line with cursor := line.cursor + 1, cursor_le := h }
  else line

def left (line : Line A capacity) : Line A capacity :=
  { line with
    cursor := line.cursor - 1
    cursor_le := Nat.le_trans (Nat.sub_le _ _) line.cursor_le }

section Edits

variable {line : Line A capacity}

theorem insert_of_full (h : line.text.length = capacity) (a : A) : line.insert a = line :=
  dif_neg (by omega)

theorem text_insert (h : line.text.length < capacity) (a : A) :
    (line.insert a).text = line.text.take line.cursor ++ a :: line.text.drop line.cursor := by
  rw [insert, dif_pos h]

theorem cursor_insert (h : line.text.length < capacity) (a : A) :
    (line.insert a).cursor = line.cursor + 1 := by
  rw [insert, dif_pos h]

theorem length_insert (h : line.text.length < capacity) (a : A) :
    (line.insert a).text.length = line.text.length + 1 := by
  rw [text_insert h]
  simp only [List.length_append, List.length_take, List.length_cons, List.length_drop]
  omega

theorem getElem?_insert (h : line.text.length < capacity) (a : A) (index : ℕ) :
    (line.insert a).text[index]? =
      if index < line.cursor then line.text[index]?
      else if index = line.cursor then some a
      else line.text[index - 1]? := by
  have hle := line.cursor_le
  have htake : (line.text.take line.cursor).length = line.cursor := by
    rw [List.length_take, Nat.min_eq_left hle]
  rw [text_insert h, List.getElem?_append, htake]
  split_ifs with hbefore hat
  · rw [List.getElem?_take_of_lt hbefore]
  · rw [hat, Nat.sub_self]
    rfl
  · have hshift : index - line.cursor = index - 1 - line.cursor + 1 := by omega
    rw [hshift, List.getElem?_cons_succ, List.getElem?_drop]
    congr 1
    omega

theorem delete_of_zero (h : line.cursor = 0) : line.delete = line := dif_neg (by omega)

theorem text_delete (h : 0 < line.cursor) :
    line.delete.text = line.text.take (line.cursor - 1) ++ line.text.drop line.cursor := by
  rw [delete, dif_pos h]

theorem cursor_delete (h : 0 < line.cursor) : line.delete.cursor = line.cursor - 1 := by
  rw [delete, dif_pos h]

theorem length_delete (h : 0 < line.cursor) :
    line.delete.text.length = line.text.length - 1 := by
  have := line.cursor_le
  rw [text_delete h]
  simp only [List.length_append, List.length_take, List.length_drop]
  omega

theorem getElem?_delete (h : 0 < line.cursor) (index : ℕ) :
    line.delete.text[index]? =
      if index < line.cursor - 1 then line.text[index]? else line.text[index + 1]? := by
  have hle := line.cursor_le
  have htake : (line.text.take (line.cursor - 1)).length = line.cursor - 1 := by
    rw [List.length_take]
    omega
  rw [text_delete h, List.getElem?_append, htake]
  split_ifs with hbefore
  · rw [List.getElem?_take_of_lt hbefore]
  · rw [List.getElem?_drop]
    congr 1
    omega

theorem right_of_end (h : line.cursor = line.text.length) : line.right = line :=
  dif_neg (by omega)

@[simp]
theorem text_right (line : Line A capacity) : line.right.text = line.text := by
  rw [right]
  split_ifs <;> rfl

theorem cursor_right (h : line.cursor < line.text.length) :
    line.right.cursor = line.cursor + 1 := by
  rw [right, dif_pos h]

@[simp]
theorem text_left (line : Line A capacity) : line.left.text = line.text := rfl

@[simp]
theorem cursor_left (line : Line A capacity) : line.left.cursor = line.cursor - 1 := rfl

theorem left_of_zero (h : line.cursor = 0) : line.left = line := by
  cases line with
  | mk text cursor cursor_le length_le =>
      have hzero : cursor = 0 := h
      subst hzero
      rfl

end Edits

end Line

end Rtk
