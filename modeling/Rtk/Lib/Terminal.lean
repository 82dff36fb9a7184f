import Rtk.Lib.Print

/-!
# Terminals

The strings of `lib/terminal.h` and the terminal that they are written for: rows of
unlimited width, on which a character overwrites the one under the cursor.
-/

namespace Rtk.Terminal

open Function
open Rtk.ByteMemory
open Rtk.Print

/-! ## `lib/terminal.h` -/

def termClear : List Byte := ascii ['\x1b', '[', '2', 'J']
def termMoveUpperLeft : List Byte := ascii ['\x1b', '[', 'H']
def termHideCursor : List Byte := ascii ['\x1b', '[', '?', '2', '5', 'l']
def termShowCursor : List Byte := ascii ['\x1b', '[', '?', '2', '5', 'h']

/-- `TERM_MOVE_N_LEFT` with its argument. -/
def termMoveNLeft (n : ℤ) : List Piece :=
  [.text (ascii ['\x1b', '[']), .d n, .text (ascii ['D'])]

def moveNLeft (n : ℤ) : List Byte := ascii ['\x1b', '['] ++ i2a n ++ ascii ['D']

theorem print_termMoveNLeft (n : ℤ) : print (termMoveNLeft n) = some (moveNLeft n) := by
  rw [moveNLeft, List.append_assoc]
  rfl

def termReset : List Byte := ascii ['\x1b', '[', '0', 'm']
def termRed : List Byte := ascii ['\x1b', '[', '3', '1', 'm']
def termGreen : List Byte := ascii ['\x1b', '[', '3', '2', 'm']
def termYellow : List Byte := ascii ['\x1b', '[', '3', '3', 'm']

/-! ## The terminal -/

/-- What the terminal has read of a control sequence. -/
inductive Control where
  | ground
  | escape
  | sequence (params : List Byte)
  deriving DecidableEq

/-- The characters on the screen and the cursor. -/
structure Screen where
  cell : ℕ → ℕ → Byte
  row : ℕ
  col : ℕ
  control : Control

def blank : Byte := 32

def Printable (byte : Byte) : Prop := 32 ≤ byte.toNat ∧ byte.toNat < 127

instance (byte : Byte) : Decidable (Printable byte) :=
  inferInstanceAs (Decidable (_ ∧ _))

/-- The last byte of a control sequence. -/
def Final (byte : Byte) : Prop := 64 ≤ byte.toNat ∧ byte.toNat < 127

instance (byte : Byte) : Decidable (Final byte) :=
  inferInstanceAs (Decidable (_ ∧ _))

namespace Screen

/-- Carry out a control sequence.  Colours and the look of the cursor are not kept. -/
def execute (t : Screen) (params : List Byte) (final : Byte) : Screen :=
  if final = 0x43 then { t with col := t.col + max 1 (decimalFrom 0 params) }
  else if final = 0x44 then { t with col := t.col - max 1 (decimalFrom 0 params) }
  else if final = 0x48 ∧ params = [] then { t with row := 0, col := 0 }
  else if final = 0x4a ∧ params = [0x32] then { t with cell := fun _ _ => blank }
  else t

def put (t : Screen) (byte : Byte) : Screen :=
  match t.control with
  | .ground =>
      if byte = 0x1b then { t with control := .escape }
      else if byte = 0x08 then { t with col := t.col - 1 }
      else if byte = 0x0d then { t with col := 0 }
      else if byte = 0x0a then { t with row := t.row + 1 }
      else if Printable byte then
        { t with
          cell := update t.cell t.row (update (t.cell t.row) t.col byte)
          col := t.col + 1 }
      else t
  | .escape =>
      { t with control := if byte = 0x5b then .sequence [] else .ground }
  | .sequence params =>
      if Final byte then { t with control := .ground }.execute params byte
      else { t with control := .sequence (params ++ [byte]) }

def puts (t : Screen) (bytes : List Byte) : Screen := bytes.foldl put t

/-! ## What the strings do -/

section Puts

variable {t : Screen} {params : List Byte} {byte : Byte}

theorem puts_append (t : Screen) (left right : List Byte) :
    t.puts (left ++ right) = (t.puts left).puts right := List.foldl_append

theorem puts_cons (t : Screen) (byte : Byte) (rest : List Byte) :
    t.puts (byte :: rest) = (t.put byte).puts rest := rfl

@[simp]
theorem puts_nil (t : Screen) : t.puts [] = t := rfl

/-- The parameters of a control sequence are collected. -/
theorem puts_params (hcontrol : t.control = .sequence params) {bytes : List Byte}
    (hbytes : ∀ byte ∈ bytes, ¬Final byte) :
    t.puts bytes = { t with control := .sequence (params ++ bytes) } := by
  induction bytes generalizing t params with
  | nil =>
      rw [puts_nil, List.append_nil, ← hcontrol]
  | cons byte bytes ih =>
      have hput : t.put byte = { t with control := .sequence (params ++ [byte]) } := by
        rw [put, hcontrol]
        exact if_neg (hbytes byte List.mem_cons_self)
      rw [puts_cons, hput, ih rfl fun _ hmem => hbytes _ (List.mem_cons_of_mem _ hmem)]
      simp

/-- A whole control sequence is carried out. -/
theorem puts_sequence (hcontrol : t.control = .ground)
    (hparams : ∀ byte ∈ params, ¬Final byte) (hfinal : Final byte) :
    t.puts (0x1b :: 0x5b :: (params ++ [byte])) = t.execute params byte := by
  have hescape : t.put 0x1b = { t with control := .escape } := by
    rw [put, hcontrol]
    rfl
  have hopen : ({ t with control := .escape } : Screen).put 0x5b =
      { t with control := .sequence [] } := rfl
  have hclose : ({ t with control := .sequence params } : Screen).put byte =
      { t with control := .ground }.execute params byte := if_pos hfinal
  rw [puts_cons, puts_cons, hescape, hopen, puts_append,
    @puts_params { t with control := .sequence [] } [] rfl params hparams, List.nil_append,
    puts_cons, hclose, ← hcontrol]
  rfl

/-- A control sequence that changes neither the characters nor the position. -/
theorem puts_ignored (hcontrol : t.control = .ground)
    (hparams : ∀ byte ∈ params, ¬Final byte) (hfinal : Final byte)
    (hignored : byte ≠ 0x43 ∧ byte ≠ 0x44 ∧ byte ≠ 0x48 ∧ byte ≠ 0x4a) :
    t.puts (0x1b :: 0x5b :: (params ++ [byte])) = t := by
  obtain ⟨hright, hleft, hhome, hclear⟩ := hignored
  rw [puts_sequence hcontrol hparams hfinal, execute, if_neg hright, if_neg hleft,
    if_neg fun h => hhome h.1, if_neg fun h => hclear h.1]

theorem puts_termReset (hcontrol : t.control = .ground) : t.puts termReset = t :=
  @puts_ignored t (ascii ['0']) 0x6d hcontrol (by decide) (by decide) (by decide)

theorem puts_termRed (hcontrol : t.control = .ground) : t.puts termRed = t :=
  @puts_ignored t (ascii ['3', '1']) 0x6d hcontrol (by decide) (by decide) (by decide)

theorem puts_termGreen (hcontrol : t.control = .ground) : t.puts termGreen = t :=
  @puts_ignored t (ascii ['3', '2']) 0x6d hcontrol (by decide) (by decide) (by decide)

theorem puts_termYellow (hcontrol : t.control = .ground) : t.puts termYellow = t :=
  @puts_ignored t (ascii ['3', '3']) 0x6d hcontrol (by decide) (by decide) (by decide)

theorem puts_termHideCursor (hcontrol : t.control = .ground) : t.puts termHideCursor = t :=
  @puts_ignored t (ascii ['?', '2', '5']) 0x6c hcontrol (by decide) (by decide) (by decide)

theorem puts_termShowCursor (hcontrol : t.control = .ground) : t.puts termShowCursor = t :=
  @puts_ignored t (ascii ['?', '2', '5']) 0x68 hcontrol (by decide) (by decide) (by decide)

theorem puts_termMoveUpperLeft (hcontrol : t.control = .ground) :
    t.puts termMoveUpperLeft = { t with row := 0, col := 0 } :=
  @puts_sequence t [] 0x48 hcontrol (by decide) (by decide)

theorem puts_termClear (hcontrol : t.control = .ground) :
    t.puts termClear = { t with cell := fun _ _ => blank } :=
  @puts_sequence t (ascii ['2']) 0x4a hcontrol (by decide) (by decide)

/-- The bytes that a terminal sends for the right arrow move its cursor. -/
theorem puts_right (hcontrol : t.control = .ground) :
    t.puts [0x1b, 0x5b, 0x43] = { t with col := t.col + 1 } :=
  @puts_sequence t [] 0x43 hcontrol (by decide) (by decide)

theorem puts_left (hcontrol : t.control = .ground) :
    t.puts [0x1b, 0x5b, 0x44] = { t with col := t.col - 1 } :=
  @puts_sequence t [] 0x44 hcontrol (by decide) (by decide)

theorem not_final_of_isDigit (h : IsDigit byte) : ¬Final byte := by
  rw [IsDigit] at h
  rw [Final]
  omega

theorem puts_moveNLeft (hcontrol : t.control = .ground) {n : ℕ} (hn : 0 < n) :
    t.puts (moveNLeft n) = { t with col := t.col - n } := by
  obtain ⟨hvalue, hdigits⟩ := ui2a_spec n
  have hbytes : moveNLeft n = 0x1b :: 0x5b :: (ui2a n ++ [0x44]) := by
    rw [moveNLeft, i2a, if_neg (by omega), Int.natAbs_natCast]
    rfl
  have hcount : max 1 (decimalFrom 0 (ui2a n)) = n := by
    rw [hvalue]
    omega
  rw [hbytes,
    puts_sequence hcontrol (fun byte hmem => not_final_of_isDigit (hdigits byte hmem)) (by decide),
    execute, if_neg (by decide), if_pos rfl, hcount]

theorem put_backspace (hcontrol : t.control = .ground) :
    t.put 0x08 = { t with col := t.col - 1 } := by
  rw [put, hcontrol]
  rfl

end Puts

/-! ## Characters -/

/-- A row on which a text is written from a column on. -/
def overwritten (row : ℕ → Byte) (col : ℕ) (text : List Byte) : ℕ → Byte := fun other =>
  if col ≤ other then (text[other - col]?).getD (row other) else row other

def write (t : Screen) (text : List Byte) : Screen :=
  { t with
    cell := update t.cell t.row (overwritten (t.cell t.row) t.col text)
    col := t.col + text.length }

section Write

variable {t : Screen} {text : List Byte}

theorem overwritten_nil (row : ℕ → Byte) (col : ℕ) : overwritten row col [] = row := by
  funext other
  rw [overwritten]
  split_ifs <;> rfl

theorem overwritten_cons (row : ℕ → Byte) (col : ℕ) (byte : Byte) (text : List Byte) :
    overwritten (update row col byte) (col + 1) text = overwritten row col (byte :: text) := by
  funext other
  rw [overwritten, overwritten]
  by_cases hbehind : col + 1 ≤ other
  · have hindex : other - col = other - (col + 1) + 1 := by omega
    rw [if_pos hbehind, if_pos (by omega), update_of_ne (by omega), hindex,
      List.getElem?_cons_succ]
  · rw [if_neg hbehind]
    by_cases hat : other = col
    · rw [hat, update_self, if_pos (Nat.le_refl _), Nat.sub_self]
      rfl
    · rw [update_of_ne hat, if_neg (by omega)]

/-- Characters are written where the cursor stands. -/
theorem puts_printable (hcontrol : t.control = .ground)
    (htext : ∀ byte ∈ text, Printable byte) : t.puts text = t.write text := by
  induction text generalizing t with
  | nil => rw [puts_nil, write, overwritten_nil, update_eq_self, List.length_nil, Nat.add_zero]
  | cons byte text ih =>
      have hbyte := htext byte List.mem_cons_self
      have hput : t.put byte =
          { t with
            cell := update t.cell t.row (update (t.cell t.row) t.col byte)
            col := t.col + 1 } := by
        have hne : byte ≠ 0x1b ∧ byte ≠ 0x08 ∧ byte ≠ 0x0d ∧ byte ≠ 0x0a := by
          refine ⟨?_, ?_, ?_, ?_⟩ <;>
            rintro rfl <;> exact absurd hbyte (by decide)
        rw [put, hcontrol]
        simp only [hne.1, hne.2.1, hne.2.2.1, hne.2.2.2, hbyte, if_false, if_true]
      have hrest := @ih (t.put byte) (hput ▸ hcontrol) fun other hmem =>
        htext other (List.mem_cons_of_mem _ hmem)
      rw [puts_cons, hrest, hput, write, write]
      simp only [update_self, update_idem, overwritten_cons, List.length_cons]
      rw [Nat.add_assoc, Nat.add_comm 1]

@[simp]
theorem row_write (t : Screen) (text : List Byte) : (t.write text).row = t.row := rfl

@[simp]
theorem control_write (t : Screen) (text : List Byte) :
    (t.write text).control = t.control := rfl

@[simp]
theorem col_write (t : Screen) (text : List Byte) :
    (t.write text).col = t.col + text.length := rfl

theorem cell_write_row (t : Screen) (text : List Byte) :
    (t.write text).cell t.row = overwritten (t.cell t.row) t.col text := update_self _ _ _

/-- The row of the cursor, from the cursor on. -/
theorem cell_write (t : Screen) (text : List Byte) (index : ℕ) :
    (t.write text).cell t.row (t.col + index) =
      (text[index]?).getD (t.cell t.row (t.col + index)) := by
  rw [cell_write_row, overwritten, if_pos (Nat.le_add_right _ _), Nat.add_sub_cancel_left]

/-- In front of the cursor nothing is written. -/
theorem cell_write_of_lt {index : ℕ} (hindex : index < t.col) :
    (t.write text).cell t.row index = t.cell t.row index := by
  rw [cell_write_row, overwritten, if_neg (by omega)]

/-- From the column on the row shows the text, and is blank behind it. -/
def Spans (t : Screen) (row col : ℕ) (text : List Byte) : Prop :=
  ∀ index, t.cell row (col + index) = (text[index]?).getD blank

/-- What is written at the cursor replaces a text that is not longer. -/
theorem Spans.write {col : ℕ} {before old : List Byte}
    (h : t.Spans t.row col (before ++ old)) (hcol : t.col = col + before.length)
    (hlength : old.length ≤ text.length) :
    (t.write text).Spans t.row col (before ++ text) := by
  intro index
  by_cases hbefore : index < before.length
  · rw [cell_write_of_lt (by omega), h, List.getElem?_append_left hbefore,
      List.getElem?_append_left hbefore]
  · obtain ⟨offset, rfl⟩ := Nat.exists_eq_add_of_le (Nat.le_of_not_lt hbefore)
    have hat : col + (before.length + offset) = t.col + offset := by
      rw [hcol, Nat.add_assoc]
    have hold := h (before.length + offset)
    rw [hat, List.getElem?_append_right (Nat.le_add_right _ _), Nat.add_sub_cancel_left] at hold
    rw [hat, cell_write, hold, List.getElem?_append_right (Nat.le_add_right _ _),
      Nat.add_sub_cancel_left]
    by_cases hinside : offset < text.length
    · rw [List.getElem?_eq_getElem hinside]
      rfl
    · rw [List.getElem?_eq_none (Nat.le_of_not_lt hinside),
        List.getElem?_eq_none (Nat.le_trans hlength (Nat.le_of_not_lt hinside))]
      rfl

/-- A blank at the end cannot be seen. -/
theorem Spans.of_append_blank {row col : ℕ} (h : t.Spans row col (text ++ [blank])) :
    t.Spans row col text := by
  intro index
  rw [h index]
  by_cases hinside : index < text.length
  · rw [List.getElem?_append_left hinside]
  · rw [List.getElem?_append_right (Nat.le_of_not_lt hinside),
      List.getElem?_eq_none (Nat.le_of_not_lt hinside), List.getElem?_singleton]
    split_ifs <;> rfl

theorem overwritten_append (row : ℕ → Byte) (col : ℕ) (text rest : List Byte) :
    overwritten (overwritten row col text) (col + text.length) rest =
      overwritten row col (text ++ rest) := by
  induction text generalizing row col with
  | nil => rw [overwritten_nil, List.length_nil, Nat.add_zero, List.nil_append]
  | cons byte text ih =>
      have hnext : col + (byte :: text).length = col + 1 + text.length := by
        rw [List.length_cons]
        omega
      rw [← overwritten_cons, hnext, ih, overwritten_cons, List.cons_append]

theorem write_write (t : Screen) (text rest : List Byte) :
    (t.write text).write rest = t.write (text ++ rest) := by
  rw [write, write, write]
  simp only [update_self, update_idem, overwritten_append, List.length_append, Nat.add_assoc]

theorem write_nil (t : Screen) : t.write [] = t := by
  rw [write, overwritten_nil, update_eq_self, List.length_nil, Nat.add_zero]

/-- The bytes write the text that can be seen of them. -/
def Writes (bytes visible : List Byte) : Prop :=
  ∀ t : Screen, t.control = .ground → t.puts bytes = t.write visible

theorem Writes.append {bytes bytes' visible visible' : List Byte} (h : Writes bytes visible)
    (h' : Writes bytes' visible') : Writes (bytes ++ bytes') (visible ++ visible') := by
  intro t hcontrol
  rw [puts_append, h t hcontrol, h' (t.write visible) hcontrol, write_write]

theorem writes_printable (htext : ∀ byte ∈ text, Printable byte) : Writes text text :=
  fun _ hcontrol => puts_printable hcontrol htext

theorem writes_nil {bytes : List Byte}
    (hbytes : ∀ t : Screen, t.control = .ground → t.puts bytes = t) : Writes bytes [] := by
  intro t hcontrol
  rw [hbytes t hcontrol, write_nil]

/-- From the cursor on its row is blank. -/
def BlankAhead (t : Screen) : Prop := ∀ col, t.col ≤ col → t.cell t.row col = blank

theorem BlankAhead.write (h : t.BlankAhead) (text : List Byte) :
    (t.write text).BlankAhead := by
  intro col hcol
  rw [col_write] at hcol
  obtain ⟨index, rfl⟩ := Nat.exists_eq_add_of_le (show t.col ≤ col by omega)
  rw [row_write, cell_write, List.getElem?_eq_none (by omega)]
  exact h _ (by omega)

end Write

end Screen

end Rtk.Terminal
