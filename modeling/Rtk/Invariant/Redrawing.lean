import Rtk.Invariant.LineBuffer

/-!
# What a key shows

The shell redraws its line with control sequences.  What it prints for a key changes the
row of the prompt as the key edits the line.
-/

namespace Rtk.Shell

open Rtk.ByteMemory
open Rtk.Print
open Rtk.Terminal

def cursorOf (t : Screen) : ℕ × ℕ := (t.row, t.col)

section Redrawing

variable {config : ShellConfig} {t : Screen} {line : Line Byte config.capacity}
  {origin : ℕ × ℕ}

/-! ## The prompt -/

theorem printable_of_isDigit {byte : Byte} (h : IsDigit byte) : Printable byte := by
  rw [IsDigit] at h
  rw [Printable]
  omega

theorem printable_i2a (num : ℤ) : ∀ byte ∈ i2a num, Printable byte := by
  have hdigits : ∀ byte ∈ ui2a num.natAbs, Printable byte := fun byte hmem =>
    printable_of_isDigit ((ui2a_spec _).2 byte hmem)
  rw [i2a]
  split_ifs
  · intro byte hmem
    rcases List.mem_append.mp hmem with hminus | hdigit
    · rw [List.mem_singleton.mp hminus]
      decide
    · exact hdigits byte hdigit
  · exact hdigits

/-- What can be seen of the prompt. -/
theorem exists_writes_prompt (hprompt : ∀ byte ∈ config.prompt, Printable byte) (ret : ℤ) :
    ∃ visible, Screen.Writes (prompt config ret) visible := by
  have hcolour : Screen.Writes (if ret = 0 then termGreen else termRed) [] := by
    apply Screen.writes_nil
    intro t hcontrol
    split_ifs
    · exact Screen.puts_termGreen hcontrol
    · exact Screen.puts_termRed hcontrol
  have hyellow := Screen.writes_nil fun t => @Screen.puts_termYellow t
  have hreset := Screen.writes_nil fun t => @Screen.puts_termReset t
  have hopen : Screen.Writes (ascii ['(']) (ascii ['(']) :=
    Screen.writes_printable (by decide)
  have hclose : Screen.Writes (ascii [')', ' ']) (ascii [')', ' ']) :=
    Screen.writes_printable (by decide)
  have hcode : ∃ visible, Screen.Writes
      (if ret ≠ 0 then ascii ['('] ++ termYellow ++ i2a ret ++ termReset ++ ascii [')', ' ']
        else []) visible := by
    split_ifs
    · exact ⟨_, (((hopen.append hyellow).append
        (Screen.writes_printable (printable_i2a ret))).append hreset).append hclose⟩
    · exact ⟨[], Screen.writes_nil fun t _ => t.puts_nil⟩
  obtain ⟨visible, hvisible⟩ := hcode
  exact ⟨_, ((hvisible.append hcolour).append (Screen.writes_printable hprompt)).append hreset⟩

/-! ## What a key shows -/

/-- The terminal shows the line from the place on. -/
structure Shows (origin : ℕ × ℕ) (line : Line Byte config.capacity) (t : Screen) : Prop where
  control : t.control = .ground
  row : t.row = origin.1
  col : t.col = origin.2 + line.cursor
  text : t.Spans origin.1 origin.2 line.text

/-- A character is written in front of the text behind the cursor, which is written once
more. -/
theorem Shows.insert (h : Shows origin line t) (hroom : line.text.length < config.capacity)
    {ch : Byte} (hch : Printable ch) (htext : ∀ byte ∈ line.text, Printable byte) :
    Shows origin (line.insert ch)
      (t.puts (ch :: redrawn line (line.text.drop line.cursor))) := by
  have hle := line.cursor_le
  have hwritten : ∀ byte ∈ ch :: line.text.drop line.cursor, Printable byte := by
    intro byte hmem
    rcases List.mem_cons.mp hmem with rfl | hmem
    · exact hch
    · exact htext byte (List.mem_of_mem_drop hmem)
  -- the terminal is left behind the character
  have hscreen : t.puts (ch :: redrawn line (line.text.drop line.cursor)) =
      { t.write (ch :: line.text.drop line.cursor) with col := t.col + 1 } := by
    rw [redrawn]
    split_ifs with hmiddle
    · rw [← List.cons_append, Screen.puts_append, Screen.puts_printable h.control hwritten,
        @Screen.puts_moveNLeft (t.write (ch :: line.text.drop line.cursor)) h.control
          (line.text.length - line.cursor) (by omega)]
      simp only [Screen.col_write, List.length_cons, List.length_drop]
      congr 1
      omega
    · have hnone : line.text.drop line.cursor = [] := List.drop_of_length_le (by omega)
      rw [hnone] at hwritten ⊢
      rw [Screen.puts_printable h.control hwritten]
      rfl
  rw [hscreen]
  refine ⟨h.control, h.row, ?_, ?_⟩
  · rw [Line.cursor_insert hroom]
    show t.col + 1 = _
    rw [h.col]
    omega
  · have hsplit : t.Spans t.row origin.2
        (line.text.take line.cursor ++ line.text.drop line.cursor) := by
      rw [List.take_append_drop, h.row]
      exact h.text
    rw [Line.text_insert hroom, ← h.row]
    apply hsplit.write
    · rw [h.col, List.length_take, Nat.min_eq_left hle]
    · exact Nat.le_succ _

/-- The text behind the cursor is written once more, one place to the left, with a blank
behind it. -/
theorem Shows.delete (h : Shows origin line t) (hcursor : 0 < line.cursor)
    (htext : ∀ byte ∈ line.text, Printable byte) :
    Shows origin line.delete
      (t.puts (ascii ['\x08'] ++ line.text.drop line.cursor ++ ascii [' '] ++
        moveNLeft (line.text.length - line.cursor + 1 : ℕ))) := by
  have hle := line.cursor_le
  have hwritten : ∀ byte ∈ line.text.drop line.cursor ++ ascii [' '], Printable byte := by
    intro byte hmem
    rcases List.mem_append.mp hmem with hmem | hmem
    · exact htext byte (List.mem_of_mem_drop hmem)
    · rw [List.mem_singleton.mp hmem]
      decide
  have hback : t.puts (ascii ['\x08']) = { t with col := t.col - 1 } :=
    Screen.put_backspace h.control
  generalize hleft : ({ t with col := t.col - 1 } : Screen) = left at hback
  have hcontrol : left.control = .ground := hleft ▸ h.control
  have hcol : left.col = origin.2 + (line.cursor - 1) := by
    rw [← hleft]
    show t.col - 1 = _
    rw [h.col]
    omega
  have hrow : left.row = origin.1 := hleft ▸ h.row
  -- the terminal is left where the character was
  have hscreen : t.puts (ascii ['\x08'] ++ line.text.drop line.cursor ++ ascii [' '] ++
        moveNLeft (line.text.length - line.cursor + 1 : ℕ)) =
      { left.write (line.text.drop line.cursor ++ ascii [' ']) with col := left.col } := by
    rw [List.append_assoc (ascii ['\x08']), Screen.puts_append, Screen.puts_append, hback,
      Screen.puts_printable hcontrol hwritten,
      @Screen.puts_moveNLeft (left.write (line.text.drop line.cursor ++ ascii [' '])) hcontrol
        (line.text.length - line.cursor + 1) (by omega)]
    simp only [Screen.col_write, List.length_append, List.length_drop]
    congr 1
    rw [ascii, List.map_singleton, List.length_singleton]
    omega
  rw [hscreen]
  refine ⟨hcontrol, hrow, ?_, ?_⟩
  · rw [Line.cursor_delete hcursor]
    exact hcol
  · have hsplit : left.Spans left.row origin.2
        (line.text.take (line.cursor - 1) ++ line.text.drop (line.cursor - 1)) := by
      rw [List.take_append_drop, hrow, ← hleft]
      exact h.text
    rw [Line.text_delete hcursor, ← hrow]
    apply Screen.Spans.of_append_blank
    rw [List.append_assoc]
    apply hsplit.write
    · rw [hcol, List.length_take, Nat.min_eq_left (by omega)]
    · rw [List.length_append, List.length_drop, List.length_drop, ascii, List.map_singleton,
        List.length_singleton]
      omega

/-- An arrow key moves the cursor of the terminal with that of the line. -/
theorem Shows.arrow (h : Shows origin line t) (dir : Byte) :
    Shows origin ((Key.arrow dir).edit line) (t.puts (arrowShown line dir)) := by
  have hle := line.cursor_le
  rw [arrowShown, Key.edit]
  by_cases hc : dir = 0x43
  · have hnot : dir ≠ 0x44 := hc.trans_ne (by decide)
    simp only [hnot, false_and, if_false]
    rw [if_pos hc]
    by_cases hinside : line.cursor < line.text.length
    · rw [if_pos ⟨hc, hinside⟩, Screen.puts_right h.control]
      refine ⟨h.control, h.row, ?_, ?_⟩
      · rw [Line.cursor_right hinside]
        show t.col + 1 = _
        rw [h.col, Nat.add_assoc]
      · rw [Line.text_right]
        exact h.text
    · simp only [hinside, and_false, if_false]
      rw [Line.right_of_end (by omega)]
      exact h
  · simp only [hc, false_and, if_false]
    by_cases hd : dir = 0x44
    · rw [if_pos hd]
      by_cases hinside : 0 < line.cursor
      · rw [if_pos ⟨hd, hinside⟩, Screen.puts_left h.control]
        refine ⟨h.control, h.row, ?_, h.text⟩
        show t.col - 1 = origin.2 + (line.cursor - 1)
        rw [h.col]
        omega
      · simp only [hinside, and_false, if_false]
        rw [Line.left_of_zero (by omega)]
        exact h
    · simp only [hd, false_and, if_false]
      exact h

/-- The look of the cursor changes nothing else. -/
theorem Shows.look (h : Shows origin line t) (line' : Line Byte config.capacity) :
    Shows origin line (t.puts (cursorLook config line')) := by
  rw [cursorLook]
  split_ifs
  · rw [Screen.puts_termHideCursor h.control]
    exact h
  · rw [Screen.puts_termShowCursor h.control]
    exact h

/-- What a form feed shows is the prompt alone. -/
theorem exists_puts_formFeed (hcontrol : t.control = .ground)
    (hprompt : ∀ byte ∈ config.prompt, Printable byte) (ret : ℤ) :
    ∃ t' : Screen, t.puts (termMoveUpperLeft ++ termClear ++ termReset ++ prompt config ret) = t' ∧
      t'.control = .ground ∧ t'.BlankAhead := by
  obtain ⟨visible, hvisible⟩ := @exists_writes_prompt config hprompt ret
  generalize hcleared : ({ cell := fun _ _ => blank, row := 0, col := 0, control := .ground } :
    Screen) = cleared
  have hground : cleared.control = .ground := hcleared ▸ rfl
  have hblank : cleared.BlankAhead := by
    rw [← hcleared]
    exact fun _ _ => rfl
  have hclear : ({ t with row := 0, col := 0 } : Screen).puts termClear = cleared := by
    rw [Screen.puts_termClear, hcontrol, hcleared]
    exact hcontrol
  refine ⟨cleared.write visible, ?_, hground, hblank.write visible⟩
  rw [Screen.puts_append, Screen.puts_append, Screen.puts_append,
    Screen.puts_termMoveUpperLeft hcontrol, hclear, Screen.puts_termReset hground,
    hvisible cleared hground]

/-- Behind a prompt on an empty row, the terminal shows the lines that are blank. -/
theorem shows_cursorOf_iff (hcontrol : t.control = .ground) (hblank : t.BlankAhead) :
    Shows (cursorOf t) line t ↔
      line.cursor = 0 ∧ ∀ index < line.text.length, line.text[index]? = some blank := by
  constructor
  · intro hshows
    constructor
    · have hcol := hshows.col
      rw [cursorOf] at hcol
      omega
    · intro index hindex
      have hcell := hshows.text index
      rw [cursorOf, hblank _ (Nat.le_add_right _ _), List.getElem?_eq_getElem hindex] at hcell
      rw [List.getElem?_eq_getElem hindex, hcell]
      rfl
  · rintro ⟨hcursor, htext⟩
    refine ⟨hcontrol, rfl, ?_, ?_⟩
    · rw [hcursor]
      rfl
    · intro index
      rw [cursorOf, hblank _ (Nat.le_add_right _ _)]
      by_cases hindex : index < line.text.length
      · rw [htext index hindex]
        rfl
      · rw [List.getElem?_eq_none (by omega)]
        rfl

end Redrawing

end Rtk.Shell
