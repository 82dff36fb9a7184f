import Rtk.Core.Line
import Rtk.Usr.Shell

/-!
# What a key does to the buffer of the shell

`Repl` keeps its line in an array with two indices.  Each of its keys is compared with an
operation on a line with a cursor.
-/

namespace Rtk.Shell

open Rtk.ByteMemory
open Rtk.ByteObject
open Rtk.CString
open Rtk.Print
open Rtk.Terminal

/-! ## The reference editor -/

/-- The most characters that the buffer holds with a terminator. -/
def ShellConfig.capacity (config : ShellConfig) : ℕ := (config.commandBufferSize - 1).toNat

theorem ShellConfig.capacity_eq {config : ShellConfig} (hsize : 1 ≤ config.commandBufferSize) :
    (config.capacity : ℤ) = config.commandBufferSize - 1 := by
  rw [capacity]
  omega

def Key.edit {capacity : ℕ} (line : Line Byte capacity) : Key → Line Byte capacity
  | char ch => line.insert ch.val
  | backspace => line.delete
  | arrow dir => if dir = 0x43 then line.right else if dir = 0x44 then line.left else line
  | formFeed => line
  | enter _ => .empty

/-- The buffer and the indices are those of the line. -/
structure Holds (config : ShellConfig) (r : Repl) (line : Line Byte config.capacity) :
    Prop where
  size : (r.buffer.length : ℤ) = config.commandBufferSize
  pos : r.bufferPos = line.cursor
  length : r.length = line.text.length
  text : ∀ index < line.text.length, r.buffer[index]? = line.text[index]?

/-- So they are, and behind the text there is a terminator. -/
structure Simulates (config : ShellConfig) (r : Repl) (line : Line Byte config.capacity) :
    Prop extends Holds config r line where
  terminator : line.text ≠ [] → r.buffer[line.text.length]? = some 0

section Keys

variable {config : ShellConfig} {answer : Answer} {r r' : Repl}
  {line line' : Line Byte config.capacity} {ch dir : Byte} {printed : List Byte}

theorem typed_singleton (r : Repl) (ch : Byte) :
    r.typed config answer [ch] = r.getc config answer ch := by
  cases hgetc : r.getc config answer ch with
  | none => simp [Repl.typed, hgetc]
  | some result => simp [Repl.typed, hgetc, Effect.append]

/-- A character for which the shell prints nothing. -/
theorem typed_cons (hgetc : r.getc config answer ch = some (⟨[], []⟩, r'))
    (rest : List Byte) : r.typed config answer (ch :: rest) = r'.typed config answer rest := by
  cases hrest : r'.typed config answer rest with
  | none => simp [Repl.typed, hgetc, hrest]
  | some result => simp [Repl.typed, hgetc, hrest, Effect.append]

/-- The three characters of an arrow key. -/
theorem typed_arrow (hcontrol : r.control = .key) (dir : Byte) :
    r.typed config answer [0x1b, 0x5b, dir] =
      ({ r with control := .dir } : Repl).arrow config dir := by
  have hescape : r.getc config answer 0x1b =
      some (⟨[], []⟩, { r with control := .bracket }) := by
    rw [Repl.getc, hcontrol]
    rfl
  have hbracket : ({ r with control := .bracket } : Repl).getc config answer 0x5b =
      some (⟨[], []⟩, { r with control := .dir }) := rfl
  rw [typed_cons hescape, typed_cons hbracket, typed_singleton]
  rfl

theorem Holds.length_lt (h : Holds config r line) (hsize : 1 ≤ config.commandBufferSize) :
    line.text.length < r.buffer.length := by
  have hle := line.length_le
  have hbuffer := h.size
  have hcapacity := ShellConfig.capacity_eq hsize
  omega

/-! The conditions of `Repl` on its indices. -/

theorem Holds.pos_lt_iff (h : Holds config r line) :
    r.bufferPos < r.length ↔ line.cursor < line.text.length := by
  rw [h.pos, h.length, Int.ofNat_lt]

theorem Holds.pos_pos_iff (h : Holds config r line) : 0 < r.bufferPos ↔ 0 < line.cursor := by
  rw [h.pos, Int.natCast_pos]

theorem Holds.full_iff (h : Holds config r line) (hsize : 1 ≤ config.commandBufferSize) :
    r.length = config.commandBufferSize - 1 ↔ ¬line.text.length < config.capacity := by
  have hle := line.length_le
  rw [h.length, ← ShellConfig.capacity_eq hsize]
  omega

theorem Holds.behind_eq (h : Holds config r line) :
    r.length - r.bufferPos = (line.text.length - line.cursor : ℕ) := by
  rw [h.pos, h.length, Int.ofNat_sub line.cursor_le]

/-- The buffer from the end of the text on. -/
theorem Holds.exists_tail (h : Holds config r line) :
    ∃ tail, r.buffer = line.text ++ tail := by
  refine ⟨r.buffer.drop line.text.length, ?_⟩
  have htake : r.buffer.take line.text.length = line.text := by
    apply List.ext_getElem?
    intro index
    by_cases hindex : index < line.text.length
    · rw [List.getElem?_take_of_lt hindex, h.text index hindex]
    · rw [List.getElem?_eq_none (by rw [List.length_take]; omega),
        List.getElem?_eq_none (by omega)]
  calc
    r.buffer = r.buffer.take line.text.length ++ r.buffer.drop line.text.length :=
      (List.take_append_drop _ _).symm
    _ = line.text ++ r.buffer.drop line.text.length := by rw [htake]

theorem Simulates.exists_rest (h : Simulates config r line) (htext : line.text ≠ []) :
    ∃ rest, r.buffer = line.text ++ 0 :: rest := by
  obtain ⟨tail, hbuffer⟩ := h.exists_tail
  have hlast := h.terminator htext
  rw [hbuffer, List.getElem?_append_right (Nat.le_refl _), Nat.sub_self] at hlast
  cases tail with
  | nil => simp at hlast
  | cons first rest =>
      rw [List.getElem?_cons_zero, Option.some.injEq] at hlast
      exact ⟨rest, hlast ▸ hbuffer⟩

/-- What `%s` shows from the cursor on. -/
theorem Simulates.exists_shown (h : Simulates config r line) (htext : line.text ≠ []) :
    ∃ shown, Repl.showFrom r.buffer r.bufferPos = some shown ∧
      (0 ∉ line.text → shown = line.text.drop line.cursor) := by
  obtain ⟨rest, hbuffer⟩ := h.exists_rest htext
  have hdrop : r.buffer.drop line.cursor = line.text.drop line.cursor ++ 0 :: rest := by
    rw [hbuffer, List.drop_append_of_le_length line.cursor_le]
  obtain ⟨shown, rest', hshown, hnone⟩ := exists_terminated (line.text.drop line.cursor) rest
  refine ⟨shown, ?_, ?_⟩
  · rw [Repl.showFrom, h.pos, offset_natCast]
    simp only [Option.bind_eq_bind, Option.bind_some, print_s, hdrop, hshown, chars_append hnone]
  · intro hplain
    have hsuffix : 0 ∉ line.text.drop line.cursor := fun hmem =>
      hplain (List.mem_of_mem_drop hmem)
    have hspelled := chars_append hsuffix rest
    rw [hshown, chars_append hnone, Option.some.injEq] at hspelled
    exact hspelled

/-! ## The end of the loop -/

def cursorLook (config : ShellConfig) (line : Line Byte config.capacity) : List Byte :=
  if (line.cursor : ℤ) = config.commandBufferSize - 1 then termHideCursor
  else termShowCursor

theorem Holds.finish (h : Holds config r line) (hsize : 1 ≤ config.commandBufferSize)
    (printed : List Byte) :
    ∃ r', r.finish config printed = some (⟨printed ++ cursorLook config line, []⟩, r') ∧
      r'.control = .key ∧ Simulates config r' line := by
  have hlt := h.length_lt hsize
  have hstore := store_of_lt hlt 0
  refine ⟨{ r with buffer := r.buffer.set line.text.length 0, control := .key }, ?_, rfl,
    ⟨⟨?_, h.pos, h.length, ?_⟩, ?_⟩⟩
  · rw [Repl.finish, h.length, offset_natCast]
    simp only [Option.bind_eq_bind, Option.bind_some, hstore, cursorLook, h.pos]
    rfl
  · rw [List.length_set]
    exact h.size
  · intro index hindex
    rw [getElem?_of_store hstore, if_neg (by omega)]
    exact h.text index hindex
  · intro _
    rw [getElem?_of_store hstore, if_pos rfl]

/-! ## One key -/

theorem sizeT_natCast (num : ℕ) : sizeT num = num := if_pos (Int.natCast_nonneg num)

theorem exists_move {buffer : List Byte} {dest src num : ℕ}
    (hdest : dest + num ≤ buffer.length) (hsrc : src + num ≤ buffer.length) :
    ∃ moved, Repl.move buffer dest src num = some moved ∧ Moved buffer dest src num moved := by
  obtain ⟨moved, hmove, hmoved⟩ := exists_memmove hdest hsrc
  refine ⟨moved, ?_, hmoved⟩
  rw [Repl.move, offset_natCast, offset_natCast, sizeT_natCast]
  simp only [Option.bind_eq_bind, Option.bind_some, hmove]
  rfl

/-- The text behind the cursor has made room for a character, which is stored. -/
theorem Holds.insert {moved buffer : List Byte} (h : Holds config r line)
    (hroom : line.text.length < config.capacity)
    (hmoved : Moved r.buffer (line.cursor + 1) line.cursor
      (line.text.length - line.cursor) moved)
    (hstore : store moved line.cursor ch = some buffer) :
    Holds config
      { r with buffer := buffer, length := r.length + 1, bufferPos := r.bufferPos + 1 }
      (line.insert ch) where
  size := by
    rw [length_of_store hstore, hmoved.length]
    exact h.size
  pos := by
    have hpos := h.pos
    rw [Line.cursor_insert hroom]
    show r.bufferPos + 1 = _
    omega
  length := by
    have hlength := h.length
    rw [Line.length_insert hroom]
    show r.length + 1 = _
    omega
  text := by
    intro index hindex
    have hle := line.cursor_le
    rw [Line.length_insert hroom] at hindex
    rw [getElem?_of_store hstore, Line.getElem?_insert hroom]
    by_cases hat : index = line.cursor
    · rw [if_pos hat, if_neg (by omega), if_pos hat]
    · by_cases hbefore : index < line.cursor
      · rw [if_neg hat, if_pos hbefore, hmoved.outside index (by omega),
          h.text index (by omega)]
      · have hshift := hmoved.inside (index - 1 - line.cursor) (by omega)
        have hdest : line.cursor + 1 + (index - 1 - line.cursor) = index := by omega
        have hsrc : line.cursor + (index - 1 - line.cursor) = index - 1 := by omega
        rw [hdest, hsrc, h.text (index - 1) (by omega)] at hshift
        rw [if_neg hat, if_neg hbefore, if_neg hat, hshift]

/-- The text behind the cursor has closed up. -/
theorem Holds.delete {moved : List Byte} (h : Holds config r line) (hcursor : 0 < line.cursor)
    (hmoved : Moved r.buffer (line.cursor - 1) line.cursor
      (line.text.length - line.cursor) moved) :
    Holds config
      { r with buffer := moved, length := r.length - 1, bufferPos := r.bufferPos - 1 }
      line.delete where
  size := by
    rw [hmoved.length]
    exact h.size
  pos := by
    have hpos := h.pos
    rw [Line.cursor_delete hcursor]
    show r.bufferPos - 1 = _
    omega
  length := by
    have hle := line.cursor_le
    have hlength := h.length
    rw [Line.length_delete hcursor]
    show r.length - 1 = _
    omega
  text := by
    intro index hindex
    rw [Line.length_delete hcursor] at hindex
    rw [Line.getElem?_delete hcursor]
    by_cases hbefore : index < line.cursor - 1
    · rw [if_pos hbefore, hmoved.outside index (by omega), h.text index (by omega)]
    · have hshift := hmoved.inside (index - (line.cursor - 1)) (by omega)
      have hdest : line.cursor - 1 + (index - (line.cursor - 1)) = index := by omega
      have hsrc : line.cursor + (index - (line.cursor - 1)) = index + 1 := by omega
      rw [hdest, hsrc, h.text (index + 1) (by omega)] at hshift
      rw [if_neg hbefore, hshift]

def redrawn (line : Line Byte config.capacity) (shown : List Byte) : List Byte :=
  if line.cursor < line.text.length then
    shown ++ moveNLeft (line.text.length - line.cursor : ℕ)
  else []

theorem Simulates.exists_room (h : Simulates config r line)
    (hsize : 1 ≤ config.commandBufferSize) (hroom : line.text.length < config.capacity) :
    ∃ shown moved, r.makeRoom = some (redrawn line shown, moved) ∧
      Moved r.buffer (line.cursor + 1) line.cursor (line.text.length - line.cursor) moved ∧
      (0 ∉ line.text → shown = line.text.drop line.cursor) := by
  have hcapacity := ShellConfig.capacity_eq hsize
  have hbuffer := h.size
  by_cases hmiddle : line.cursor < line.text.length
  · have htext : line.text ≠ [] := List.ne_nil_of_length_pos (by omega)
    obtain ⟨shown, hshow, hplain⟩ := h.exists_shown htext
    obtain ⟨moved, hmove, hmoved⟩ := @exists_move r.buffer (line.cursor + 1) line.cursor
      (line.text.length - line.cursor) (by omega) (by omega)
    refine ⟨shown, moved, ?_, hmoved, hplain⟩
    have hnext : r.bufferPos + 1 = (line.cursor + 1 : ℕ) := by
      rw [h.pos]
      rfl
    rw [Repl.makeRoom, if_pos (h.pos_lt_iff.mpr hmiddle), hshow, print_termMoveNLeft,
      h.behind_eq, hnext, h.pos, hmove, redrawn, if_pos hmiddle]
    rfl
  · have hend : line.text.length - line.cursor = 0 := by omega
    have hdrop : line.text.drop line.cursor = [] := List.drop_of_length_le (by omega)
    refine ⟨[], r.buffer, ?_, ?_, fun _ => hdrop.symm⟩
    · rw [Repl.makeRoom, if_neg (mt h.pos_lt_iff.mp hmiddle), redrawn, if_neg hmiddle]
    · rw [hend]
      exact .refl _ _ _

theorem Simulates.exists_closed (h : Simulates config r line)
    (hsize : 1 ≤ config.commandBufferSize) (hcursor : 0 < line.cursor) :
    ∃ moved, r.closeUp = some moved ∧
      Moved r.buffer (line.cursor - 1) line.cursor (line.text.length - line.cursor) moved := by
  have hle := line.cursor_le
  have hbuffer := h.length_lt hsize
  by_cases hend : line.cursor = line.text.length
  · refine ⟨r.buffer, if_neg ?_, ?_⟩
    · rw [h.length, h.pos, hend]
      simp
    · rw [hend, Nat.sub_self]
      exact .refl _ _ _
  · obtain ⟨moved, hmove, hmoved⟩ := @exists_move r.buffer (line.cursor - 1) line.cursor
      (line.text.length - line.cursor) (by omega) (by omega)
    have hbehind : r.bufferPos - 1 = (line.cursor - 1 : ℕ) := by
      rw [h.pos]
      omega
    have hmiddle : r.bufferPos ≠ r.length := by
      rw [h.length, h.pos]
      omega
    refine ⟨moved, ?_, hmoved⟩
    rw [Repl.closeUp, if_pos hmiddle, h.behind_eq, hbehind, h.pos, hmove]

/-- An ordinary character, when there is room for it. -/
theorem Simulates.insert (h : Simulates config r line) (hsize : 1 ≤ config.commandBufferSize)
    (hroom : line.text.length < config.capacity) (ch : Byte) :
    ∃ shown r', r.insert config ch =
        some (⟨ch :: redrawn line shown ++ cursorLook config (line.insert ch), []⟩, r') ∧
      r'.control = .key ∧ Simulates config r' (line.insert ch) ∧
      (0 ∉ line.text → shown = line.text.drop line.cursor) := by
  have hle := line.cursor_le
  have hbuffer := h.length_lt hsize
  obtain ⟨shown, moved, hroomed, hmoved, hplain⟩ := h.exists_room hsize hroom
  have hinside : line.cursor < moved.length := by
    rw [hmoved.length]
    omega
  have hstore := store_of_lt hinside ch
  obtain ⟨r', hfinish, hcontrol, hsimulates⟩ :=
    (h.toHolds.insert hroom hmoved hstore).finish hsize (ch :: redrawn line shown)
  refine ⟨shown, r', ?_, hcontrol, hsimulates, hplain⟩
  have hfull : ¬r.length = config.commandBufferSize - 1 :=
    mt (h.full_iff hsize).mp (not_not.mpr hroom)
  have hoffset : offset r.bufferPos = some line.cursor := by
    rw [h.pos, offset_natCast]
  rw [Repl.insert, if_neg hfull, hroomed, hoffset]
  simp only [Option.bind_eq_bind, Option.bind_some, hstore]
  exact hfinish

/-- A character at the end of the text leaves what is behind it and the terminator. -/
theorem Simulates.exists_insert_end (h : Simulates config r line)
    (hsize : 1 ≤ config.commandBufferSize) (hroom : line.text.length < config.capacity)
    (hend : line.cursor = line.text.length) (ch : Byte) :
    ∃ effect r', r.insert config ch = some (effect, r') ∧
      r'.buffer.drop (line.text.length + 2) = r.buffer.drop (line.text.length + 2) := by
  have hcapacity := ShellConfig.capacity_eq hsize
  have hbuffer := h.size
  have hfull : ¬r.length = config.commandBufferSize - 1 :=
    mt (h.full_iff hsize).mp (not_not.mpr hroom)
  have hless : ¬r.bufferPos < r.length := mt h.pos_lt_iff.mp (Nat.not_lt.mpr hend.ge)
  have hoffset : offset r.bufferPos = some line.text.length := by
    rw [h.pos, hend, offset_natCast]
  have hnext : offset (r.length + 1) = some (line.text.length + 1) := by
    rw [h.length]
    exact offset_natCast _
  have hstore := store_of_lt (h.length_lt hsize) ch
  have hlast := @store_of_lt (r.buffer.set line.text.length ch) (line.text.length + 1)
    (by rw [List.length_set]; omega) 0
  rw [Repl.insert, if_neg hfull, Repl.makeRoom, if_neg hless, hoffset]
  simp only [Option.bind_eq_bind, Option.bind_some, hstore, Repl.finish, hnext, hlast]
  refine ⟨_, _, rfl, ?_⟩
  rw [List.drop_set_of_lt (by omega), List.drop_set_of_lt (by omega)]

/-- When there is no room for it, it is ignored. -/
theorem Simulates.insert_full (h : Simulates config r line)
    (hsize : 1 ≤ config.commandBufferSize) (hfull : ¬line.text.length < config.capacity)
    (ch : Byte) :
    ∃ r', r.insert config ch = some (⟨[] ++ cursorLook config line, []⟩, r') ∧
      r'.control = .key ∧ Simulates config r' line := by
  rw [Repl.insert, if_pos ((h.full_iff hsize).mpr hfull)]
  exact h.toHolds.finish hsize []

/-- The backspace key in front of the text. -/
theorem Simulates.delete_zero (h : Simulates config r line)
    (hsize : 1 ≤ config.commandBufferSize) (hzero : ¬0 < line.cursor) :
    ∃ r', r.backspace config = some (⟨[] ++ cursorLook config line, []⟩, r') ∧
      r'.control = .key ∧ Simulates config r' line := by
  rw [Repl.backspace, if_neg (mt h.pos_pos_iff.mp hzero)]
  exact h.toHolds.finish hsize []

/-- The backspace key behind a character. -/
theorem Simulates.delete (h : Simulates config r line) (hsize : 1 ≤ config.commandBufferSize)
    (hcursor : 0 < line.cursor) :
    ∃ shown r', r.backspace config =
        some (⟨ascii ['\x08'] ++ shown ++ ascii [' '] ++
          moveNLeft (line.text.length - line.cursor + 1 : ℕ) ++
          cursorLook config line.delete, []⟩, r') ∧
      r'.control = .key ∧ Simulates config r' line.delete ∧
      (0 ∉ line.text → shown = line.text.drop line.cursor) := by
  have hle := line.cursor_le
  have htext : line.text ≠ [] := List.ne_nil_of_length_pos (by omega)
  obtain ⟨shown, hshow, hplain⟩ := h.exists_shown htext
  obtain ⟨moved, hclosed, hmoved⟩ := h.exists_closed hsize hcursor
  obtain ⟨r', hfinish, hcontrol, hsimulates⟩ :=
    (h.toHolds.delete hcursor hmoved).finish hsize (ascii ['\x08'] ++ shown ++ ascii [' '] ++
      moveNLeft (line.text.length - line.cursor + 1 : ℕ))
  refine ⟨shown, r', ?_, hcontrol, hsimulates, hplain⟩
  have hcount : r.length - r.bufferPos + 1 = (line.text.length - line.cursor + 1 : ℕ) := by
    rw [h.behind_eq]
    rfl
  rw [Repl.backspace, if_pos (h.pos_pos_iff.mpr hcursor), hshow, print_termMoveNLeft, hclosed,
    hcount]
  exact hfinish

theorem Holds.moveTo (h : Holds config r line) (htext : line'.text = line.text)
    (control : Control) {pos : ℤ} (hpos : pos = line'.cursor) :
    Holds config { r with bufferPos := pos, control := control } line' where
  size := h.size
  pos := hpos
  length := by
    rw [htext]
    exact h.length
  text := by
    rw [htext]
    exact h.text

def arrowShown (line : Line Byte config.capacity) (dir : Byte) : List Byte :=
  if dir = 0x43 ∧ line.cursor < line.text.length then [0x1b, 0x5b, 0x43]
  else if dir = 0x44 ∧ 0 < line.cursor then [0x1b, 0x5b, 0x44]
  else []

theorem Simulates.arrow (h : Simulates config r line) (hsize : 1 ≤ config.commandBufferSize)
    (control : Control) (dir : Byte) :
    ∃ r', ({ r with control := control } : Repl).arrow config dir =
        some (⟨arrowShown line dir ++ cursorLook config ((Key.arrow dir).edit line), []⟩, r') ∧
      r'.control = .key ∧ Simulates config r' ((Key.arrow dir).edit line) := by
  have hle := line.cursor_le
  rw [Repl.arrow, arrowShown, Key.edit]
  simp only [h.pos_lt_iff, h.pos_pos_iff]
  by_cases hc : dir = 0x43
  · have hnot : dir ≠ 0x44 := hc.trans_ne (by decide)
    simp only [hnot, false_and, if_false]
    rw [if_pos hc]
    by_cases hinside : line.cursor < line.text.length
    · rw [if_pos ⟨hc, hinside⟩, if_pos ⟨hc, hinside⟩]
      apply (h.toHolds.moveTo line.text_right control _).finish hsize
      rw [Line.cursor_right hinside, h.pos]
      omega
    · simp only [hinside, and_false, if_false]
      rw [Line.right_of_end (by omega)]
      exact (h.toHolds.moveTo rfl control h.pos).finish hsize []
  · simp only [hc, false_and, if_false]
    by_cases hd : dir = 0x44
    · rw [if_pos hd]
      by_cases hinside : 0 < line.cursor
      · rw [if_pos ⟨hd, hinside⟩, if_pos ⟨hd, hinside⟩]
        apply (h.toHolds.moveTo line.text_left control _).finish hsize
        rw [Line.cursor_left, h.pos]
        omega
      · simp only [hinside, and_false, if_false]
        rw [Line.left_of_zero (by omega)]
        exact (h.toHolds.moveTo rfl control h.pos).finish hsize []
    · simp only [hd, false_and, if_false]
      exact (h.toHolds.moveTo rfl control h.pos).finish hsize []

/-! ## The return key -/

/-- The characters before the first space. -/
def firstWord (text : List Byte) : List Byte := text.takeWhile (· ≠ 0x20)

/-- `Handle` asks for the first word and sends the whole buffer to its server. -/
theorem exists_handle {text : List Byte} (htext : 0 ∉ text) (rest : List Byte)
    (answer : Answer) :
    ∃ handled, handle (text ++ 0 :: rest) answer = some handled ∧
      handled.command = firstWord text ∧
      (answer.handlerTid ≠ errInvalidNameserverTid → answer.handlerTid ≠ errLookupFailed →
        handled.sent = some (answer.handlerTid, text ++ 0 :: rest)) := by
  have hspan : text ++ 0 :: rest = firstWord text ++
      (text.dropWhile (· ≠ 0x20) ++ 0 :: rest) := by
    rw [← List.append_assoc, firstWord, List.takeWhile_append_dropWhile]
  have hplain : 0 ∉ firstWord text := fun hmem =>
    htext ((List.takeWhile_prefix _).subset hmem)
  have hcount : strcspn (text ++ 0 :: rest) (ascii [' '] ++ [0]) =
      some (firstWord text).length :=
    strcspn_singleton htext (by decide) rest []
  have hcopy : strncpy ((List.range ((firstWord text).length + 1)).map answer.uninit)
      (text ++ 0 :: rest) (firstWord text).length = some (firstWord text ++ [0]) := by
    rw [hspan]
    exact strncpy_append (by rw [List.length_map, List.length_range]) _
  have hprint : ∃ printed, print [.text (ascii ['C', 'o', 'm', 'm', 'a', 'n', 'd', ' ', 'n',
      'o', 't', ' ', 'f', 'o', 'u', 'n', 'd', ':', ' ']), .s (firstWord text ++ [0]),
      .text (ascii ['\r', '\n'])] = some printed := by
    rw [print_cons, print_cons, Piece.format, Piece.format, chars_append hplain]
    exact ⟨_, rfl⟩
  obtain ⟨printed, hprinted⟩ := hprint
  rw [handle]
  simp only [hcount, hcopy, chars_append hplain, hprinted, Option.bind_eq_bind,
    Option.bind_some, Option.pure_def]
  by_cases hserver : answer.handlerTid = errInvalidNameserverTid
  · rw [if_pos hserver]
    exact ⟨_, rfl, rfl, fun hne => absurd hserver hne⟩
  · rw [if_neg hserver]
    by_cases hlookup : answer.handlerTid = errLookupFailed
    · rw [if_pos hlookup]
      exact ⟨_, rfl, rfl, fun _ hne => absurd hlookup hne⟩
    · rw [if_neg hlookup]
      exact ⟨_, rfl, rfl, fun _ _ => rfl⟩

/-- After the return key the line is empty. -/
theorem Holds.simulates_empty (h : Holds config r line) (ret : ℤ) (control : Control) :
    Simulates config
      { r with ret := ret, bufferPos := 0, length := 0, control := control } .empty where
  size := h.size
  pos := rfl
  length := rfl
  text := by
    intro index hindex
    exact absurd hindex (Nat.not_lt_zero index)
  terminator hne := absurd rfl hne

theorem Simulates.exists_enter (h : Simulates config r line) (answer : Answer) :
    ∃ effect r', r.enter config answer = some (effect, r') ∧
      Simulates config r' (.empty : Line Byte config.capacity) := by
  have hempty := fun ret control => h.toHolds.simulates_empty ret control
  rw [Repl.enter]
  by_cases hnone : r.length = 0
  · rw [if_pos hnone]
    exact ⟨_, _, rfl, hempty 0 r.control⟩
  · have htext : line.text ≠ [] := by
      intro hnil
      rw [h.length, hnil] at hnone
      exact hnone rfl
    obtain ⟨rest, hbuffer⟩ := h.exists_rest htext
    obtain ⟨shown, rest', hshown, hplain⟩ := exists_terminated line.text rest
    rw [hshown] at hbuffer
    obtain ⟨difference, hcompare⟩ := exists_strcmp shown rest' (ascii ['e', 'x', 'i', 't']) []
    obtain ⟨handled, hhandle, _⟩ := exists_handle hplain rest' answer
    rw [if_neg hnone]
    simp only [hbuffer, hcompare, hhandle, Option.bind_eq_bind, Option.bind_some,
      Option.pure_def]
    rw [← hbuffer]
    by_cases hexit : difference = 0
    · rw [if_pos hexit]
      exact ⟨_, _, rfl, hempty 0 .exited⟩
    · rw [if_neg hexit]
      by_cases hfatal : handled.exits
      · rw [if_pos hfatal]
        exact ⟨_, _, rfl, hempty _ .exited⟩
      · rw [if_neg hfatal]
        exact ⟨_, _, rfl, hempty _ r.control⟩

/-! ## Every key -/

theorem getc_key (hcontrol : r.control = .key) (hch : Ordinary ch) :
    r.getc config answer ch = r.insert config ch := by
  obtain ⟨hreturn, hnewline, hfeed, hescape, hback⟩ := hch
  rw [Repl.getc, hcontrol]
  simp only [hreturn, hnewline, hfeed, hescape, hback, or_self, if_false]

theorem getc_backspace (hcontrol : r.control = .key) :
    r.getc config answer 0x7f = r.backspace config := by
  rw [Repl.getc, hcontrol]
  rfl

theorem getc_formFeed (hcontrol : r.control = .key) :
    r.getc config answer 0x0c = r.formFeed config := by
  rw [Repl.getc, hcontrol]
  rfl

theorem getc_enter (hcontrol : r.control = .key) (newline : Bool) :
    r.getc config answer (if newline then 0x0a else 0x0d) = r.enter config answer := by
  rw [Repl.getc, hcontrol]
  cases newline <;> rfl

/-- No key makes the shell leave its buffer, and every key edits the line. -/
theorem Simulates.typed (h : Simulates config r line) (hsize : 1 ≤ config.commandBufferSize)
    (hcontrol : r.control = .key) (key : Key) (answer : Answer) :
    ∃ effect r', r.typed config answer key.bytes = some (effect, r') ∧
      Simulates config r' (key.edit line) := by
  cases key with
  | char ch =>
      rw [Key.bytes, typed_singleton, getc_key hcontrol ch.property, Key.edit]
      by_cases hroom : line.text.length < config.capacity
      · obtain ⟨shown, r', hinsert, _, hsimulates, _⟩ := h.insert hsize hroom ch.val
        exact ⟨_, r', hinsert, hsimulates⟩
      · have hle := line.length_le
        obtain ⟨r', hfinish, _, hsimulates⟩ := h.insert_full hsize hroom ch.val
        rw [Line.insert_of_full (by omega)]
        exact ⟨_, r', hfinish, hsimulates⟩
  | backspace =>
      rw [Key.bytes, typed_singleton, getc_backspace hcontrol, Key.edit]
      by_cases hcursor : 0 < line.cursor
      · obtain ⟨shown, r', hback, _, hsimulates, _⟩ := h.delete hsize hcursor
        exact ⟨_, r', hback, hsimulates⟩
      · obtain ⟨r', hfinish, _, hsimulates⟩ := h.delete_zero hsize hcursor
        rw [Line.delete_of_zero (by omega)]
        exact ⟨_, r', hfinish, hsimulates⟩
  | arrow dir =>
      obtain ⟨r', harrow, _, hsimulates⟩ := h.arrow hsize .dir dir
      rw [Key.bytes, typed_arrow hcontrol]
      exact ⟨_, r', harrow, hsimulates⟩
  | formFeed =>
      rw [Key.bytes, typed_singleton, getc_formFeed hcontrol]
      exact ⟨_, r, rfl, h⟩
  | enter newline =>
      rw [Key.bytes, typed_singleton, getc_enter hcontrol]
      exact h.exists_enter answer

end Keys

end Rtk.Shell
