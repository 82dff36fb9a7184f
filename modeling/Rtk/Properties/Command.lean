import Rtk.Invariant.LineBuffer

/-!
# The command that the shell looks up

`Handle` cuts the first word out of the line and copies it, with a terminator, to an array
that has just the room for it.
-/

namespace Rtk.Shell

open Rtk.ByteMemory
open Rtk.CString
open Rtk.Print

def commandLen (buffer : List Byte) : Option ℕ := strcspn buffer (ascii [' '] ++ [0])

/-- `command_buf` in `Handle` behind the call of `strncpy`, when the stack held `uninit` there
before. -/
def commandBuf (buffer : List Byte) (uninit : ℕ → Byte) : Option (List Byte) :=
  (commandLen buffer).bind fun commandLen =>
    strncpy ((List.range (commandLen + 1)).map uninit) buffer commandLen

section Command

variable {text buffer : List Byte}

/-- `Handle` asks for the name that is in `command_buf`. -/
theorem exists_commandBuf_of_handle {answer : Answer} {handled : Handled}
    (hhandle : handle buffer answer = some handled) :
    ∃ name, commandBuf buffer answer.uninit = some name ∧ chars name = some handled.command := by
  simp only [handle, Option.bind_eq_bind, Option.bind_eq_some_iff] at hhandle
  obtain ⟨len, hlen, name, hname, command, hcommand, hrest⟩ := hhandle
  refine ⟨name, ?_, ?_⟩
  · rw [commandBuf, commandLen, hlen, Option.bind_some]
    exact hname
  · rw [hcommand]
    split_ifs at hrest
    · obtain rfl := Option.some.inj hrest
      rfl
    · obtain ⟨printed, _, hrest⟩ := Option.bind_eq_some_iff.mp hrest
      obtain rfl := Option.some.inj hrest
      rfl
    · obtain rfl := Option.some.inj hrest
      rfl

theorem commandLen_line (hplain : 0 ∉ text) (rest : List Byte) :
    commandLen (text ++ 0 :: rest) = some (firstWord text).length :=
  strcspn_singleton hplain (by decide) rest []

/-- What the array held before, and what follows the line, have no part in the name. -/
theorem commandBuf_line (hplain : 0 ∉ text) (rest : List Byte) (uninit : ℕ → Byte) :
    commandBuf (text ++ 0 :: rest) uninit = some (firstWord text ++ [0]) := by
  have hspan : text ++ 0 :: rest = firstWord text ++
      (text.dropWhile (· ≠ 0x20) ++ 0 :: rest) := by
    rw [← List.append_assoc, firstWord, List.takeWhile_append_dropWhile]
  rw [commandBuf, commandLen_line hplain, Option.bind_some, hspan]
  exact strncpy_append (by rw [List.length_map, List.length_range]) _

end Command

/-- For every line in the buffer, `command_buf` becomes the first word and its terminator, all
its `command_len + 1` bytes written.  It does so as well when the buffer ends with the line's
terminator, behind which nothing is read then. -/
theorem handle_commandBuf {text : List Byte} (hplain : 0 ∉ text) (rest : List Byte)
    (answer : Answer) :
    commandLen (text ++ 0 :: rest) = some (firstWord text).length ∧
      commandBuf (text ++ 0 :: rest) answer.uninit = some (firstWord text ++ [0]) ∧
      commandBuf (text ++ [0]) answer.uninit = some (firstWord text ++ [0]) ∧
      ∃ handled, handle (text ++ 0 :: rest) answer = some handled ∧
        handled.command = firstWord text := by
  have hfill := commandBuf_line hplain rest answer.uninit
  have hword : 0 ∉ firstWord text := fun hmem =>
    hplain ((List.takeWhile_prefix _).subset hmem)
  refine ⟨commandLen_line hplain rest, hfill, commandBuf_line hplain [] answer.uninit, ?_⟩
  obtain ⟨handled, hhandle, _⟩ := exists_handle hplain rest answer
  obtain ⟨name, hname, hcommand⟩ := exists_commandBuf_of_handle hhandle
  obtain rfl := Option.some.inj (hfill.symm.trans hname)
  rw [chars_append hword, Option.some.injEq] at hcommand
  exact ⟨handled, hhandle, hcommand.symm⟩

/-- The line `ls x` in a buffer of eight bytes, and a line that starts with a space. -/
example :
    commandBuf (ascii ['l', 's', ' ', 'x'] ++ [0, 7, 7, 7]) (fun _ => 9) =
        some (ascii ['l', 's'] ++ [0]) ∧
      commandBuf (ascii [' ', 'x'] ++ [0]) (fun _ => 9) = some [0] := by
  decide

theorem handle_commandBuf_sample :
    commandLen (ascii ['l', 's', ' ', 'x'] ++ 0 :: [7, 7, 7]) = some 2 ∧
      commandBuf (ascii ['l', 's', ' ', 'x'] ++ 0 :: [7, 7, 7]) sampleAnswer.uninit =
        some (ascii ['l', 's'] ++ [0]) ∧
      commandBuf (ascii ['l', 's', ' ', 'x'] ++ [0]) sampleAnswer.uninit =
        some (ascii ['l', 's'] ++ [0]) ∧
      ∃ handled, handle (ascii ['l', 's', ' ', 'x'] ++ 0 :: [7, 7, 7]) sampleAnswer =
          some handled ∧ handled.command = ascii ['l', 's'] :=
  @handle_commandBuf (ascii ['l', 's', ' ', 'x']) (by decide) [7, 7, 7] sampleAnswer

end Rtk.Shell
