import Rtk.Core.Transition
import Rtk.Lib.Terminal

/-!
# The shell

`Handle` and `Repl` of `usr/shell.c`.  `Repl` is split at its calls of `Getc`: what the
shell does with a character is a function of its local variables, which is `none` when it
reads or writes outside one of its arrays.
-/

namespace Rtk.Shell

open Rtk.ByteMemory
open Rtk.ByteObject
open Rtk.CString
open Rtk.Print
open Rtk.Terminal
open Rtk.Transition

/-- `struct ShellConfig`, with the characters of `prompt` before its terminator. -/
structure ShellConfig where
  prompt : List Byte
  commandBufferSize : ℤ

/-! The values of `enum NameServerError` and of `enum SendError`. -/

def errInvalidNameserverTid : ℤ := -1
def errLookupFailed : ℤ := -2
def errSendImpossibleTid : ℤ := -1
def errSendNonexistentTask : ℤ := -2
def errSrrIncomplete : ℤ := -3

/-! ## `Handle` -/

/-- What `Handle` finds: the values of `WhoIs` and of `Send`, what the reply stores in
`*ret` if it is answered, and what the stack holds where `command_buf` is. -/
structure Answer where
  handlerTid : ℤ
  err : ℤ
  reply : Option ℤ
  uninit : ℕ → Byte

/-- What `Handle` does: the name that it asks for, the message that it sends, what it
prints, `*ret`, and whether it exits. -/
structure Handled where
  command : List Byte
  sent : Option (ℤ × List Byte)
  printed : List Byte
  ret : ℤ
  exits : Bool

/-- The messages of the `switch` over the value of `Send`. -/
def sendMessage (err : ℤ) : List Byte :=
  if err = errSendImpossibleTid ∨ err = errSendNonexistentTask then
    ascii ['T', 'a', 's', 'k', ' ', 'd', 'i', 's', 'a', 'p', 'p', 'e', 'a', 'r', 'e', 'd',
      ' ', 'b', 'e', 'f', 'o', 'r', 'e', ' ', 'r', 'e', 'c', 'e', 'i', 'v', 'i', 'n', 'g',
      ' ', 'c', 'o', 'm', 'm', 'a', 'n', 'd', '\r', '\n']
  else if err = errSrrIncomplete then
    ascii ['I', 'n', 't', 'e', 'r', 'n', 'a', 'l', ' ', 'e', 'r', 'r', 'o', 'r', '.', '.',
      '.', ' ', 'e', 'x', 'i', 't', 'i', 'n', 'g', '\r', '\n']
  else []

def handle (buffer : List Byte) (answer : Answer) : Option Handled := do
  let commandLen ← strcspn buffer (ascii [' '] ++ [0])
  let commandBuf ← strncpy ((List.range (commandLen + 1)).map answer.uninit) buffer commandLen
  let command ← chars commandBuf
  if answer.handlerTid = errInvalidNameserverTid then
    return {
      command := command
      sent := none
      printed := ascii ['C', 'a', 'n', '\'', 't', ' ', 'c', 'o', 'n', 'n', 'e', 'c', 't',
        ' ', 't', 'o', ' ', 'N', 'a', 'm', 'e', 'S', 'e', 'r', 'v', 'e', 'r', '\r', '\n']
      ret := -1
      exits := false }
  else if answer.handlerTid = errLookupFailed then
    let printed ← print [.text (ascii ['C', 'o', 'm', 'm', 'a', 'n', 'd', ' ', 'n', 'o', 't',
      ' ', 'f', 'o', 'u', 'n', 'd', ':', ' ']), .s commandBuf, .text (ascii ['\r', '\n'])]
    return {
      command := command
      sent := none
      printed := printed
      ret := -1
      exits := false }
  else
    return {
      command := command
      sent := some (answer.handlerTid, buffer)
      printed := sendMessage answer.err
      ret := answer.reply.getD (-1)
      exits := answer.err = errSrrIncomplete }

/-! ## `Repl` -/

/-- The call of `Getc` in which the shell waits for the next character. -/
inductive Control where
  /-- A character of the line. -/
  | key
  /-- Behind an escape character. -/
  | bracket
  | dir
  /-- There is none after `Exit`. -/
  | exited
  deriving DecidableEq

structure Repl where
  buffer : List Byte
  bufferPos : ℤ
  length : ℤ
  ret : ℤ
  control : Control

/-- What the shell does with a character, besides changing its variables. -/
structure Effect where
  printed : List Byte
  handled : List Handled

def Effect.append (first second : Effect) : Effect :=
  ⟨first.printed ++ second.printed, first.handled ++ second.handled⟩

/-- An `int` passed as a `size_t`. -/
def sizeT (num : ℤ) : ℕ := if 0 ≤ num then num.toNat else (2 ^ 32 + num).toNat

def prompt (config : ShellConfig) (ret : ℤ) : List Byte :=
  (if ret ≠ 0 then ascii ['('] ++ termYellow ++ i2a ret ++ termReset ++ ascii [')', ' ']
    else []) ++
  (if ret = 0 then termGreen else termRed) ++ config.prompt ++ termReset

namespace Repl

/-- The end of the inner loop of `Repl`, behind the `switch`. -/
def finish (config : ShellConfig) (printed : List Byte) (r : Repl) :
    Option (Effect × Repl) := do
  let buffer ← store r.buffer (← offset r.length) 0
  let cursor :=
    if r.bufferPos = config.commandBufferSize - 1 then termHideCursor else termShowCursor
  return (⟨printed ++ cursor, []⟩, { r with buffer := buffer, control := .key })

def enter (config : ShellConfig) (answer : Answer) (r : Repl) : Option (Effect × Repl) :=
  let newline := ascii ['\r', '\n']
  let cleared := { r with ret := 0, bufferPos := 0, length := 0 }
  if r.length = 0 then some (⟨newline ++ prompt config 0, []⟩, cleared)
  else do
    let difference ← strcmp r.buffer (ascii ['e', 'x', 'i', 't'] ++ [0])
    if difference = 0 then
      let farewell := ascii ['e', 'x', 'i', 't', '.', '.', '.', '\r', '\n']
      return (⟨newline ++ farewell, []⟩, { cleared with control := .exited })
    else
      let handled ← handle r.buffer answer
      if handled.exits then
        return (⟨newline ++ handled.printed, [handled]⟩,
          { cleared with ret := handled.ret, control := .exited })
      else
        return (⟨newline ++ handled.printed ++ prompt config handled.ret, [handled]⟩,
          { cleared with ret := handled.ret })

def formFeed (config : ShellConfig) (r : Repl) : Option (Effect × Repl) :=
  some (⟨termMoveUpperLeft ++ termClear ++ termReset ++ prompt config r.ret, []⟩, r)

def arrow (config : ShellConfig) (r : Repl) (dir : Byte) : Option (Effect × Repl) :=
  if dir = 0x43 ∧ r.bufferPos < r.length then
    finish config [0x1b, 0x5b, 0x43] { r with bufferPos := r.bufferPos + 1 }
  else if dir = 0x44 ∧ 0 < r.bufferPos then
    finish config [0x1b, 0x5b, 0x44] { r with bufferPos := r.bufferPos - 1 }
  else finish config [] r

/-- `memmove( buffer + dest, buffer + src, num )`. -/
def move (buffer : List Byte) (dest src num : ℤ) : Option (List Byte) := do
  let moved ← memmove buffer (← offset dest) (← offset src) (sizeT num)
  return moved.2

/-- `Print( channel, "%s", buffer + pos )`. -/
def showFrom (buffer : List Byte) (pos : ℤ) : Option (List Byte) := do
  print [.s (buffer.drop (← offset pos))]

/-- Move the text behind the cursor over the character before it. -/
def closeUp (r : Repl) : Option (List Byte) :=
  if r.bufferPos ≠ r.length then
    move r.buffer (r.bufferPos - 1) r.bufferPos (r.length - r.bufferPos)
  else some r.buffer

def backspace (config : ShellConfig) (r : Repl) : Option (Effect × Repl) :=
  if 0 < r.bufferPos then do
    let rest ← showFrom r.buffer r.bufferPos
    let left ← print (termMoveNLeft (r.length - r.bufferPos + 1))
    let buffer ← r.closeUp
    finish config (ascii ['\x08'] ++ rest ++ ascii [' '] ++ left)
      { r with buffer := buffer, length := r.length - 1, bufferPos := r.bufferPos - 1 }
  else finish config [] r

/-- Show the text behind the cursor once more and make room for a character. -/
def makeRoom (r : Repl) : Option (List Byte × List Byte) :=
  if r.bufferPos < r.length then do
    let rest ← showFrom r.buffer r.bufferPos
    let left ← print (termMoveNLeft (r.length - r.bufferPos))
    let buffer ← move r.buffer (r.bufferPos + 1) r.bufferPos (r.length - r.bufferPos)
    return (rest ++ left, buffer)
  else some ([], r.buffer)

def insert (config : ShellConfig) (r : Repl) (ch : Byte) : Option (Effect × Repl) :=
  if r.length = config.commandBufferSize - 1 then finish config [] r
  else do
    let (printed, moved) ← r.makeRoom
    let buffer ← store moved (← offset r.bufferPos) ch
    finish config (ch :: printed)
      { r with buffer := buffer, length := r.length + 1, bufferPos := r.bufferPos + 1 }

/-- What the shell does with a character. -/
def getc (config : ShellConfig) (answer : Answer) (r : Repl) (ch : Byte) :
    Option (Effect × Repl) :=
  match r.control with
  | .key =>
      if ch = 0x0d ∨ ch = 0x0a then r.enter config answer
      else if ch = 0x0c then r.formFeed config
      else if ch = 0x1b then some (⟨[], []⟩, { r with control := .bracket })
      else if ch = 0x7f then r.backspace config
      else r.insert config ch
  | .bracket => some (⟨[], []⟩, { r with control := .dir })
  | .dir => r.arrow config ch
  | .exited => some (⟨[], []⟩, r)

def typed (config : ShellConfig) (answer : Answer) :
    Repl → List Byte → Option (Effect × Repl)
  | r, [] => some (⟨[], []⟩, r)
  | r, ch :: rest => do
      let (effect, r) ← r.getc config answer ch
      let (effects, r) ← typed config answer r rest
      return (effect.append effects, r)

end Repl

/-! ## Keys -/

def Ordinary (byte : Byte) : Prop :=
  byte ≠ 0x0d ∧ byte ≠ 0x0a ∧ byte ≠ 0x0c ∧ byte ≠ 0x1b ∧ byte ≠ 0x7f

instance (byte : Byte) : Decidable (Ordinary byte) :=
  inferInstanceAs (Decidable (_ ∧ _))

/-- What is typed: a newline for `enter true` and a carriage return for `enter false`. -/
inductive Key where
  | char (ch : { byte : Byte // Ordinary byte })
  | backspace
  | arrow (dir : Byte)
  | formFeed
  | enter (newline : Bool)
  deriving DecidableEq

def Key.bytes : Key → List Byte
  | char ch => [ch.val]
  | backspace => [0x7f]
  | arrow dir => [0x1b, 0x5b, dir]
  | formFeed => [0x0c]
  | enter newline => [if newline then 0x0a else 0x0d]

/-- The start of `Repl`, behind the first prompt.  `buffer` is uninitialised. -/
def Starts (config : ShellConfig) (r : Repl) : Prop :=
  r.buffer.length = config.commandBufferSize ∧ r.bufferPos = 0 ∧ r.length = 0 ∧ r.ret = 0 ∧
    r.control = .key

/-- Keys typed into the shell until it exits. -/
def shell (config : ShellConfig) : System Repl (Key × Answer) where
  initial := Starts config
  step r input r' :=
    r.control = .key ∧
      ∃ effect, r.typed config input.2 input.1.bytes = some (effect, r')

/-! ## Samples -/

def sampleConfig : ShellConfig := ⟨ascii ['$', ' '], 4⟩

def sampleRepl : Repl := ⟨[1, 2, 3, 4], 0, 0, 0, .key⟩

/-- The answers for keys that ask nobody. -/
def sampleAnswer : Answer := ⟨0, 0, none, fun _ => 0⟩

def keysOf (word : List Char) : List Key :=
  (ascii word).filterMap fun byte => if h : Ordinary byte then some (.char ⟨byte, h⟩) else none

end Rtk.Shell
