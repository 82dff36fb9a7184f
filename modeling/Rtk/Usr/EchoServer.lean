import Rtk.Usr.Shell

/-!
# The echo server

The loop of `EchoServer` of `usr/echoserver.c`.
-/

namespace Rtk.EchoServer

open Rtk.ByteMemory
open Rtk.CString
open Rtk.Print

/-- `sizeof( buf )`. -/
def bufSize : ℕ := 128

/-- What `Receive` leaves in `buf` when the message is `msg`. -/
def received (buf msg : List Byte) : List Byte :=
  msg.take buf.length ++ buf.drop msg.length

/-- The body of the loop of `EchoServer`: what it prints on channel 0 for a message, and
its reply. -/
def serve (buf msg : List Byte) : Option (List Byte × ℤ) := do
  let buf := received buf msg
  let offset := (← strcspn buf (ascii [' '] ++ [0])) + 1
  let printed ← print [.s (buf.drop offset), .text (ascii ['\r', '\n'])]
  return (printed, 0)

/-! ## The command line -/

def name : List Byte := ascii ['e', 'c', 'h', 'o']

def argument (text : List Byte) : List Byte := (text.dropWhile (· ≠ 0x20)).drop 1

theorem chars_eq_none {bytes : List Byte} (hbytes : 0 ∉ bytes) : chars bytes = none := by
  induction bytes with
  | nil => rfl
  | cons byte bytes ih =>
      rw [List.mem_cons, not_or] at hbytes
      rw [chars, if_neg (Ne.symm hbytes.1), ih hbytes.2]
      rfl

section Serve

variable {buf text rest : List Byte}

/-- What is received behind the first characters of a message. -/
theorem received_append {first : List Byte} (hlength : first.length ≤ buf.length)
    (rest : List Byte) :
    received buf (first ++ rest) = first ++ received (buf.drop first.length) rest := by
  have htake : (first ++ rest).take buf.length =
      first ++ rest.take (buf.length - first.length) := by
    rw [List.take_append, List.take_of_length_le hlength]
  rw [received, received, htake, List.length_append, List.length_drop, List.drop_drop,
    List.append_assoc]

theorem received_cons (msgHead : Byte) (msg : List Byte) (hbuf : buf ≠ []) :
    received buf (msgHead :: msg) = msgHead :: received buf.tail msg := by
  obtain ⟨first, buf', rfl⟩ := List.exists_cons_of_ne_nil hbuf
  rfl

/-- A line with a space: the server prints what follows it. -/
theorem serve_of_space (htext : 0 ∉ text) (hspace : (0x20 : Byte) ∈ text)
    (hlength : text.length < buf.length) (rest : List Byte) :
    serve buf (text ++ 0 :: rest) = some (argument text ++ ascii ['\r', '\n'], 0) := by
  have hreceived := @received_append buf (text ++ [0])
    (by rw [List.length_append]; exact hlength) rest
  rw [List.append_assoc, List.append_assoc, List.singleton_append,
    List.singleton_append] at hreceived
  generalize received (buf.drop (text ++ [0]).length) rest = rest' at hreceived
  have hcount : strcspn (text ++ 0 :: rest') (ascii [' '] ++ [0]) =
      some (text.takeWhile (· ≠ 0x20)).length :=
    strcspn_singleton htext (by decide) rest' []
  have hplain : 0 ∉ argument text := fun hmem =>
    htext ((List.dropWhile_suffix _).subset (List.mem_of_mem_drop hmem))
  have hne : text.dropWhile (· ≠ 0x20) ≠ [] := by
    intro hnil
    exact absurd (List.dropWhile_eq_nil_iff.mp hnil 0x20 hspace) (by decide)
  obtain ⟨space, rest'', hcons⟩ := List.exists_cons_of_ne_nil hne
  have hargument : argument text = rest'' := by
    rw [argument, hcons, List.drop_one, List.tail_cons]
  have hdrop : (text ++ 0 :: rest').drop ((text.takeWhile (· ≠ 0x20)).length + 1) =
      argument text ++ 0 :: rest' := by
    calc
      (text ++ 0 :: rest').drop ((text.takeWhile (· ≠ 0x20)).length + 1) =
          (text.takeWhile (· ≠ 0x20) ++
            (space :: rest'' ++ 0 :: rest')).drop
              ((text.takeWhile (· ≠ 0x20)).length + 1) := by
        rw [← hcons, ← List.append_assoc, List.takeWhile_append_dropWhile]
      _ = argument text ++ 0 :: rest' := by
        rw [List.drop_length_add_append, hargument]
        rfl
  rw [serve, hreceived, hcount]
  simp only [Option.bind_eq_bind, Option.bind_some, hdrop]
  rw [print_cons, Piece.format, chars_append hplain]
  rfl

/-- A line without a space: the server prints what lies behind the terminator. -/
theorem serve_of_name (hlength : name.length < buf.length) (rest : List Byte) :
    serve buf (name ++ 0 :: rest) =
      (chars (received (buf.drop (name.length + 1)) rest)).map
        fun shown => (shown ++ ascii ['\r', '\n'], 0) := by
  have hreceived : received buf (name ++ 0 :: rest) =
      name ++ 0 :: received (buf.drop (name.length + 1)) rest :=
    received_append (show (name ++ [0]).length ≤ buf.length from hlength) rest
  generalize received (buf.drop (name.length + 1)) rest = rest' at hreceived ⊢
  have hcount : strcspn (name ++ 0 :: rest') (ascii [' '] ++ [0]) = some name.length :=
    strcspn_singleton (by decide) (by decide) rest' []
  have hdrop : (name ++ 0 :: rest').drop (name.length + 1) = rest' :=
    List.drop_length_add_append 1
  rw [serve, hreceived, hcount]
  simp only [Option.bind_eq_bind, Option.bind_some, hdrop]
  rw [print_cons, Piece.format]
  cases chars rest' with
  | none => rfl
  | some shown => rfl

/-- A string without a terminator in the part that is received is not printed. -/
theorem serve_eq_none (htext : 0 ∉ text) (hlength : buf.length ≤ text.length)
    (rest : List Byte) : serve buf (text ++ rest) = none := by
  have hreceived : received buf (text ++ rest) = text.take buf.length := by
    rw [received, List.take_append_of_le_length hlength,
      List.drop_of_length_le (by rw [List.length_append]; omega), List.append_nil]
  have hnone : ∀ count, chars ((text.take buf.length).drop count) = none := fun _ =>
    chars_eq_none fun hmem => htext (List.mem_of_mem_take (List.mem_of_mem_drop hmem))
  rw [serve, hreceived]
  cases strcspn (text.take buf.length) (ascii [' '] ++ [0]) with
  | none => rfl
  | some count =>
      simp only [Option.bind_eq_bind, Option.bind_some]
      rw [print_cons, Piece.format, hnone]
      rfl

end Serve

end Rtk.EchoServer
