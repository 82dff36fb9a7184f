import Rtk.Invariant.LineBuffer

/-!
# The line editor of the shell

After every key the buffer and the indices of `Repl` are those of the reference editor,
and no key makes the shell leave the buffer.
-/

namespace Rtk.Shell

open Rtk.ByteMemory
open Rtk.Print
open Rtk.Transition

def edited (config : ShellConfig) : System (Repl × Line Byte config.capacity) (Key × Answer) :=
  (shell config).recording (fun _ => .empty) fun _ input _ line => input.1.edit line

theorem Starts.simulates {config : ShellConfig} {r : Repl} (h : Starts config r) :
    Simulates config r .empty := by
  obtain ⟨hsize, hpos, hlength, hret, hcontrol⟩ := h
  refine ⟨⟨hsize, hpos, hlength, ?_⟩, fun hne => absurd rfl hne⟩
  intro index hindex
  exact absurd hindex (Nat.not_lt_zero index)

/-! ## Keys one after the other -/

def typeKeys (config : ShellConfig) :
    Repl × Line Byte config.capacity → List (Key × Answer) →
      Option (Repl × Line Byte config.capacity)
  | state, [] => some state
  | (r, line), (key, answer) :: rest =>
      if r.control = .key then
        (r.typed config answer key.bytes).bind fun result =>
          typeKeys config (result.2, key.edit line) rest
      else none

theorem reachable_of_typeKeys {config : ShellConfig}
    {state state' : Repl × Line Byte config.capacity} {keys : List (Key × Answer)}
    (hreachable : Reachable (edited config) (fun _ _ => True) state)
    (hkeys : typeKeys config state keys = some state') :
    Reachable (edited config) (fun _ _ => True) state' := by
  induction keys generalizing state with
  | nil =>
      rw [typeKeys, Option.some.injEq] at hkeys
      exact hkeys ▸ hreachable
  | cons input rest ih =>
      obtain ⟨key, answer⟩ := input
      obtain ⟨r, line⟩ := state
      rw [typeKeys, Option.ite_none_right_eq_some, Option.bind_eq_some_iff] at hkeys
      obtain ⟨hcontrol, ⟨effect, r'⟩, htyped, hrest⟩ := hkeys
      have hstep : (edited config).step (r, line) (key, answer) (r', key.edit line) :=
        ⟨⟨hcontrol, effect, htyped⟩, rfl⟩
      exact ih (hreachable.step trivial hstep) hrest

theorem tracked_of_reachable {config : ShellConfig} (hsize : 1 ≤ config.commandBufferSize)
    {r : Repl} {line : Line Byte config.capacity}
    (hreachable : Reachable (edited config) (fun _ _ => True) (r, line)) :
    Simulates config r line := by
  apply @Reachable.recorded_invariant _ _ (shell config) (fun _ _ => True) _ _ _
    (Simulates config) r line hreachable
  · exact fun r hstarts => hstarts.simulates
  · rintro r ⟨key, answer⟩ r' line h _ ⟨hcontrol, effect, htyped⟩
    obtain ⟨_, final, hfinal, hedited⟩ := h.typed hsize hcontrol key answer
    rw [hfinal, Option.some.injEq, Prod.mk.injEq] at htyped
    rw [← htyped.2]
    exact hedited

/-- After every key the buffer and the indices of the shell are those of the reference
editor, with a terminator behind the text, and no key makes it leave the buffer. -/
theorem simulates_of_reachable {config : ShellConfig} (hsize : 1 ≤ config.commandBufferSize)
    {r : Repl} {line : Line Byte config.capacity}
    (hreachable : Reachable (edited config) (fun _ _ => True) (r, line)) :
    Simulates config r line ∧
      (0 ≤ r.bufferPos ∧ r.bufferPos ≤ r.length ∧
        r.length ≤ config.commandBufferSize - 1) ∧
      (line.text ≠ [] → ∃ rest, r.buffer = line.text ++ 0 :: rest) ∧
      (r.control = .key → ∀ (key : Key) (answer : Answer),
        ∃ effect r', r.typed config answer key.bytes = some (effect, r')) := by
  have hsimulates := tracked_of_reachable hsize hreachable
  have hcapacity := ShellConfig.capacity_eq hsize
  have hcursor := line.cursor_le
  have hlength := line.length_le
  refine ⟨hsimulates, ?_, hsimulates.exists_rest, ?_⟩
  · rw [hsimulates.pos, hsimulates.length]
    omega
  · intro hcontrol key answer
    obtain ⟨effect, r', htyped, _⟩ := hsimulates.typed hsize hcontrol key answer
    exact ⟨effect, r', htyped⟩

/-- The theorem for a line that is filled up in the middle. -/
theorem simulates_sample :
    ∃ r line, line.text = ascii ['a', 'c', 'b'] ∧ r.buffer = ascii ['a', 'c', 'b'] ++ [0] ∧
      Simulates sampleConfig r line := by
  have htyped : (typeKeys sampleConfig (sampleRepl, .empty)
      ((keysOf ['a', 'b'] ++ [Key.arrow 0x44] ++ keysOf ['c', 'd']).map
        fun key => (key, sampleAnswer))).map (fun state => (state.2.text, state.1.buffer)) =
      some (ascii ['a', 'c', 'b'], ascii ['a', 'c', 'b'] ++ [0]) := by decide
  obtain ⟨⟨r, line⟩, hkeys, hvalues⟩ := Option.map_eq_some_iff.mp htyped
  obtain ⟨htext, hbuffer⟩ := Prod.mk.inj hvalues
  have hstart : Reachable (edited sampleConfig) (fun _ _ => True) (sampleRepl, .empty) :=
    .initial ⟨⟨rfl, rfl, rfl, rfl, rfl⟩, rfl⟩
  exact ⟨r, line, htext, hbuffer,
    (simulates_of_reachable (by decide) (reachable_of_typeKeys hstart hkeys)).1⟩

end Rtk.Shell
