import Rtk.Invariant.Redrawing

/-!
# What the shell shows

A form feed clears the screen and shows the prompt again without the line, so that the
display agrees with the buffer as long as the line is blank at each form feed, with the
cursor in front of it.
-/

namespace Rtk.Shell

open Rtk.ByteMemory
open Rtk.Terminal
open Rtk.Transition

/-- The shell with its terminal, and the place behind the last prompt. -/
structure Session where
  repl : Repl
  screen : Screen
  origin : ℕ × ℕ

/-- A key: what the shell prints is shown.  A form feed brings a new prompt. -/
def Session.press (config : ShellConfig) (s : Session) (input : Key × Answer) :
    Option Session :=
  (s.repl.typed config input.2 input.1.bytes).map fun result =>
    let screen := s.screen.puts result.1.printed
    { repl := result.2
      screen := screen
      origin := if input.1 = .formFeed then cursorOf screen else s.origin }

/-- A key in a session, unless the shell has left its buffer. -/
def pressed (config : ShellConfig) (session : Option Session) (input : Key × Answer) :
    Option Session :=
  session.bind fun s => s.press config input

/-- The terminal shows the buffer behind the prompt, and the cursor where the shell has
it. -/
structure Session.Agrees (s : Session) : Prop where
  row : s.screen.row = s.origin.1
  col : (s.screen.col : ℤ) = s.origin.2 + s.repl.bufferPos
  text : ∀ index : ℕ, s.screen.cell s.origin.1 (s.origin.2 + index) =
    if (index : ℤ) < s.repl.length then (s.repl.buffer[index]?).getD blank else blank

def Displays (session : Option Session) : Prop := ∃ s, session = some s ∧ s.Agrees

/-- The keys that are shown: printable characters, backspace, arrows and form feeds. -/
def Displayable (_ : Option Session) (input : Key × Answer) : Prop :=
  match input.1 with
  | .char ch => Printable ch.val
  | .enter _ => False
  | _ => True

instance (session : Option Session) (input : Key × Answer) :
    Decidable (Displayable session input) :=
  match input with
  | (.char ch, _) => inferInstanceAs (Decidable (Printable ch.val))
  | (.enter _, _) => inferInstanceAs (Decidable False)
  | (.backspace, _) => inferInstanceAs (Decidable True)
  | (.arrow _, _) => inferInstanceAs (Decidable True)
  | (.formFeed, _) => inferInstanceAs (Decidable True)

/-- The cursor is in front of the line, and the line is blank. -/
def Session.Clean (s : Session) : Prop :=
  s.repl.bufferPos = 0 ∧
    ∀ index : ℕ, (index : ℤ) < s.repl.length → s.repl.buffer[index]? = some blank

/-- A form feed is only typed when the line is blank and the cursor in front of it. -/
def CleanFeeds (session : Option Session) (input : Key × Answer) : Prop :=
  input.1 = .formFeed → ∀ s, session = some s → s.Clean

/-- The shell has just shown its prompt on a row that was blank behind the cursor. -/
structure AtPrompt (config : ShellConfig) (s : Session) : Prop where
  size : (s.repl.buffer.length : ℤ) = config.commandBufferSize
  pos : s.repl.bufferPos = 0
  length : s.repl.length = 0
  control : s.repl.control = .key
  screen : ∃ t : Screen, t.control = .ground ∧ t.BlankAhead ∧
    s.screen = t.puts (prompt config s.repl.ret)
  origin : s.origin = cursorOf s.screen

section Display

variable {config : ShellConfig} {answer : Answer} {s s' : Session} {t : Screen}
  {line : Line Byte config.capacity} {origin : ℕ × ℕ}

/-- A display agrees with the buffer when it shows the line of the reference editor. -/
theorem Simulates.agrees_iff (h : Simulates config s.repl line)
    (hcontrol : s.screen.control = .ground) :
    s.Agrees ↔ Shows s.origin line s.screen := by
  have htext : ∀ index : ℕ, (if (index : ℤ) < s.repl.length then
        (s.repl.buffer[index]?).getD blank else blank) = (line.text[index]?).getD blank := by
    intro index
    rw [h.length]
    by_cases hindex : index < line.text.length
    · rw [if_pos (by omega), h.text index hindex]
    · rw [if_neg (by omega), List.getElem?_eq_none (by omega)]
      rfl
  constructor
  · intro hagrees
    refine ⟨hcontrol, hagrees.row, ?_, ?_⟩
    · have hcol := hagrees.col
      rw [h.pos] at hcol
      omega
    · intro index
      rw [hagrees.text, htext]
  · intro hshows
    refine ⟨hshows.row, ?_, ?_⟩
    · rw [hshows.col, h.pos]
      omega
    · intro index
      rw [hshows.text, htext]

theorem Simulates.clean_iff (h : Simulates config s.repl line) :
    s.Clean ↔ line.cursor = 0 ∧ ∀ index < line.text.length, line.text[index]? = some blank := by
  rw [Session.Clean, h.pos, h.length]
  constructor
  · rintro ⟨hcursor, htext⟩
    refine ⟨by omega, ?_⟩
    intro index hindex
    rw [← h.text index hindex]
    exact htext index (by omega)
  · rintro ⟨hcursor, htext⟩
    refine ⟨by omega, ?_⟩
    intro index hindex
    rw [h.text index (by omega)]
    exact htext index (by omega)

/-! ## One key -/

/-- The shell waits for a key with a line that can be shown. -/
structure Session.Tracks (config : ShellConfig) (s : Session)
    (line : Line Byte config.capacity) : Prop where
  simulates : Simulates config s.repl line
  waits : s.repl.control = .key
  ground : s.screen.control = .ground
  printable : ∀ byte ∈ line.text, Printable byte

theorem Session.Tracks.not_mem_zero (h : s.Tracks config line) : 0 ∉ line.text := by
  intro hmem
  exact absurd (h.printable 0 hmem) (by decide)

/-- A key other than a form feed is shown as it edits the line. -/
theorem Session.Tracks.exists_shown (h : s.Tracks config line)
    (hsize : 1 ≤ config.commandBufferSize) {key : Key}
    (hkey : Displayable (some s) (key, answer)) (hfeed : key ≠ .formFeed)
    (hshows : Shows s.origin line s.screen) :
    ∃ printed r', s.repl.typed config answer key.bytes =
        some (⟨printed ++ cursorLook config (key.edit line), []⟩, r') ∧
      r'.control = .key ∧ Simulates config r' (key.edit line) ∧
      Shows s.origin (key.edit line) (s.screen.puts printed) ∧
      ∀ byte ∈ (key.edit line).text, Printable byte := by
  have hkept : ∀ {line' : Line Byte config.capacity}, line'.text ⊆ line.text →
      ∀ byte ∈ line'.text, Printable byte :=
    fun hsubset byte hmem => h.printable byte (hsubset hmem)
  cases key with
  | char ch =>
      have hch : Printable ch.val := hkey
      rw [Key.bytes, typed_singleton, getc_key h.waits ch.property, Key.edit]
      by_cases hroom : line.text.length < config.capacity
      · obtain ⟨shown, r', hinsert, hcontrol, hsimulates, hplain⟩ :=
          h.simulates.insert hsize hroom ch.val
        rw [hplain h.not_mem_zero] at hinsert
        refine ⟨_, r', hinsert, hcontrol, hsimulates,
          hshows.insert hroom hch h.printable, ?_⟩
        intro byte hmem
        rw [Line.text_insert hroom, List.mem_append, List.mem_cons] at hmem
        rcases hmem with hmem | rfl | hmem
        · exact h.printable byte (List.mem_of_mem_take hmem)
        · exact hch
        · exact h.printable byte (List.mem_of_mem_drop hmem)
      · obtain ⟨r', hfinish, hcontrol, hsimulates⟩ := h.simulates.insert_full hsize hroom ch.val
        rw [Line.insert_of_full (by have := line.length_le; omega)]
        exact ⟨[], r', hfinish, hcontrol, hsimulates, hshows, h.printable⟩
  | backspace =>
      rw [Key.bytes, typed_singleton, getc_backspace h.waits, Key.edit]
      by_cases hcursor : 0 < line.cursor
      · obtain ⟨shown, r', hback, hcontrol, hsimulates, hplain⟩ :=
          h.simulates.delete hsize hcursor
        rw [hplain h.not_mem_zero] at hback
        refine ⟨_, r', hback, hcontrol, hsimulates, hshows.delete hcursor h.printable, ?_⟩
        intro byte hmem
        rw [Line.text_delete hcursor, List.mem_append] at hmem
        rcases hmem with hmem | hmem
        · exact h.printable byte (List.mem_of_mem_take hmem)
        · exact h.printable byte (List.mem_of_mem_drop hmem)
      · obtain ⟨r', hfinish, hcontrol, hsimulates⟩ := h.simulates.delete_zero hsize hcursor
        rw [Line.delete_of_zero (by omega)]
        exact ⟨[], r', hfinish, hcontrol, hsimulates, hshows, h.printable⟩
  | arrow dir =>
      obtain ⟨r', harrow, hcontrol, hsimulates⟩ := h.simulates.arrow hsize .dir dir
      rw [Key.bytes, typed_arrow h.waits]
      refine ⟨_, r', harrow, hcontrol, hsimulates, hshows.arrow dir, ?_⟩
      have htext : ((Key.arrow dir).edit line).text = line.text := by
        rw [Key.edit]
        split_ifs
        · exact line.text_right
        · exact line.text_left
        · rfl
      exact hkept (fun byte hmem => htext ▸ hmem)
  | formFeed => exact absurd rfl hfeed
  | enter newline => exact absurd hkey id

/-- A form feed shows the line only when it is blank and the cursor in front of it. -/
theorem Session.Tracks.exists_fed (h : s.Tracks config line)
    (hprompt : ∀ byte ∈ config.prompt, Printable byte) :
    ∃ s', s.press config (.formFeed, answer) = some s' ∧ s'.Tracks config line ∧
      (s'.Agrees ↔ s.Clean) := by
  obtain ⟨t', hputs, hcontrol, hblank⟩ :=
    exists_puts_formFeed h.ground hprompt s.repl.ret
  refine ⟨⟨s.repl, t', cursorOf t'⟩, ?_, ⟨h.simulates, h.waits, hcontrol, h.printable⟩, ?_⟩
  · rw [Session.press, Key.bytes, typed_singleton, getc_formFeed h.waits, Repl.formFeed,
      Option.map_some, hputs]
    rfl
  · rw [@Simulates.agrees_iff config ⟨s.repl, t', cursorOf t'⟩ line h.simulates hcontrol,
      shows_cursorOf_iff hcontrol hblank, h.simulates.clean_iff]

/-- After a key the display agrees exactly when it was no form feed on a line that is in
use. -/
theorem Session.Tracks.press (h : s.Tracks config line) (hsize : 1 ≤ config.commandBufferSize)
    (hprompt : ∀ byte ∈ config.prompt, Printable byte) {input : Key × Answer}
    (hinput : Displayable (some s) input) (hagrees : s.Agrees) :
    ∃ s', s.press config input = some s' ∧ s'.Tracks config (input.1.edit line) ∧
      (s'.Agrees ↔ (input.1 = .formFeed → s.Clean)) := by
  obtain ⟨key, answer⟩ := input
  by_cases hfeed : key = .formFeed
  · subst hfeed
    obtain ⟨s', hpress, htracks, hiff⟩ := @exists_fed config answer s line h hprompt
    exact ⟨s', hpress, htracks, hiff.trans ⟨fun hclean _ => hclean, fun himp => himp rfl⟩⟩
  · have hshows := (h.simulates.agrees_iff h.ground).mp hagrees
    obtain ⟨printed, r', htyped, hcontrol, hsimulates, hshown, hprintable⟩ :=
      h.exists_shown hsize hinput hfeed hshows
    have hlook := hshown.look (key.edit line)
    rw [← Screen.puts_append] at hlook
    refine ⟨⟨r', s.screen.puts (printed ++ cursorLook config (key.edit line)), s.origin⟩, ?_,
      ⟨hsimulates, hcontrol, hlook.control, hprintable⟩, ?_⟩
    · rw [Session.press, htyped, Option.map_some]
      simp only [hfeed, if_false]
    · refine iff_of_true ?_ fun heq => absurd heq hfeed
      exact (@Simulates.agrees_iff config ⟨r', _, s.origin⟩ _ hsimulates hlook.control).mpr hlook

theorem AtPrompt.tracks (h : AtPrompt config s)
    (hprompt : ∀ byte ∈ config.prompt, Printable byte) :
    s.Tracks config .empty ∧ s.Agrees := by
  obtain ⟨t, hcontrol, hblank, hscreen⟩ := h.screen
  obtain ⟨visible, hvisible⟩ := exists_writes_prompt hprompt s.repl.ret
  rw [hvisible t hcontrol] at hscreen
  have hground : s.screen.control = .ground := by
    rw [hscreen]
    exact hcontrol
  have hahead : s.screen.BlankAhead := by
    rw [hscreen]
    exact hblank.write visible
  have hsimulates : Simulates config s.repl .empty := by
    refine ⟨⟨h.size, h.pos, h.length, ?_⟩, fun hne => absurd rfl hne⟩
    intro index hindex
    exact absurd hindex (Nat.not_lt_zero index)
  refine ⟨⟨hsimulates, h.control, hground, ?_⟩, ?_⟩
  · intro byte hmem
    exact absurd hmem List.not_mem_nil
  · rw [hsimulates.agrees_iff hground, h.origin, shows_cursorOf_iff hground hahead]
    refine ⟨rfl, ?_⟩
    intro index hindex
    exact absurd hindex (Nat.not_lt_zero index)

/-- The display of a session at a prompt agrees after every key exactly when every form
feed is typed on a blank line with the cursor in front of it. -/
theorem displays_iff_cleanFeeds (hsize : 1 ≤ config.commandBufferSize)
    (hprompt : ∀ byte ∈ config.prompt, Printable byte) (hstart : AtPrompt config s)
    {keys : List (Key × Answer)}
    (hkeys : EachStep (pressed config) Displayable (some s) keys) :
    Throughout (pressed config) Displays (some s) keys ↔
      EachStep (pressed config) CleanFeeds (some s) keys := by
  obtain ⟨htracks, hagrees⟩ := hstart.tracks hprompt
  apply @throughout_iff _ _ (pressed config)
    (fun session => ∃ s line, session = some s ∧ Session.Tracks config s line) Displays
    Displayable CleanFeeds (some s) keys ⟨s, .empty, rfl, htracks⟩ ⟨s, rfl, hagrees⟩
  · rintro _ input ⟨s, line, rfl, h⟩ ⟨same, heq, hagrees⟩ hinput hclean
    obtain rfl := Option.some.inj heq
    obtain ⟨s', hpress, hnext, hiff⟩ := h.press hsize hprompt hinput hagrees
    exact ⟨⟨s', _, hpress, hnext⟩, s', hpress, hiff.mpr fun hfeed => hclean hfeed s rfl⟩
  · rintro _ input ⟨s, line, rfl, h⟩ ⟨same, heq, hagrees⟩ hinput ⟨s', hpressed, hagrees'⟩
    obtain rfl := Option.some.inj heq
    obtain ⟨found, hpress, _, hiff⟩ := h.press hsize hprompt hinput hagrees
    have hsame : s.press config input = some s' := hpressed
    obtain rfl := Option.some.inj (hpress.symm.trans hsame)
    intro hfeed other hother
    obtain rfl := Option.some.inj hother
    exact hiff.mp hagrees' hfeed
  · exact hkeys

end Display

def sampleScreen : Screen := ⟨fun _ _ => blank, 0, 0, .ground⟩

def sampleSession : Session :=
  let screen := sampleScreen.puts (prompt sampleConfig 0)
  ⟨sampleRepl, screen, cursorOf screen⟩

theorem sampleSession_atPrompt : AtPrompt sampleConfig sampleSession :=
  ⟨rfl, rfl, rfl, rfl, ⟨sampleScreen, rfl, fun _ _ => rfl, rfl⟩, rfl⟩

/-- The keys of a line that is edited in the middle behind a form feed. -/
def sampleKeys : List (Key × Answer) :=
  ([Key.formFeed] ++ keysOf ['a', 'b'] ++ [Key.arrow 0x44] ++ keysOf ['c'] ++
    [Key.backspace]).map fun key => (key, sampleAnswer)

theorem displays_sample :
    Throughout (pressed sampleConfig) Displays (some sampleSession) sampleKeys := by
  apply (displays_iff_cleanFeeds (by decide) (by decide) sampleSession_atPrompt
    (by decide)).mpr
  refine ⟨?_, ?_, ?_, ?_, ?_, ?_, trivial⟩
  · intro _ s hs
    obtain rfl := Option.some.inj hs
    refine ⟨rfl, ?_⟩
    intro index hindex
    exact absurd hindex (by simp [sampleSession, sampleRepl])
  all_goals exact fun hfeed => absurd hfeed (by decide)

/-- A character and a form feed. -/
def feedKeys : List (Key × Answer) :=
  (keysOf ['a'] ++ [Key.formFeed]).map fun key => (key, sampleAnswer)

/-- A form feed behind a character leaves a line that is not shown. -/
theorem not_displays_formFeed :
    ¬∀ (config : ShellConfig) (s : Session) (keys : List (Key × Answer)),
      1 ≤ config.commandBufferSize → (∀ byte ∈ config.prompt, Printable byte) →
        AtPrompt config s → EachStep (pressed config) Displayable (some s) keys →
          Throughout (pressed config) Displays (some s) keys := by
  intro hclaim
  have hthroughout := hclaim sampleConfig sampleSession feedKeys (by decide) (by decide)
    sampleSession_atPrompt (by decide)
  obtain ⟨s, hlast, hagrees⟩ := hthroughout.last
  have hvalues : (feedKeys.foldl (pressed sampleConfig) (some sampleSession)).map (fun s =>
      (s.screen.cell s.origin.1 s.origin.2, s.repl.length, s.repl.buffer[0]?)) =
      some (blank, 1, some 0x61) := by decide +kernel
  rw [hlast, Option.map_some, Option.some.injEq, Prod.mk.injEq, Prod.mk.injEq] at hvalues
  obtain ⟨hcell, hlength, hbuffer⟩ := hvalues
  have htext := hagrees.text 0
  rw [Nat.add_zero, hcell, hlength, hbuffer] at htext
  exact absurd htext (by decide)

end Rtk.Shell
