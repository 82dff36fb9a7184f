import Mathlib.Data.List.Induction
import Rtk.Properties.Editor
import Rtk.Usr.EchoServer

/-!
# What the echo server prints for a command line

The shell sends its whole buffer, with what earlier lines left in it.  The echo server
starts printing behind the first word and the character that follows it, which is the
terminator when the line has no space.
-/

namespace Rtk.Shell

open Rtk.ByteMemory
open Rtk.CString
open Rtk.Print
open Rtk.Transition

/-- The shell waits for a key behind the line `text`, whatever was typed before. -/
def Waits (config : ShellConfig) (text : List Byte) (r : Repl) : Prop :=
  r.control = .key ∧ ∃ line : Line Byte config.capacity, line.text = text ∧
    Reachable (edited config) (fun _ _ => True) (r, line)

/-- What the echo server prints when the return key is typed and `buf` is what it finds in
its array. -/
def echoed (config : ShellConfig) (r : Repl) (newline : Bool) (answer : Answer)
    (buf : List Byte) : Option (List Byte) := do
  let (effect, _) ← r.typed config answer (Key.enter newline).bytes
  let handled ← effect.handled.head?
  if handled.command = EchoServer.name then
    let (_, msg) ← handled.sent
    let (printed, _) ← EchoServer.serve buf msg
    return printed
  else none

def spelled (text : List Byte) : List Byte := text.takeWhile (· ≠ 0)

/-- After any two histories the echo server prints what follows the first space of the
line. -/
def EchoesOwn (config : ShellConfig) (text : List Byte) : Prop :=
  ∀ r r' newline newline' (answer answer' : Answer) (buf buf' : List Byte),
    Waits config text r → Waits config text r' →
      0 ≤ answer.handlerTid → 0 ≤ answer'.handlerTid →
        buf.length = EchoServer.bufSize → buf'.length = EchoServer.bufSize →
          echoed config r newline answer buf =
              some (EchoServer.argument (spelled text) ++ ascii ['\r', '\n']) ∧
            echoed config r' newline' answer' buf' = echoed config r newline answer buf

/-- A terminator was typed behind `echo`, and nothing or a second one behind it. -/
def EndsTwice (text : List Byte) : Prop := (text ++ [0])[EchoServer.name.length + 1]? = some 0

theorem zero_notMem_spelled (text : List Byte) : 0 ∉ spelled text := by
  intro hmem
  exact absurd (List.mem_takeWhile_imp hmem) (by decide)

/-- The string that the shell finds in its buffer. -/
theorem exists_spelled (text rest : List Byte) :
    ∃ rest', text ++ 0 :: rest = spelled text ++ 0 :: rest' := by
  induction text with
  | nil => exact ⟨rest, rfl⟩
  | cons byte text ih =>
      obtain ⟨rest', hspelled⟩ := ih
      by_cases hbyte : byte = 0
      · subst byte
        exact ⟨text ++ 0 :: rest, rfl⟩
      · refine ⟨rest', ?_⟩
        rw [spelled, List.takeWhile_cons_of_pos (by simpa using hbyte), List.cons_append,
          hspelled]
        rfl

section Echo

variable {config : ShellConfig} {answer : Answer} {r r' : Repl} {newline : Bool}
  {line : Line Byte config.capacity} {text buf : List Byte}

/-- At the return key a line other than `exit` is handled. -/
theorem Simulates.exists_handled {rest : List Byte} (h : Simulates config r line)
    (hcontrol : r.control = .key) (hplain : 0 ∉ text) (hbuffer : r.buffer = text ++ 0 :: rest)
    (hsome : line.text ≠ []) (hexit : text ≠ ascii ['e', 'x', 'i', 't']) (newline : Bool)
    (answer : Answer) :
    ∃ effect r' handled, r.typed config answer (Key.enter newline).bytes =
        some (effect, r') ∧
      effect.handled = [handled] ∧ handle r.buffer answer = some handled := by
  obtain ⟨difference, hcompare⟩ :=
    exists_strcmp text rest (ascii ['e', 'x', 'i', 't']) []
  have hdiffers : difference ≠ 0 := by
    rw [ne_eq, strcmp_append hplain (by decide) hcompare]
    exact hexit
  obtain ⟨handled, hhandle, _⟩ := exists_handle hplain rest answer
  have hlength : r.length ≠ 0 := by
    rw [h.length]
    exact_mod_cast (List.length_pos_of_ne_nil hsome).ne'
  rw [← hbuffer] at hcompare hhandle
  rw [Key.bytes, typed_singleton, getc_enter hcontrol, Repl.enter, if_neg hlength]
  simp only [hcompare, hhandle, hdiffers, Option.bind_eq_bind, Option.bind_some,
    Option.pure_def, if_false]
  split_ifs
  · exact ⟨_, _, handled, rfl, rfl, rfl⟩
  · exact ⟨_, _, handled, rfl, rfl, rfl⟩

/-- The echo server is sent the whole buffer of the shell. -/
theorem Simulates.echoed_eq (h : Simulates config r line) (hcontrol : r.control = .key)
    (hfirst : firstWord (spelled line.text) = EchoServer.name)
    (hserver : 0 ≤ answer.handlerTid) (newline : Bool) (buf : List Byte) :
    echoed config r newline answer buf =
      (EchoServer.serve buf r.buffer).map Prod.fst := by
  have hplain := zero_notMem_spelled line.text
  have hsome : line.text ≠ [] := by
    intro hnil
    rw [hnil] at hfirst
    exact absurd hfirst (by decide)
  have hexit : spelled line.text ≠ ascii ['e', 'x', 'i', 't'] := by
    intro heq
    rw [heq] at hfirst
    exact absurd hfirst (by decide)
  obtain ⟨tail, htail⟩ := h.exists_rest hsome
  obtain ⟨rest, hrest⟩ := exists_spelled line.text tail
  have hbuffer := htail.trans hrest
  obtain ⟨effect, r', handled, htyped, heffect, hhandle⟩ :=
    h.exists_handled hcontrol hplain hbuffer hsome hexit newline answer
  obtain ⟨same, hsame, hcommand, hsent⟩ := exists_handle hplain rest answer
  rw [hbuffer, hsame, Option.some.injEq] at hhandle
  subst handled
  have hmessage := hsent (by rw [errInvalidNameserverTid]; omega)
    (by rw [errLookupFailed]; omega)
  rw [hfirst] at hcommand
  rw [echoed, htyped]
  simp only [Option.bind_eq_bind, Option.bind_some, heffect, List.head?_cons, hcommand,
    if_true, hmessage, hbuffer]
  cases EchoServer.serve buf (spelled line.text ++ 0 :: rest) with
  | none => rfl
  | some served => rfl

/-- A line of ordinary characters can be typed, and leaves the rest of the buffer. -/
theorem exists_typed {buffer : List Byte}
    (hbuffer : (buffer.length : ℤ) = config.commandBufferSize)
    (hsize : 1 ≤ config.commandBufferSize) (htext : ∀ byte ∈ text, Ordinary byte)
    (hfits : text.length ≤ config.capacity) :
    ∃ (r : Repl) (line : Line Byte config.capacity),
      Reachable (edited config) (fun _ _ => True) (r, line) ∧ r.control = .key ∧
        line.text = text ∧ line.cursor = text.length ∧
        r.buffer.drop (text.length + 1) = buffer.drop (text.length + 1) := by
  induction text using List.reverseRecOn with
  | nil =>
      exact ⟨⟨buffer, 0, 0, 0, .key⟩, .empty, .initial ⟨⟨hbuffer, rfl, rfl, rfl, rfl⟩, rfl⟩,
        rfl, rfl, rfl, rfl⟩
  | append_singleton text ch ih =>
      rw [List.length_append, List.length_singleton] at hfits
      obtain ⟨r, line, hreachable, hcontrol, hline, hcursor, hrest⟩ :=
        ih (fun byte hmem => htext byte (List.mem_append_left _ hmem)) (by omega)
      have hch : Ordinary ch := htext ch (List.mem_append_right _ List.mem_cons_self)
      have hroom : line.text.length < config.capacity := by
        rw [hline]
        omega
      have hsimulates := tracked_of_reachable hsize hreachable
      obtain ⟨_, r', hinsert, hcontrol', _⟩ := hsimulates.insert hsize hroom ch
      obtain ⟨_, same, hsame, hdrop⟩ :=
        hsimulates.exists_insert_end hsize hroom (by rw [hcursor, hline]) ch
      rw [hinsert, Option.some.injEq, Prod.mk.injEq] at hsame
      obtain ⟨_, rfl⟩ := hsame
      have hstep : (edited config).step (r, line) (.char ⟨ch, hch⟩, ⟨0, 0, none, fun _ => 0⟩)
          (r', line.insert ch) := by
        have htyped : r.typed config ⟨0, 0, none, fun _ => 0⟩ (Key.char ⟨ch, hch⟩).bytes =
            r.insert config ch := by
          rw [Key.bytes, typed_singleton, getc_key hcontrol hch]
        exact ⟨⟨hcontrol, _, htyped.trans hinsert⟩, rfl⟩
      refine ⟨r', line.insert ch, hreachable.step trivial hstep, hcontrol', ?_, ?_, ?_⟩
      · rw [Line.text_insert hroom, hcursor, hline, List.take_length, List.drop_length]
      · rw [Line.cursor_insert hroom, hcursor, List.length_append, List.length_singleton]
      · rw [hline] at hdrop
        rw [List.length_append, List.length_singleton, hdrop]
        calc
          r.buffer.drop (text.length + 1 + 1) = (r.buffer.drop (text.length + 1)).drop 1 :=
            List.drop_drop.symm
          _ = (buffer.drop (text.length + 1)).drop 1 := by rw [hrest]
          _ = buffer.drop (text.length + 1 + 1) := List.drop_drop

/-! ## What is printed -/

theorem Waits.exists_served (h : Waits config text r) (hsize : 1 ≤ config.commandBufferSize)
    (hfirst : firstWord (spelled text) = EchoServer.name) (hserver : 0 ≤ answer.handlerTid)
    (newline : Bool) (buf : List Byte) :
    ∃ rest, r.buffer = text ++ 0 :: rest ∧ echoed config r newline answer buf =
      (EchoServer.serve buf (text ++ 0 :: rest)).map Prod.fst := by
  obtain ⟨hcontrol, line, rfl, hreachable⟩ := h
  have hsimulates := tracked_of_reachable hsize hreachable
  have hsome : line.text ≠ [] := by
    intro hnil
    rw [hnil] at hfirst
    exact absurd hfirst (by decide)
  obtain ⟨rest, hbuffer⟩ := hsimulates.exists_rest hsome
  refine ⟨rest, hbuffer, ?_⟩
  rw [hsimulates.echoed_eq hcontrol hfirst hserver, hbuffer]

/-- The line `echo` without a space. -/
theorem spelled_eq_name (hfirst : firstWord (spelled text) = EchoServer.name)
    (hspace : (0x20 : Byte) ∉ spelled text) : spelled text = EchoServer.name := by
  have hall : ∀ byte ∈ spelled text, decide (byte ≠ 0x20) = true := by
    intro byte hmem
    rw [decide_eq_true_eq]
    rintro rfl
    exact hspace hmem
  rw [← hfirst, firstWord, List.takeWhile_eq_self_iff.mpr hall]

theorem served_of_space (hspace : (0x20 : Byte) ∈ spelled text)
    (hlength : (spelled text).length < buf.length) (rest : List Byte) :
    EchoServer.serve buf (text ++ 0 :: rest) =
      some (EchoServer.argument (spelled text) ++ ascii ['\r', '\n'], 0) := by
  obtain ⟨rest', hspelled⟩ := exists_spelled text rest
  rw [hspelled]
  exact EchoServer.serve_of_space (zero_notMem_spelled text) hspace hlength rest'

/-- A line that is too long for the array. -/
theorem served_of_long (hlength : buf.length ≤ (spelled text).length) (rest : List Byte) :
    EchoServer.serve buf (text ++ 0 :: rest) = none := by
  obtain ⟨rest', hspelled⟩ := exists_spelled text rest
  rw [hspelled]
  exact EchoServer.serve_eq_none (zero_notMem_spelled text) hlength (0 :: rest')

/-- What lies behind the first terminator. -/
theorem exists_behind (hname : spelled text = EchoServer.name) (rest : List Byte) :
    ∃ behind, text ++ 0 :: rest = EchoServer.name ++ 0 :: behind ∧
      behind.head? = (text ++ 0 :: rest)[EchoServer.name.length + 1]? := by
  obtain ⟨behind, hspelled⟩ := exists_spelled text rest
  rw [hname] at hspelled
  refine ⟨behind, hspelled, ?_⟩
  rw [hspelled, List.getElem?_append_right (Nat.le_succ _), Nat.succ_sub (Nat.le_refl _),
    Nat.sub_self, List.getElem?_cons_succ, List.head?_eq_getElem?]

theorem served_of_endsTwice (hname : spelled text = EchoServer.name) (htwice : EndsTwice text)
    (hbuf : buf.length = EchoServer.bufSize) (rest : List Byte) :
    EchoServer.serve buf (text ++ 0 :: rest) = some (ascii ['\r', '\n'], 0) := by
  obtain ⟨behind, hbehind, hhead⟩ := exists_behind hname rest
  have hzero : (text ++ 0 :: rest)[EchoServer.name.length + 1]? = some 0 := by
    obtain ⟨hinside, _⟩ := List.getElem?_eq_some_iff.mp htwice
    calc
      (text ++ 0 :: rest)[EchoServer.name.length + 1]? =
          ((text ++ [0]) ++ rest)[EchoServer.name.length + 1]? := by
        rw [List.append_assoc, List.singleton_append]
      _ = (text ++ [0])[EchoServer.name.length + 1]? := List.getElem?_append_left hinside
      _ = some 0 := htwice
  obtain ⟨behind', rfl⟩ := List.head?_eq_some_iff.mp (hhead.trans hzero)
  have hroom : buf.drop (EchoServer.name.length + 1) ≠ [] := by
    apply List.ne_nil_of_length_pos
    rw [List.length_drop, hbuf]
    decide
  rw [hbehind, EchoServer.serve_of_name (by rw [hbuf]; decide),
    EchoServer.received_cons 0 behind' hroom, chars, if_pos rfl]
  rfl

/-- When no terminator lies behind the first one, something else is printed. -/
theorem served_of_behind {behind : List Byte} (hplain : 0 ∉ buf)
    (hbuf : buf.length = EchoServer.bufSize) (hbehind : behind.head? ≠ some 0) :
    (EchoServer.serve buf (EchoServer.name ++ 0 :: behind)).map Prod.fst ≠
      some (ascii ['\r', '\n']) := by
  have hroom : buf.drop (EchoServer.name.length + 1) ≠ [] := by
    apply List.ne_nil_of_length_pos
    rw [List.length_drop, hbuf]
    decide
  rw [EchoServer.serve_of_name (by rw [hbuf]; decide)]
  cases behind with
  | nil =>
      have hrest : EchoServer.received (buf.drop (EchoServer.name.length + 1)) [] =
          buf.drop (EchoServer.name.length + 1) := by
        rw [EchoServer.received, List.take_nil, List.nil_append, List.length_nil,
          List.drop_zero]
      rw [hrest, EchoServer.chars_eq_none fun hmem => hplain (List.mem_of_mem_drop hmem)]
      exact (Option.some_ne_none _).symm
  | cons first behind =>
      have hfirst : first ≠ 0 := fun hzero => hbehind (congrArg some hzero)
      rw [EchoServer.received_cons first behind hroom, chars, if_neg hfirst]
      intro hprinted
      obtain ⟨_, hmapped, hshown⟩ := Option.map_eq_some_iff.mp hprinted
      obtain ⟨shown, hspelled, rfl⟩ := Option.map_eq_some_iff.mp hmapped
      obtain ⟨more, _, rfl⟩ := Option.map_eq_some_iff.mp hspelled
      have hlength := congrArg List.length hshown
      rw [List.cons_append, List.length_cons, List.length_append] at hlength
      omega

end Echo

section Main

variable {config : ShellConfig} {text : List Byte}

/-- A line `echo` without a second terminator, in a buffer that held no terminator, has
none behind the first one. -/
theorem head?_ne_zero {buffer behind rest : List Byte} (honce : ¬EndsTwice text)
    (hplain : 0 ∉ buffer)
    (hdrop : (text ++ 0 :: rest).drop (text.length + 1) = buffer.drop (text.length + 1))
    (hhead : behind.head? = (text ++ 0 :: rest)[EchoServer.name.length + 1]?) :
    behind.head? ≠ some 0 := by
  rw [hhead]
  by_cases hinside : EchoServer.name.length + 1 < (text ++ [0]).length
  · have hagree : (text ++ 0 :: rest)[EchoServer.name.length + 1]? =
        (text ++ [0])[EchoServer.name.length + 1]? := by
      rw [← List.getElem?_append_left hinside, List.append_assoc, List.singleton_append]
    rw [hagree]
    exact honce
  · have hle : text.length + 1 ≤ EchoServer.name.length + 1 := by
      rw [List.length_append, List.length_singleton] at hinside
      omega
    obtain ⟨more, hmore⟩ := Nat.exists_eq_add_of_le hle
    intro hzero
    rw [hmore, ← List.getElem?_drop, hdrop] at hzero
    exact hplain (List.mem_of_mem_drop (List.mem_of_getElem? hzero))

/-- The echo server prints what follows the first space of a line, whatever was typed before,
exactly when the line has a space and fits into its array, or ends with two terminators. -/
theorem echoesOwn_iff (hsize : 1 ≤ config.commandBufferSize)
    (htext : ∀ byte ∈ text, Ordinary byte) (hfits : text.length ≤ config.capacity)
    (hfirst : firstWord (spelled text) = EchoServer.name) :
    EchoesOwn config text ↔
      (0x20 ∈ spelled text ∧ (spelled text).length < EchoServer.bufSize) ∨
        (0x20 ∉ spelled text ∧ EndsTwice text) := by
  constructor
  · intro hown
    -- A history that leaves no terminator in either array.
    have hplain : ∀ count : ℕ, (0 : Byte) ∉ List.replicate count 0x78 := fun count hmem =>
      absurd (List.eq_of_mem_replicate hmem) (by decide)
    have hbuffer : ((List.replicate config.commandBufferSize.toNat (0x78 : Byte)).length : ℤ) =
        config.commandBufferSize := by
      rw [List.length_replicate]
      omega
    obtain ⟨r, line, hreachable, hcontrol, hline, _, hdrop⟩ :=
      exists_typed hbuffer hsize htext hfits
    have hwaits : Waits config text r := ⟨hcontrol, line, hline, hreachable⟩
    have hprinted := (hown r r false false ⟨0, 0, none, fun _ => 0⟩ ⟨0, 0, none, fun _ => 0⟩
      (List.replicate EchoServer.bufSize 0x78) (List.replicate EchoServer.bufSize 0x78) hwaits
      hwaits (Int.le_refl 0) (Int.le_refl 0) List.length_replicate List.length_replicate).1
    obtain ⟨rest, hrest, hserved⟩ := @Waits.exists_served config ⟨0, 0, none, fun _ => 0⟩ r
      text hwaits hsize hfirst (Int.le_refl 0) false (List.replicate EchoServer.bufSize 0x78)
    rw [hserved] at hprinted
    by_cases hspace : (0x20 : Byte) ∈ spelled text
    · refine .inl ⟨hspace, ?_⟩
      by_contra hlong
      rw [served_of_long (by rw [List.length_replicate]; omega)] at hprinted
      exact absurd hprinted.symm (Option.some_ne_none _)
    · refine .inr ⟨hspace, ?_⟩
      by_contra honce
      have hname := spelled_eq_name hfirst hspace
      obtain ⟨behind, hbehind, hhead⟩ := exists_behind hname rest
      rw [hrest] at hdrop
      rw [hname, hbehind] at hprinted
      exact served_of_behind (hplain _) List.length_replicate
        (head?_ne_zero honce (hplain _) hdrop hhead) hprinted
  · intro hkinds r r' newline newline' answer answer' buf buf' h h' hserver hserver' hbuf hbuf'
    have hserved : ∀ rest (found : List Byte), found.length = EchoServer.bufSize →
        (EchoServer.serve found (text ++ 0 :: rest)).map Prod.fst =
          some (EchoServer.argument (spelled text) ++ ascii ['\r', '\n']) := by
      intro rest found hfound
      obtain ⟨hspace, hlength⟩ | ⟨hspace, htwice⟩ := hkinds
      · rw [served_of_space hspace (by omega)]
        rfl
      · have hname := spelled_eq_name hfirst hspace
        rw [served_of_endsTwice hname htwice hfound, hname]
        rfl
    obtain ⟨rest, _, hleft⟩ := h.exists_served hsize hfirst hserver newline buf
    obtain ⟨rest', _, hright⟩ := h'.exists_served hsize hfirst hserver' newline' buf'
    rw [hleft, hright, hserved rest buf hbuf, hserved rest' buf' hbuf']
    exact ⟨rfl, rfl⟩

/-! ## The shell that `Init` configures -/

def initConfig : ShellConfig := ⟨ascii ['$', ' '], 128⟩

theorem echoesOwn_argument : EchoesOwn initConfig (ascii ['e', 'c', 'h', 'o', ' ', 'a']) :=
  (echoesOwn_iff (by decide) (by decide) (by decide) (by decide)).mpr
    (.inl ⟨by decide, by decide⟩)

/-- The keys of two lines, the first with an argument and the second without. -/
def leftoverKeys : List (Key × Answer) :=
  (keysOf ['e', 'c', 'h', 'o', ' ', 'h', 'i'] ++ [Key.enter false] ++
    keysOf ['e', 'c', 'h', 'o']).map fun key => (key, sampleAnswer)

/-- For `echo` without an argument the server prints the one of the line before. -/
theorem not_echoesOwn :
    ∃ r, Waits initConfig (ascii ['e', 'c', 'h', 'o']) r ∧
      echoed initConfig r false sampleAnswer (List.replicate EchoServer.bufSize 0) =
        some (ascii ['h', 'i', '\r', '\n']) ∧
      ¬EchoesOwn initConfig (ascii ['e', 'c', 'h', 'o']) := by
  have htyped : (typeKeys initConfig (⟨List.replicate 128 0, 0, 0, 0, .key⟩, .empty)
      leftoverKeys).map (fun state => (state.2.text, state.1.control,
        echoed initConfig state.1 false sampleAnswer (List.replicate EchoServer.bufSize 0))) =
      some (ascii ['e', 'c', 'h', 'o'], .key, some (ascii ['h', 'i', '\r', '\n'])) := by
    decide +kernel
  obtain ⟨⟨r, line⟩, hkeys, hvalues⟩ := Option.map_eq_some_iff.mp htyped
  obtain ⟨htext, hvalues'⟩ := Prod.mk.inj hvalues
  obtain ⟨hcontrol, hechoed⟩ := Prod.mk.inj hvalues'
  have hstart : Reachable (edited initConfig) (fun _ _ => True)
      (⟨List.replicate 128 0, 0, 0, 0, .key⟩, .empty) :=
    .initial ⟨⟨rfl, rfl, rfl, rfl, rfl⟩, rfl⟩
  have hwaits : Waits initConfig (ascii ['e', 'c', 'h', 'o']) r :=
    ⟨hcontrol, line, htext, reachable_of_typeKeys hstart hkeys⟩
  refine ⟨r, hwaits, hechoed, ?_⟩
  intro hown
  have hprinted := (hown r r false false sampleAnswer sampleAnswer
    (List.replicate EchoServer.bufSize 0) (List.replicate EchoServer.bufSize 0) hwaits hwaits
    (Int.le_refl 0) (Int.le_refl 0) List.length_replicate List.length_replicate).1
  rw [hechoed] at hprinted
  exact absurd hprinted (by decide)

end Main

end Rtk.Shell
