import Rtk.Lib.Format

/-!
# Formatting

What `tfp_format` makes of a format string: the plain characters, and for each conversion its
argument as a numeral or a string, padded to the width.
-/

namespace Rtk.Format

open Rtk.ByteMemory
open Rtk.Numeral
open Rtk.Print (ascii Piece print)

/-! ## Directives -/

inductive Conversion where
  | percent
  | unsigned (value : Word)
  | signed (value : Word)
  | hex (upper : Bool) (value : Word)
  | character (value : Word)
  | string (text rest : List Byte) (htext : 0 ∉ text)

namespace Conversion

def ch : Conversion → Byte
  | percent => 37
  | unsigned _ => 117
  | signed _ => 100
  | hex upper _ => if upper then 88 else 120
  | character _ => 99
  | string _ _ _ => 115

def args : Conversion → List Arg
  | percent => []
  | unsigned value | signed value | hex _ value | character value => [.num value]
  | string text rest _ => [.str (text ++ 0 :: rest)]

/-- What a conversion shows.  A number may be padded with zeros, which then stand in front of
its sign. -/
def shown (field : Field) : Conversion → List Byte
  | percent => [37]
  | unsigned value =>
      padded field.width (if field.lz then 48 else 32)
        ((numeral 10 value.toNat).map (digit false))
  | signed value => padded field.width (if field.lz then 48 else 32) (decimal value.toInt)
  | hex upper value =>
      padded field.width (if field.lz then 48 else 32)
        ((numeral 16 value.toNat).map (digit upper))
  | character value => [value.truncate 8]
  | string text _ _ => padded field.width 32 text

end Conversion

inductive Directive where
  | plain (ch : Byte) (hch : ch ≠ 0 ∧ ch ≠ 37)
  | conversion (field : Field) (c : Conversion)

namespace Directive

def spelling : Directive → List Byte
  | plain ch _ => [ch]
  | conversion field c => 37 :: (field.spelling ++ [c.ch])

def args : Directive → List Arg
  | plain _ _ => []
  | conversion _ c => c.args

def shown : Directive → List Byte
  | plain ch _ => [ch]
  | conversion field c => c.shown field

end Directive

section Convert

variable {f : Flags} {string : Word → List Byte} {value : Word} {args : List Arg}

/-- A number that fits the buffer is shown in its field. -/
theorem convertNum_eq {text : List Byte} (htext : string value = text)
    (hfits : text.length < 12) (hplain : 0 ∉ text) :
    convertNum f string (.num value :: args) =
      some (padded f.w (if f.lz then 48 else 32) text, args) := by
  rw [convertNum, vaNum, Option.bind_some]
  simp only [htext, bf, if_pos hfits, Option.bind_some, putchw_eq hplain, Option.map_some]

theorem zero_notMem_decimal (value : ℤ) : 0 ∉ decimal value := by
  rw [decimal, List.mem_append, not_or]
  refine ⟨?_, zero_notMem_numeral (by omega) (by omega) _ _⟩
  split_ifs <;> decide

theorem length_numeral_map (b : ℕ) (hb : 10 ≤ b) (value : Word) (uc : Bool) :
    ((numeral b value.toNat).map (digit uc)).length < 12 := by
  have hlength := length_numeral_word hb value.isLt
  rw [List.length_map]
  omega

/-- `tfp_format` converts its next argument. -/
theorem convert_eq (field : Field) (c : Conversion) (args : List Arg) :
    convert field.flags c.ch (c.args ++ args) = some (c.shown field, args) := by
  have hten : 1 < (10 : Word).toNat := by decide
  have hsixteen : 1 < (16 : Word).toNat := by decide
  cases c with
  | percent => rfl
  | unsigned value =>
      exact @convertNum_eq _ (fun value => ui2a value 10 false) value args _
        (ui2a_eq value hten false) (length_numeral_map 10 (Nat.le_refl _) value false)
        (zero_notMem_numeral (by omega) (by omega) value.toNat false)
  | signed value =>
      exact @convertNum_eq _ i2a value args _ (i2a_eq value) (length_decimal value)
        (zero_notMem_decimal value.toInt)
  | hex upper value =>
      have hconvert : convert field.flags (Conversion.hex upper value).ch
          (Arg.num value :: args) =
            convertNum field.flags (fun value => ui2a value 16 upper) (.num value :: args) := by
        cases upper <;> rfl
      rw [Conversion.args, List.singleton_append, hconvert]
      exact convertNum_eq (ui2a_eq value hsixteen upper)
        (length_numeral_map 16 (by omega) value upper)
        (zero_notMem_numeral (by omega) (Nat.le_refl _) value.toNat upper)
  | character value => rfl
  | string text rest htext =>
      have hshown := putchw_eq htext rest field.flags.w false
      have hconvert : convert field.flags 115 (Arg.str (text ++ 0 :: rest) :: args) =
          (putchw field.flags.w false (text ++ 0 :: rest)).map fun shown => (shown, args) := rfl
      rw [Conversion.args, Conversion.ch, List.singleton_append, hconvert, hshown]
      rfl

end Convert

/-! ## Format strings -/

section Directives

variable {directive : Directive}

/-- No conversion is taken for a digit of the width, not even `d` and `c`, which `a2d` knows. -/
theorem Conversion.ends_ch (c : Conversion) : Ends c.ch ∧ c.ch ≠ 108 ∧ c.ch ≠ 0 := by
  have hends : ∀ ch ∈ ([37, 117, 100, 120, 88, 99, 115] : List Byte),
      Ends ch ∧ ch ≠ 108 ∧ ch ≠ 0 := by decide
  apply hends
  cases c with
  | hex upper value => cases upper <;> simp [ch]
  | _ => simp [ch]

/-- The loop shows a directive and goes on behind it. -/
theorem formatLoop_directive (directive : Directive) (fuel : ℕ) (fmt : List Byte)
    (args : List Arg) :
    formatLoop (fuel + 1) (directive.spelling ++ fmt) (directive.args ++ args) =
      (formatLoop fuel fmt args).map (directive.shown ++ ·) := by
  cases directive with
  | plain ch hch =>
      rw [Directive.spelling, List.singleton_append, formatLoop, if_neg hch.1, if_pos hch.2]
      rfl
  | conversion field c =>
      obtain ⟨hends, hl, hzero⟩ := c.ends_ch
      have hflags := field.flags_spelling hends hl fmt
      rw [Directive.spelling, List.cons_append, List.append_assoc, List.singleton_append,
        formatLoop_conversion hflags hzero, Directive.args, convert_eq, Option.bind_some,
        Directive.shown]

theorem formatLoop_directives (directives : List Directive) (rest : List Byte)
    (args : List Arg) {fuel : ℕ} (hfuel : directives.length < fuel) :
    formatLoop fuel (directives.flatMap Directive.spelling ++ 0 :: rest)
        (directives.flatMap Directive.args ++ args) =
      some (directives.flatMap Directive.shown) := by
  induction directives generalizing fuel with
  | nil =>
      obtain ⟨fuel, rfl⟩ : ∃ fuel', fuel = fuel' + 1 := ⟨fuel - 1, by omega⟩
      exact if_pos rfl
  | cons directive directives ih =>
      rw [List.length_cons] at hfuel
      obtain ⟨fuel, rfl⟩ : ∃ fuel', fuel = fuel' + 1 := ⟨fuel - 1, by omega⟩
      rw [List.flatMap_cons, List.flatMap_cons, List.flatMap_cons, List.append_assoc,
        List.append_assoc, formatLoop_directive, ih (by omega), Option.map_some]

theorem length_le_spelling (directives : List Directive) :
    directives.length ≤ (directives.flatMap Directive.spelling).length := by
  induction directives with
  | nil => exact Nat.le_refl 0
  | cons directive directives ih =>
      have hone : 1 ≤ directive.spelling.length := by
        cases directive with
        | plain => exact Nat.le_refl 1
        | conversion => exact Nat.succ_le_succ (Nat.zero_le _)
      rw [List.flatMap_cons, List.length_append, List.length_cons]
      omega

end Directives

/-- `tfp_format` shows its directives one after the other, each conversion with the next
argument, and reads nothing behind the terminator. -/
theorem tfpFormat_directives (directives : List Directive) (rest : List Byte)
    (args : List Arg) :
    tfpFormat (directives.flatMap Directive.spelling ++ 0 :: rest)
        (directives.flatMap Directive.args ++ args) =
      some (directives.flatMap Directive.shown) := by
  apply formatLoop_directives
  have hle := length_le_spelling directives
  rw [List.length_append, List.length_cons]
  omega

/-! ## Any format string -/

/-- A reader that never goes behind the terminator: it stops at a character of the text or at
its end. -/
def Advances {A : Type*} (r : Byte → List Byte → Option (A × Byte × List Byte)) : Prop :=
  ∀ text, 0 ∉ text → ∃ value text', text' <:+ text ∧
    ∀ rest ch p, ch :: p = text ++ 0 :: rest →
      ∃ ch' p', ch' :: p' = text' ++ 0 :: rest ∧ r ch p = some (value, ch', p')

section Advances

theorem exists_cons_text (text rest : List Byte) : ∃ ch p, ch :: p = text ++ 0 :: rest := by
  cases text with
  | nil => exact ⟨0, rest, rfl⟩
  | cons ch text => exact ⟨ch, text ++ 0 :: rest, rfl⟩

theorem advances_skip {flag : Byte} (hflag : flag ≠ 0) : Advances (skip flag) := by
  intro text _
  by_cases hhead : text.head? = some flag
  · obtain ⟨text, rfl⟩ := List.head?_eq_some_iff.mp hhead
    refine ⟨true, text, List.suffix_cons _ _, fun rest ch p hp => ?_⟩
    rw [List.cons_append] at hp
    obtain ⟨rfl, rfl⟩ := List.cons.inj hp
    obtain ⟨next, fmt, hnext⟩ := exists_cons_text text rest
    refine ⟨next, fmt, hnext, ?_⟩
    rw [skip, if_pos rfl, ← hnext]
    rfl
  · refine ⟨false, text, List.suffix_rfl, fun rest ch p hp => ⟨ch, p, hp, if_neg ?_⟩⟩
    rintro rfl
    cases text with
    | nil =>
        obtain ⟨rfl, _⟩ := List.cons.inj hp
        exact hflag rfl
    | cons next text =>
        obtain ⟨rfl, _⟩ := List.cons.inj hp
        exact hhead rfl

theorem advances_a2i (base : ℤ) (num : Word) : Advances fun ch src => a2i base ch src num := by
  intro text
  induction text generalizing num with
  | nil =>
      refine fun _ => ⟨num, [], List.suffix_rfl, fun rest ch p hp => ⟨ch, p, hp, ?_⟩⟩
      obtain ⟨rfl, rfl⟩ := List.cons.inj hp
      exact a2i_of_ends (.inl (by decide)) _ _
  | cons first text ih =>
      intro htext
      by_cases hends : a2d first < 0 ∨ base < a2d first
      · refine ⟨num, first :: text, List.suffix_rfl, fun rest ch p hp => ⟨ch, p, hp, ?_⟩⟩
        obtain ⟨rfl, rfl⟩ := List.cons.inj hp
        exact a2i_of_ends hends _ _
      · have hrest : 0 ∉ text := fun hmem => htext (List.mem_cons_of_mem _ hmem)
        obtain ⟨value, text', hsuffix, hreads⟩ :=
          ih (num * BitVec.ofInt 32 base + BitVec.ofInt 32 (a2d first)) hrest
        refine ⟨value, text', hsuffix.trans (List.suffix_cons _ _), fun rest ch p hp => ?_⟩
        rw [List.cons_append] at hp
        obtain ⟨rfl, rfl⟩ := List.cons.inj hp
        obtain ⟨next, src, hsrc⟩ := exists_cons_text text rest
        obtain ⟨ch', p', hp', hread⟩ := hreads rest next src hsrc
        rw [← hsrc]
        exact ⟨ch', p', hp', (a2i_cons hends next src num).trans hread⟩

/-- A width is read from its first digit on, and is zero without one. -/
theorem advances_width : Advances width := by
  intro text htext
  by_cases hdigit : ∃ ch text', text = ch :: text' ∧ 48 ≤ ch.toNat ∧ ch.toNat ≤ 57
  · obtain ⟨first, text, rfl, hfirst⟩ := hdigit
    obtain ⟨value, text', hsuffix, hreads⟩ := advances_a2i 10 0 (first :: text) htext
    refine ⟨value, text', hsuffix, fun rest ch p hp => ?_⟩
    obtain ⟨ch', p', hp', hread⟩ := hreads rest ch p hp
    obtain ⟨rfl, _⟩ := List.cons.inj hp
    exact ⟨ch', p', hp', (if_pos hfirst).trans hread⟩
  · refine ⟨0, text, List.suffix_rfl, fun rest ch p hp => ⟨ch, p, hp, if_neg ?_⟩⟩
    intro hch
    cases text with
    | nil =>
        obtain ⟨rfl, _⟩ := List.cons.inj hp
        revert hch
        decide
    | cons first text =>
        obtain ⟨rfl, _⟩ := List.cons.inj hp
        exact hdigit ⟨ch, text, rfl, hch⟩

/-- The flags are read up to a character of the text or its end. -/
theorem exists_flags {text : List Byte} (htext : 0 ∉ text) :
    ∃ f text', text' <:+ text ∧ ∀ rest, ∃ ch p, ch :: p = text' ++ 0 :: rest ∧
      flags (text ++ 0 :: rest) = some (f, ch, p) := by
  obtain ⟨lz, text₁, hsuffix₁, hlz⟩ := advances_skip (by decide : (48 : Byte) ≠ 0) text htext
  have htext₁ : 0 ∉ text₁ := fun hmem => htext (hsuffix₁.mem hmem)
  obtain ⟨w, text₂, hsuffix₂, hw⟩ := advances_width text₁ htext₁
  have htext₂ : 0 ∉ text₂ := fun hmem => htext₁ (hsuffix₂.mem hmem)
  obtain ⟨lng, text₃, hsuffix₃, hlng⟩ :=
    advances_skip (by decide : (108 : Byte) ≠ 0) text₂ htext₂
  refine ⟨⟨lz, lng, w.toInt⟩, text₃, (hsuffix₃.trans hsuffix₂).trans hsuffix₁, fun rest => ?_⟩
  obtain ⟨ch, p, hp⟩ := exists_cons_text text rest
  obtain ⟨ch₁, p₁, hp₁, hread₁⟩ := hlz rest ch p hp
  obtain ⟨ch₂, p₂, hp₂, hread₂⟩ := hw rest ch₁ p₁ hp₁
  obtain ⟨ch₃, p₃, hp₃, hread₃⟩ := hlng rest ch₂ p₂ hp₂
  refine ⟨ch₃, p₃, hp₃, ?_⟩
  rw [← hp, flags, read, Option.bind_some]
  simp only [hread₁, hread₂, hread₃, Option.bind_some, Option.map_some]

end Advances

inductive Kind where
  | num
  | str

/-- The argument is a number, or a string with its terminator. -/
inductive Arg.Is : Arg → Kind → Prop
  | num (value : Word) : Is (.num value) .num
  | str {pointer : List Byte} (hmem : 0 ∈ pointer) : Is (.str pointer) .str

section Total

theorem exists_num {args : List Arg} (hargs : List.Forall₂ Arg.Is args [.num]) :
    ∃ value, args = [.num value] := by
  cases hargs with
  | cons hfirst hrest =>
      cases hrest
      cases hfirst with
      | num value => exact ⟨value, rfl⟩

theorem exists_str {args : List Arg} (hargs : List.Forall₂ Arg.Is args [.str]) :
    ∃ text rest, args = [.str (text ++ 0 :: rest)] ∧ 0 ∉ text := by
  cases hargs with
  | cons hfirst hrest =>
      cases hrest
      cases hfirst with
      | str hmem =>
          obtain ⟨text, rest, rfl⟩ := List.append_of_mem hmem
          obtain ⟨shown, rest', heq, hshown⟩ := CString.exists_terminated text rest
          exact ⟨shown, rest', by rw [heq], hshown⟩

variable {f : Flags} {string : Word → List Byte}

/-- The strings of numbers fit the buffer. -/
def Fits (string : Word → List Byte) : Prop :=
  ∀ value, (string value).length < 12 ∧ 0 ∉ string value

theorem fits_ui2a {base : Word} (hlow : 10 ≤ base.toNat) (hhigh : base.toNat ≤ 16) (uc : Bool) :
    Fits fun value => ui2a value base uc := by
  intro value
  have heq := ui2a_eq value (by omega : 1 < base.toNat) uc
  have hlength := length_numeral_map _ hlow value uc
  have hplain := @zero_notMem_numeral base.toNat (by omega) hhigh value.toNat uc
  rw [← heq] at hlength hplain
  exact ⟨hlength, hplain⟩

theorem fits_i2a : Fits i2a := by
  intro value
  rw [i2a_eq]
  exact ⟨length_decimal value, zero_notMem_decimal _⟩

theorem convertNum_of_fits (hfits : Fits string) {args : List Arg}
    (hargs : List.Forall₂ Arg.Is args [.num]) :
    ∃ shown, ∀ more, convertNum f string (args ++ more) = some (shown, more) := by
  obtain ⟨value, rfl⟩ := exists_num hargs
  obtain ⟨hlength, hplain⟩ := hfits value
  exact ⟨_, fun more => convertNum_eq rfl hlength hplain⟩

/-- A conversion ends with arguments of the kinds that its character calls for. -/
theorem exists_convert (f : Flags) (ch : Byte) :
    ∃ kinds, ∀ args, List.Forall₂ Arg.Is args kinds →
      ∃ shown, ∀ more, convert f ch (args ++ more) = some (shown, more) := by
  by_cases hu : ch = 117
  · refine ⟨[.num], fun args hargs => ?_⟩
    simp only [convert, if_pos hu]
    exact convertNum_of_fits (fits_ui2a (by decide) (by decide) false) hargs
  by_cases hd : ch = 100
  · refine ⟨[.num], fun args hargs => ?_⟩
    simp only [convert, if_neg hu, if_pos hd]
    exact convertNum_of_fits fits_i2a hargs
  by_cases hx : ch = 120 ∨ ch = 88
  · refine ⟨[.num], fun args hargs => ?_⟩
    simp only [convert, if_neg hu, if_neg hd, if_pos hx]
    exact convertNum_of_fits (fits_ui2a (by decide) (by decide) _) hargs
  by_cases hc : ch = 99
  · refine ⟨[.num], fun args hargs => ?_⟩
    obtain ⟨value, rfl⟩ := exists_num hargs
    simp only [convert, if_neg hu, if_neg hd, if_neg hx, if_pos hc]
    exact ⟨[value.truncate 8], fun more => rfl⟩
  by_cases hs : ch = 115
  · refine ⟨[.str], fun args hargs => ?_⟩
    obtain ⟨text, rest, rfl, htext⟩ := exists_str hargs
    have hshown : putchw f.w false (text ++ 0 :: rest) = some (padded f.w 32 text) :=
      putchw_eq htext rest f.w false
    simp only [convert, if_neg hu, if_neg hd, if_neg hx, if_neg hc, if_pos hs]
    refine ⟨padded f.w 32 text, fun more => ?_⟩
    rw [List.singleton_append, vaStr, Option.bind_some, hshown]
    rfl
  · refine ⟨[], fun args hargs => ?_⟩
    obtain rfl := List.forall₂_nil_right_iff.mp hargs
    simp only [convert, if_neg hu, if_neg hd, if_neg hx, if_neg hc, if_neg hs]
    by_cases hpercent : ch = 37
    · exact ⟨[ch], fun more => if_pos hpercent⟩
    · exact ⟨[], fun more => if_neg hpercent⟩

/-- The loop from `fmt` on ends with arguments of the kinds that `fmt` calls for, and shows
what these tell. -/
def Ending (fmt : List Byte) : Prop :=
  ∃ kinds, ∀ args, List.Forall₂ Arg.Is args kinds → ∃ shown, ∀ rest more fuel,
    fmt.length < fuel → formatLoop fuel (fmt ++ 0 :: rest) (args ++ more) = some shown

theorem ending_nil : Ending [] := by
  refine ⟨[], fun args hargs => ⟨[], fun rest more fuel hfuel => ?_⟩⟩
  obtain ⟨fuel, rfl⟩ : ∃ fuel', fuel = fuel' + 1 := ⟨fuel - 1, by omega⟩
  exact if_pos rfl

theorem Ending.plain {ch : Byte} {fmt : List Byte} (h : Ending fmt) (hch : ch ≠ 0)
    (hpercent : ch ≠ 37) : Ending (ch :: fmt) := by
  obtain ⟨kinds, hends⟩ := h
  refine ⟨kinds, fun args hargs => ?_⟩
  obtain ⟨shown, hloop⟩ := hends args hargs
  refine ⟨ch :: shown, fun rest more fuel hfuel => ?_⟩
  rw [List.length_cons] at hfuel
  obtain ⟨fuel, rfl⟩ : ∃ fuel', fuel = fuel' + 1 := ⟨fuel - 1, by omega⟩
  rw [List.cons_append, formatLoop, if_neg hch, if_pos hpercent, hloop rest more fuel (by omega),
    Option.map_some]

/-- A conversion that the end of the string breaks off is not shown. -/
theorem ending_of_flags_end {fmt : List Byte} {f : Flags}
    (hflags : ∀ rest, ∃ ch p, ch :: p = [] ++ 0 :: rest ∧
      flags (fmt ++ 0 :: rest) = some (f, ch, p)) : Ending (37 :: fmt) := by
  refine ⟨[], fun args hargs => ⟨[], fun rest more fuel hfuel => ?_⟩⟩
  obtain ⟨fuel, rfl⟩ : ∃ fuel', fuel = fuel' + 1 := ⟨fuel - 1, by omega⟩
  obtain ⟨ch, p, hp, hread⟩ := hflags rest
  obtain ⟨rfl, rfl⟩ := List.cons.inj hp
  rw [List.cons_append, formatLoop, if_neg (by decide), if_neg (by decide), hread,
    Option.bind_some]
  exact if_pos rfl

theorem Ending.conversion {fmt text : List Byte} {f : Flags} {ch : Byte} (h : Ending text)
    (hch : ch ≠ 0) (hshort : text.length < fmt.length)
    (hflags : ∀ rest, flags (fmt ++ 0 :: rest) = some (f, ch, text ++ 0 :: rest)) :
    Ending (37 :: fmt) := by
  obtain ⟨kinds, hconvert⟩ := exists_convert f ch
  obtain ⟨kinds', hends⟩ := h
  refine ⟨kinds ++ kinds', fun args hargs => ?_⟩
  obtain ⟨first, hfirst⟩ := hconvert _ (List.forall₂_take_append args kinds kinds' hargs)
  obtain ⟨shown, hloop⟩ := hends _ (List.forall₂_drop_append args kinds kinds' hargs)
  refine ⟨first ++ shown, fun rest more fuel hfuel => ?_⟩
  rw [List.length_cons] at hfuel
  obtain ⟨fuel, rfl⟩ : ∃ fuel', fuel = fuel' + 1 := ⟨fuel - 1, by omega⟩
  have hargs' : args ++ more =
      args.take kinds.length ++ (args.drop kinds.length ++ more) := by
    rw [← List.append_assoc, List.take_append_drop]
  rw [List.cons_append, formatLoop_conversion (hflags rest) hch, hargs', hfirst, Option.bind_some,
    hloop rest more fuel (by omega), Option.map_some]

/-- The loop ends for any format string. -/
theorem ending_of_plain {fmt : List Byte} (hfmt : 0 ∉ fmt) : Ending fmt := by
  induction hlength : fmt.length using Nat.strong_induction_on generalizing fmt with
  | _ n ih =>
      subst hlength
      cases fmt with
      | nil => exact ending_nil
      | cons ch fmt =>
          rw [List.mem_cons, not_or] at hfmt
          obtain ⟨hch, hrest⟩ := hfmt
          by_cases hpercent : ch = 37
          · obtain ⟨f, text, hsuffix, hflags⟩ := exists_flags hrest
            have htext : 0 ∉ text := fun hmem => hrest (hsuffix.mem hmem)
            have hle := hsuffix.length_le
            rw [hpercent]
            cases text with
            | nil => exact ending_of_flags_end hflags
            | cons next text =>
                rw [List.mem_cons, not_or] at htext
                rw [List.length_cons] at hle
                have hshort : text.length < (ch :: fmt).length := by
                  rw [List.length_cons]
                  omega
                have hreads : ∀ rest, flags (fmt ++ 0 :: rest) =
                    some (f, next, text ++ 0 :: rest) := by
                  intro rest
                  obtain ⟨next', p, hp, hread⟩ := hflags rest
                  rw [List.cons_append] at hp
                  obtain ⟨rfl, rfl⟩ := List.cons.inj hp
                  exact hread
                exact (ih _ hshort htext.2 rfl).conversion (Ne.symm htext.1) hle hreads
          · exact (ih _ (Nat.lt_succ_self _) hrest rfl).plain (Ne.symm hch) hpercent

end Total

/-- For any format string, `tfp_format` takes arguments of kinds that the string tells.  With
such arguments it ends, and what it shows depends neither on what stands behind the terminator
nor on further arguments. -/
theorem exists_tfpFormat (fmt : List Byte) (hfmt : 0 ∉ fmt) :
    ∃ kinds, ∀ args, List.Forall₂ Arg.Is args kinds →
      ∃ shown, ∀ rest more, tfpFormat (fmt ++ 0 :: rest) (args ++ more) = some shown := by
  obtain ⟨kinds, hends⟩ := ending_of_plain hfmt
  refine ⟨kinds, fun args hargs => ?_⟩
  obtain ⟨shown, hloop⟩ := hends args hargs
  refine ⟨shown, fun rest more => hloop rest more _ ?_⟩
  rw [List.length_append, List.length_cons]
  omega

/-- A format string that breaks off in a conversion, behind one with a width. -/
theorem exists_tfpFormat_sample :
    0 ∉ ascii ['%', '0', '4', 'd', '%', '8'] ∧
      ∃ kinds, ∀ args, List.Forall₂ Arg.Is args kinds → ∃ shown, ∀ rest more,
        tfpFormat (ascii ['%', '0', '4', 'd', '%', '8'] ++ 0 :: rest) (args ++ more) =
          some shown :=
  have hfmt : 0 ∉ ascii ['%', '0', '4', 'd', '%', '8'] := by decide
  ⟨hfmt, exists_tfpFormat _ hfmt⟩

/-! ## Calls of `Print` -/

/-- What a piece of a call stands for in its format string. -/
def spelling : Piece → List Byte
  | .text bytes => bytes
  | .s _ => ascii ['%', 's']
  | .d _ => ascii ['%', 'd']

def pieceArgs : Piece → List Arg
  | .text _ => []
  | .s pointer => [.str pointer]
  | .d num => [.num (BitVec.ofInt 32 num)]

/-- The text of the piece is plain, and its number an `int`. -/
def Printable : Piece → Prop
  | .text bytes => 0 ∉ bytes ∧ 37 ∉ bytes
  | .s _ => True
  | .d num => -2 ^ 31 ≤ num ∧ num < 2 ^ 31

section Print

variable {num k : ℕ}

theorem print_ui2aScale {j fuel : ℕ} (hj : j ≤ Nat.log 10 num)
    (hfuel : Nat.log 10 num ≤ j + fuel) :
    Print.ui2aScale num fuel (10 ^ j) = 10 ^ Nat.log 10 num := by
  induction fuel generalizing j with
  | zero =>
      rw [Print.ui2aScale]
      congr 1
      omega
  | succ fuel ih =>
      have hle : 10 ≤ num / 10 ^ j ↔ 10 ^ (j + 1) ≤ num := by
        rw [Nat.le_div_iff_mul_le (pow_pos (by omega) j), ← pow_succ']
      rw [Print.ui2aScale, ← pow_succ]
      split_ifs with hlarge
      · exact ih (Nat.le_log_of_pow_le (by omega) (hle.mp hlarge)) (by omega)
      · rw [hle, not_le] at hlarge
        have hlog := Nat.log_lt_of_lt_pow' (Nat.succ_ne_zero j) hlarge
        congr 1
        omega

theorem print_ui2aDigits {fuel : ℕ} {started : Bool} (hfuel : k + 1 < fuel)
    (hnum : num < 10 ^ (k + 1)) (hstarted : started = true ∨ k = 0 ∨ 10 ^ k ≤ num) :
    Print.ui2aDigits fuel num (10 ^ k) started = (places 10 k num).map (digit false) := by
  induction k generalizing fuel num started with
  | zero =>
      obtain ⟨fuel, rfl⟩ : ∃ fuel', fuel = fuel' + 2 := ⟨fuel - 2, by omega⟩
      rw [zero_add, pow_one] at hnum
      rw [Print.ui2aDigits_zero, places, List.map_singleton, digit, if_pos hnum]
  | succ k ih =>
      obtain ⟨fuel, rfl⟩ : ∃ fuel', fuel = fuel' + 1 := ⟨fuel - 1, by omega⟩
      have hpos : 0 < 10 ^ (k + 1) := pow_pos (by omega) _
      have hdgt : num / 10 ^ (k + 1) < 10 := by
        rw [Nat.div_lt_iff_lt_mul hpos, ← pow_succ']
        exact hnum
      have hwrites : started = true ∨ 0 < num / 10 ^ (k + 1) :=
        hstarted.imp_right fun hlarge =>
          Nat.div_pos (hlarge.resolve_left (Nat.succ_ne_zero k)) hpos
      rw [Print.ui2aDigits_succ, if_pos hwrites, ih (by omega) (Nat.mod_lt _ hpos) (.inl rfl),
        places, List.map_cons, digit, if_pos hdgt]

theorem print_ui2a (num : ℕ) : Print.ui2a num = (numeral 10 num).map (digit false) := by
  have hscale : Print.ui2aScale num num 1 = 10 ^ Nat.log 10 num := by
    apply @print_ui2aScale num 0 num (Nat.zero_le _)
    rw [zero_add]
    exact Nat.log_le_self 10 num
  have hfuel : Nat.log 10 num + 1 < 10 ^ Nat.log 10 num + 1 :=
    Nat.succ_lt_succ (Nat.lt_pow_self (by omega))
  have hstarted : false = true ∨ Nat.log 10 num = 0 ∨ 10 ^ Nat.log 10 num ≤ num := by
    by_cases hzero : num = 0
    · rw [hzero, Nat.log_zero_right]
      exact .inr (.inl rfl)
    · exact .inr (.inr (Nat.pow_log_le_self _ hzero))
  rw [Print.ui2a, hscale, print_ui2aDigits hfuel (Nat.lt_pow_succ_log_self (by omega) num)
    hstarted, places_log (by omega)]

/-- The conversion of the pieces is that of the format string. -/
theorem print_i2a {num : ℤ} (hlow : -2 ^ 31 ≤ num) (hhigh : num < 2 ^ 31) :
    i2a (BitVec.ofInt 32 num) = Print.i2a num := by
  have hnum : (BitVec.ofInt 32 num).toInt = num := by
    rw [BitVec.toInt_ofInt]
    exact Int.bmod_eq_of_le (by omega) (by omega)
  rw [i2a_eq, hnum, decimal, Print.i2a, print_ui2a]
  split_ifs <;> rfl

def bare : Field := ⟨false, false, 0, by decide⟩

theorem formatLoop_text {bytes : List Byte} (hzero : 0 ∉ bytes) (hpercent : 37 ∉ bytes)
    (fuel : ℕ) (fmt : List Byte) (args : List Arg) :
    formatLoop (bytes.length + fuel) (bytes ++ fmt) args =
      (formatLoop fuel fmt args).map (bytes ++ ·) := by
  induction bytes with
  | nil =>
      rw [List.length_nil, zero_add, List.nil_append]
      exact Option.map_id'.symm
  | cons ch bytes ih =>
      rw [List.mem_cons, not_or] at hzero hpercent
      rw [List.length_cons, Nat.add_right_comm, List.cons_append, formatLoop,
        if_neg (Ne.symm hzero.1), if_pos (Ne.symm hpercent.1), ih hzero.2 hpercent.2,
        Option.map_map]
      rfl

theorem putchw_zero (pointer : List Byte) : putchw 0 false pointer = CString.chars pointer := by
  cases pointer with
  | nil => rfl
  | cons ch rest =>
      have hleft : putchwLeft (ch :: rest) 0 = some 0 := if_neg fun h => absurd h.2 (by decide)
      rw [putchw, hleft, Option.bind_some]
      exact Option.map_id'

/-- The loop shows a piece and goes on behind it. -/
theorem formatLoop_piece {piece : Piece} (hpiece : Printable piece) :
    ∃ steps ≤ (spelling piece).length, ∀ fuel fmt args,
      formatLoop (steps + fuel) (spelling piece ++ fmt) (pieceArgs piece ++ args) =
        piece.format.bind fun bytes => (formatLoop fuel fmt args).map (bytes ++ ·) := by
  cases piece with
  | text bytes =>
      exact ⟨bytes.length, Nat.le_refl _, formatLoop_text hpiece.1 hpiece.2⟩
  | s pointer =>
      refine ⟨1, Nat.le_succ 1, fun fuel fmt args => ?_⟩
      have hflags : flags (115 :: fmt) = some (bare.flags, 115, fmt) :=
        bare.flags_spelling (by decide) (by decide) fmt
      have hconvert : convert bare.flags 115 (.str pointer :: args) =
          (CString.chars pointer).map fun shown => (shown, args) := by
        rw [← putchw_zero]
        rfl
      have hloop := formatLoop_conversion hflags (by decide) fuel (.str pointer :: args)
      rw [hconvert, Option.bind_map] at hloop
      rw [Nat.add_comm, Piece.format]
      exact hloop
  | d num =>
      refine ⟨1, Nat.le_succ 1, fun fuel fmt args => ?_⟩
      have hshown : padded 0 32 (decimal (BitVec.ofInt 32 num).toInt) = Print.i2a num := by
        have hnone : (0 - ((decimal (BitVec.ofInt 32 num).toInt).length : ℤ)).toNat = 0 := by omega
        rw [padded, hnone, List.replicate_zero, List.nil_append, ← i2a_eq,
          print_i2a hpiece.1 hpiece.2]
      have hloop := formatLoop_directive (.conversion bare (.signed (BitVec.ofInt 32 num))) fuel
        fmt args
      rw [Nat.add_comm, Piece.format, Option.bind_some, ← hshown]
      exact hloop

theorem formatLoop_pieces {pieces : List Piece} (hpieces : ∀ piece ∈ pieces, Printable piece)
    {fuel : ℕ} (hfuel : (pieces.flatMap spelling).length < fuel) :
    formatLoop fuel (pieces.flatMap spelling ++ [0]) (pieces.flatMap pieceArgs) =
      print pieces := by
  induction pieces generalizing fuel with
  | nil =>
      obtain ⟨fuel, rfl⟩ : ∃ fuel', fuel = fuel' + 1 := ⟨fuel - 1, by omega⟩
      exact if_pos rfl
  | cons piece pieces ih =>
      rw [List.flatMap_cons, List.length_append] at hfuel
      obtain ⟨hpiece, hrest⟩ := List.forall_mem_cons.mp hpieces
      obtain ⟨steps, hsteps, hloop⟩ := formatLoop_piece hpiece
      obtain ⟨fuel, rfl⟩ : ∃ fuel', fuel = steps + fuel' := ⟨fuel - steps, by omega⟩
      rw [List.flatMap_cons, List.flatMap_cons, List.append_assoc, hloop,
        ih hrest (by omega), Print.print_cons]

end Print

/-- `Print` is `tfp_format` of the format string that the pieces of the call stand for. -/
theorem tfpFormat_pieces {pieces : List Piece}
    (hpieces : ∀ piece ∈ pieces, Printable piece) :
    tfpFormat (pieces.flatMap spelling ++ [0]) (pieces.flatMap pieceArgs) = print pieces := by
  apply formatLoop_pieces hpieces
  rw [List.length_append]
  exact Nat.lt_succ_self _

/-- The call of the shell for a status that is not zero. -/
theorem tfpFormat_pieces_sample :
    tfpFormat (ascii ['(', '%', 's', '%', 'd', '%', 's', ')', ' '] ++ [0])
        [.str (ascii ['y'] ++ [0]), .num (BitVec.ofInt 32 (-4)), .str (ascii ['r'] ++ [0])] =
      print [.text (ascii ['(']), .s (ascii ['y'] ++ [0]), .d (-4), .s (ascii ['r'] ++ [0]),
        .text (ascii [')', ' '])] := by
  apply @tfpFormat_pieces [.text (ascii ['(']), .s (ascii ['y'] ++ [0]), .d (-4),
    .s (ascii ['r'] ++ [0]), .text (ascii [')', ' '])]
  simp only [List.forall_mem_cons, List.not_mem_nil, false_imp_iff, implies_true, Printable]
  decide

end Rtk.Format
