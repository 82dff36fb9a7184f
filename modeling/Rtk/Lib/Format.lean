import Rtk.Core.Numeral
import Rtk.Lib.CString
import Rtk.Lib.Print

/-!
# `tfp_format`

The whole of `lib/print.c` up to `tfp_format`, with every access checked: reads of the format
string, of the arguments and of the strings among them, and writes to the buffer `bf`.  On the
machine `unsigned long int` and `unsigned int` are the same type, and so are `uli2a` and `ui2a`.
-/

namespace Rtk.Format

open Rtk.ByteMemory
open Rtk.Numeral
open Rtk.Print (ascii)

/-! ## Conversions -/

/-- The first loop of `ui2a`, from `d` on. -/
def ui2aScale (num base : Word) : ℕ → Word → Word
  | 0, d => d
  | fuel + 1, d => if base ≤ num / d then ui2aScale num base fuel (d * base) else d

def digit (uc : Bool) (dgt : ℕ) : Byte :=
  BitVec.ofNat 8 (if dgt < 10 then dgt + 48 else dgt + ((if uc then 65 else 97) - 10))

/-- The second loop of `ui2a`: `started` once a digit is written. -/
def ui2aDigits (base : Word) (uc : Bool) : ℕ → Word → Word → Bool → List Byte
  | 0, _, _, _ => []
  | fuel + 1, num, d, started =>
      if d = 0 then []
      else
        let dgt := num / d
        let num := num % d
        let d := d / base
        if started ∨ 0 < dgt ∨ d = 0 then
          digit uc dgt.toNat :: ui2aDigits base uc fuel num d true
        else ui2aDigits base uc fuel num d started

/-- What `ui2a` writes, and `uli2a`, but for the terminator.  The loops end within 32 steps. -/
def ui2a (num base : Word) (uc : Bool) : List Byte :=
  ui2aDigits base uc 32 num (ui2aScale num base 32 1) false

def i2a (num : Word) : List Byte :=
  if num.toInt < 0 then ascii ['-'] ++ ui2a (-num) 10 false else ui2a num 10 false

/-- `bf[12]` with a string in it, when it fits. -/
def bf (string : List Byte) : Option (List Byte) :=
  if string.length < 12 then some (string ++ [0]) else none

def a2d (ch : Byte) : ℤ :=
  if 48 ≤ ch.toNat ∧ ch.toNat ≤ 57 then ch.toNat - 48
  else if 97 ≤ ch.toNat ∧ ch.toNat ≤ 102 then ch.toNat - 97 + 10
  else if 65 ≤ ch.toNat ∧ ch.toNat ≤ 70 then ch.toNat - 65 + 10
  else -1

/-- `a2i`, where `num` wraps: the number, the character that ends it, and what follows. -/
def a2i (base : ℤ) (ch : Byte) (src : List Byte) (num : Word) : Option (Word × Byte × List Byte) :=
  if a2d ch < 0 ∨ base < a2d ch then some (num, ch, src)
  else
    match src with
    | [] => none
    | next :: rest => a2i base next rest (num * BitVec.ofInt 32 base + BitVec.ofInt 32 (a2d ch))

/-- The first loop of `putchw`: what is left of the width. -/
def putchwLeft : List Byte → ℤ → Option ℤ
  | [], _ => none
  | ch :: rest, n => if ch ≠ 0 ∧ 0 < n then putchwLeft rest (n - 1) else some n

def putchw (n : ℤ) (z : Bool) (string : List Byte) : Option (List Byte) :=
  (putchwLeft string n).bind fun n =>
    (CString.chars string).map fun shown =>
      List.replicate n.toNat (if z then 48 else 32) ++ shown

/-! ## The format string -/

/-- What stands between the `%` and the character of a conversion. -/
structure Flags where
  lz : Bool
  lng : Bool
  w : ℤ

/-- `*(fmt++)`. -/
def read : List Byte → Option (Byte × List Byte)
  | [] => none
  | ch :: fmt => some (ch, fmt)

/-- A flag that may stand in front of what follows. -/
def skip (flag ch : Byte) (fmt : List Byte) : Option (Bool × Byte × List Byte) :=
  if ch = flag then (read fmt).map fun next => (true, next) else some (false, ch, fmt)

/-- The width, if there is one. -/
def width (ch : Byte) (fmt : List Byte) : Option (Word × Byte × List Byte) :=
  if 48 ≤ ch.toNat ∧ ch.toNat ≤ 57 then a2i 10 ch fmt 0 else some (0, ch, fmt)

/-- `tfp_format` behind a `%`: the flags, the character of the conversion and what follows. -/
def flags (fmt : List Byte) : Option (Flags × Byte × List Byte) :=
  (read fmt).bind fun (ch, fmt) =>
    (skip 48 ch fmt).bind fun (lz, ch, fmt) =>
      (width ch fmt).bind fun (w, ch, fmt) =>
        (skip 108 ch fmt).map fun (lng, ch, fmt) => (⟨lz, lng, w.toInt⟩, ch, fmt)

inductive Arg where
  | num (value : Word)
  | str (pointer : List Byte)

def vaNum : List Arg → Option (Word × List Arg)
  | .num value :: args => some (value, args)
  | _ => none

def vaStr : List Arg → Option (List Byte × List Arg)
  | .str pointer :: args => some (pointer, args)
  | _ => none

/-- The conversions of a number through the buffer. -/
def convertNum (f : Flags) (string : Word → List Byte) (args : List Arg) :
    Option (List Byte × List Arg) :=
  (vaNum args).bind fun (value, args) =>
    (bf (string value)).bind fun buffer =>
      (putchw f.w f.lz buffer).map fun shown => (shown, args)

/-- The `switch` of `tfp_format`: what it shows, and the arguments it leaves. -/
def convert (f : Flags) (ch : Byte) (args : List Arg) : Option (List Byte × List Arg) :=
  if ch = 117 then convertNum f (fun value => ui2a value 10 false) args
  else if ch = 100 then convertNum f i2a args
  else if ch = 120 ∨ ch = 88 then convertNum f (fun value => ui2a value 16 (ch = 88)) args
  else if ch = 99 then (vaNum args).map fun (value, args) => ([value.truncate 8], args)
  else if ch = 115 then
    (vaStr args).bind fun (pointer, args) =>
      (putchw f.w false pointer).map fun shown => (shown, args)
  else if ch = 37 then some ([ch], args)
  else some ([], args)

def formatLoop : ℕ → List Byte → List Arg → Option (List Byte)
  | 0, _, _ => none
  | _ + 1, [], _ => none
  | fuel + 1, ch :: fmt, args =>
      if ch = 0 then some []
      else if ch ≠ 37 then (formatLoop fuel fmt args).map (ch :: ·)
      else
        (flags fmt).bind fun (f, ch, fmt) =>
          if ch = 0 then some []
          else
            (convert f ch args).bind fun (shown, args) =>
              (formatLoop fuel fmt args).map (shown ++ ·)

/-- `tfp_format`: the characters that it hands to `putf`.  Each round of its loop reads a
character. -/
def tfpFormat (fmt : List Byte) (args : List Arg) : Option (List Byte) :=
  formatLoop fmt.length fmt args

/-- A conversion that the flags lead to. -/
theorem formatLoop_conversion {fmt rest : List Byte} {f : Flags} {ch : Byte}
    (hflags : flags fmt = some (f, ch, rest)) (hch : ch ≠ 0) (fuel : ℕ) (args : List Arg) :
    formatLoop (fuel + 1) (37 :: fmt) args =
      (convert f ch args).bind fun result =>
        (formatLoop fuel rest result.2).map (result.1 ++ ·) := by
  rw [formatLoop, if_neg (by decide), if_neg (by decide), hflags]
  simp only [Option.bind_some, if_neg hch]

/-! ## Numbers -/

section Numbers

variable {num base d : Word} {j k : ℕ}

/-- The first loop ends with the largest power of the base that is not above the number. -/
theorem toNat_ui2aScale (hbase : 1 < base.toNat) {fuel : ℕ} (hd : d.toNat = base.toNat ^ j)
    (hj : j ≤ Nat.log base.toNat num.toNat) (hfuel : Nat.log base.toNat num.toNat ≤ j + fuel) :
    (ui2aScale num base fuel d).toNat = base.toNat ^ Nat.log base.toNat num.toNat := by
  induction fuel generalizing d j with
  | zero =>
      rw [ui2aScale, hd]
      congr 1
      omega
  | succ fuel ih =>
      have hle : base ≤ num / d ↔ base.toNat ^ (j + 1) ≤ num.toNat := by
        rw [BitVec.le_def, BitVec.toNat_udiv, hd, Nat.le_div_iff_mul_le (pow_pos (by omega) j),
          ← pow_succ']
      rw [ui2aScale]
      split_ifs with hlarge
      · have hpow := hle.mp hlarge
        apply ih
        · rw [BitVec.toNat_mul, hd, ← pow_succ]
          exact Nat.mod_eq_of_lt (hpow.trans_lt num.isLt)
        · exact Nat.le_log_of_pow_le hbase hpow
        · omega
      · rw [hd]
        congr 1
        rw [hle, not_le] at hlarge
        have hlog := Nat.log_lt_of_lt_pow' (Nat.succ_ne_zero j) hlarge
        omega

theorem ui2aDigits_zero (uc : Bool) (fuel : ℕ) (started : Bool) :
    ui2aDigits base uc fuel num 0 started = [] := by
  cases fuel with
  | zero => rfl
  | succ fuel => exact if_pos rfl

/-- The second loop writes a digit unless it is a leading zero. -/
theorem ui2aDigits_succ (uc : Bool) (fuel : ℕ) {started : Bool} (hd : d ≠ 0)
    (hwrites : started = true ∨ 0 < num / d ∨ d / base = 0) :
    ui2aDigits base uc (fuel + 1) num d started =
      digit uc (num / d).toNat :: ui2aDigits base uc fuel (num % d) (d / base) true := by
  rw [ui2aDigits, if_neg hd]
  exact if_pos hwrites

theorem ne_zero_of_toNat {n : ℕ} (hd : d.toNat = n) (hn : n ≠ 0) : d ≠ 0 := by
  rintro rfl
  exact hn hd.symm

/-- The second loop shows the digits at the places of the powers. -/
theorem ui2aDigits_eq (hbase : 1 < base.toNat) (uc : Bool) {fuel : ℕ} {started : Bool}
    (hd : d.toNat = base.toNat ^ k) (hfuel : k < fuel)
    (hstarted : started = true ∨ k = 0 ∨ base.toNat ^ k ≤ num.toNat) :
    ui2aDigits base uc fuel num d started = (places base.toNat k num.toNat).map (digit uc) := by
  induction k generalizing fuel num d started with
  | zero =>
      obtain ⟨fuel, rfl⟩ : ∃ fuel', fuel = fuel' + 1 := ⟨fuel - 1, by omega⟩
      rw [pow_zero] at hd
      have hzero : d / base = 0 := by
        apply BitVec.eq_of_toNat_eq
        rw [BitVec.toNat_udiv, hd, Nat.div_eq_of_lt hbase]
        rfl
      rw [ui2aDigits_succ uc fuel (ne_zero_of_toNat hd one_ne_zero) (.inr (.inr hzero)), hzero,
        ui2aDigits_zero, BitVec.toNat_udiv, hd, Nat.div_one, places]
      rfl
  | succ k ih =>
      obtain ⟨fuel, rfl⟩ : ∃ fuel', fuel = fuel' + 1 := ⟨fuel - 1, by omega⟩
      have hpos : 0 < base.toNat ^ (k + 1) := pow_pos (by omega) _
      have hdiv : (d / base).toNat = base.toNat ^ k := by
        rw [BitVec.toNat_udiv, hd, pow_succ, Nat.mul_div_cancel _ (by omega)]
      have hwrites : started = true ∨ 0 < num / d ∨ d / base = 0 := by
        refine hstarted.imp_right fun hlarge => .inl ?_
        rw [BitVec.lt_def, BitVec.toNat_udiv, hd]
        exact Nat.div_pos (hlarge.resolve_left (Nat.succ_ne_zero k)) hpos
      rw [ui2aDigits_succ uc fuel (ne_zero_of_toNat hd hpos.ne') hwrites,
        ih hdiv (by omega) (.inl rfl), BitVec.toNat_udiv, BitVec.toNat_umod, hd, places,
        List.map_cons]

/-- `ui2a` writes the numeral of the number, for any base from 2 on. -/
theorem ui2a_eq (num : Word) (hbase : 1 < base.toNat) (uc : Bool) :
    ui2a num base uc = (numeral base.toNat num.toNat).map (digit uc) := by
  have hlog : Nat.log base.toNat num.toNat < 32 := by
    apply Nat.log_lt_of_lt_pow' (by omega)
    exact num.isLt.trans_le (Nat.pow_le_pow_left hbase 32)
  have hscale : (ui2aScale num base 32 1).toNat =
      base.toNat ^ Nat.log base.toNat num.toNat :=
    toNat_ui2aScale hbase (pow_zero _).symm (Nat.zero_le _) (by omega)
  have hstarted : false = true ∨ Nat.log base.toNat num.toNat = 0 ∨
      base.toNat ^ Nat.log base.toNat num.toNat ≤ num.toNat := by
    by_cases hzero : num.toNat = 0
    · rw [hzero, Nat.log_zero_right]
      exact .inr (.inl rfl)
    · exact .inr (.inr (Nat.pow_log_le_self _ hzero))
  rw [ui2a, ui2aDigits_eq hbase uc hscale hlog hstarted, places_log hbase]

def decimal (value : ℤ) : List Byte :=
  (if value < 0 then ascii ['-'] else []) ++ (numeral 10 value.natAbs).map (digit false)

/-- `i2a` writes the decimal numeral, that of the least number too. -/
theorem i2a_eq (num : Word) : i2a num = decimal num.toInt := by
  have hbase : 1 < (10 : Word).toNat := by decide
  rw [i2a, decimal]
  split_ifs with hneg
  · have hmsb : num.msb = true := by
      rw [BitVec.msb_eq_toInt]
      exact decide_eq_true hneg
    have habs : (-num).toNat = num.toInt.natAbs := by
      rw [BitVec.toInt_eq_neg_toNat_neg_of_msb_true hmsb, Int.natAbs_neg, Int.natAbs_natCast]
    rw [ui2a_eq (-num) hbase, habs]
    rfl
  · have habs : num.toNat = num.toInt.natAbs := by
      have hlt := num.isLt
      rw [BitVec.toInt_eq_toNat_cond] at hneg ⊢
      split_ifs at hneg ⊢ <;> omega
    rw [ui2a_eq num hbase, habs]
    rfl

theorem digit_ne_zero (uc : Bool) {dgt : ℕ} (hdgt : dgt < 16) : digit uc dgt ≠ 0 := by
  cases uc <;> interval_cases dgt <;> decide

theorem zero_notMem_numeral {b : ℕ} (hb : 1 < b) (hle : b ≤ 16) (n : ℕ) (uc : Bool) :
    0 ∉ (numeral b n).map (digit uc) := by
  intro hmem
  obtain ⟨dgt, hdgt, hzero⟩ := List.mem_map.mp hmem
  have hlt := lt_of_mem_numeral hb hdgt
  exact digit_ne_zero uc (by omega) hzero

/-- No numeral of a word is longer than ten digits, in base ten or above. -/
theorem length_numeral_word {b n : ℕ} (hb : 10 ≤ b) (hn : n < 2 ^ 32) :
    (numeral b n).length ≤ 10 := by
  apply length_numeral_le (by omega) (by omega)
  exact hn.trans (lt_of_lt_of_le (by norm_num) (Nat.pow_le_pow_left hb 10))

theorem length_decimal (num : Word) : (decimal num.toInt).length < 12 := by
  have hlow := BitVec.le_toInt num
  have hhigh := @BitVec.toInt_lt 32 num
  have hlength := @length_numeral_word 10 num.toInt.natAbs (Nat.le_refl _) (by omega)
  rw [decimal, List.length_append, List.length_map]
  split_ifs
  · exact Nat.lt_of_le_of_lt (Nat.add_le_add_left hlength 1) (by omega)
  · exact Nat.lt_of_le_of_lt (Nat.add_le_add_left hlength 0) (by omega)

end Numbers

/-! ## Padding -/

/-- `text` behind as many `pad`s as the width asks for. -/
def padded (width : ℤ) (pad : Byte) (text : List Byte) : List Byte :=
  List.replicate (width - text.length).toNat pad ++ text

/-- The loop takes the length from the width. -/
theorem putchwLeft_eq {text : List Byte} (htext : 0 ∉ text) (rest : List Byte) {n : ℤ} :
    ∃ left, putchwLeft (text ++ 0 :: rest) n = some left ∧
      left.toNat = (n - text.length).toNat := by
  induction text generalizing n with
  | nil => exact ⟨n, by simp [putchwLeft], by simp⟩
  | cons ch text ih =>
      rw [List.mem_cons, not_or] at htext
      rw [List.cons_append, putchwLeft]
      split_ifs with hcounts
      · obtain ⟨left, hleft, hnat⟩ := @ih htext.2 (n - 1)
        refine ⟨left, hleft, ?_⟩
        rw [hnat, List.length_cons]
        omega
      · have hdone : n ≤ 0 := by
          by_contra hpos
          exact hcounts ⟨Ne.symm htext.1, by omega⟩
        refine ⟨n, rfl, ?_⟩
        omega

/-- `putchw` pads a string up to the width. -/
theorem putchw_eq {text : List Byte} (htext : 0 ∉ text) (rest : List Byte) (n : ℤ) (z : Bool) :
    putchw n z (text ++ 0 :: rest) = some (padded n (if z then 48 else 32) text) := by
  obtain ⟨left, hleft, hnat⟩ := @putchwLeft_eq text htext rest n
  rw [putchw, hleft, Option.bind_some, CString.chars_append htext, Option.map_some, hnat, padded]

/-! ## Flags -/

/-- The character ends a decimal number. -/
def Ends (ch : Byte) : Prop := a2d ch < 0 ∨ 10 < a2d ch

instance (ch : Byte) : Decidable (Ends ch) := inferInstanceAs (Decidable (_ ∨ _))

theorem Ends.not_digit {ch : Byte} (h : Ends ch) : ¬(48 ≤ ch.toNat ∧ ch.toNat ≤ 57) := by
  intro hdigit
  rw [Ends, a2d, if_pos hdigit] at h
  omega

theorem toNat_digit {dgt : ℕ} (hdgt : dgt < 10) (uc : Bool) :
    (digit uc dgt).toNat = dgt + 48 := by
  rw [digit, if_pos hdgt, BitVec.toNat_ofNat, Nat.mod_eq_of_lt (by omega)]

theorem a2d_digit {dgt : ℕ} (hdgt : dgt < 10) (uc : Bool) : a2d (digit uc dgt) = dgt := by
  rw [a2d, toNat_digit hdgt, if_pos (by omega)]
  omega

section Number

variable {base : ℤ} {ch : Byte}

theorem a2i_of_ends (hends : a2d ch < 0 ∨ base < a2d ch) (src : List Byte) (num : Word) :
    a2i base ch src num = some (num, ch, src) := by
  unfold a2i
  exact if_pos hends

theorem a2i_cons (hmore : ¬(a2d ch < 0 ∨ base < a2d ch)) (next : Byte) (rest : List Byte)
    (num : Word) :
    a2i base ch (next :: rest) num =
      a2i base next rest (num * BitVec.ofInt 32 base + BitVec.ofInt 32 (a2d ch)) := by
  rw [a2i, if_neg hmore]

end Number

/-- `a2i` reads the digits up to the character that ends them. -/
theorem a2i_eq {digits : List ℕ} (hdigits : ∀ dgt ∈ digits, dgt < 10) (uc : Bool) {ch : Byte}
    (hends : Ends ch) (rest : List Byte) {first : Byte} {src : List Byte}
    (hsrc : first :: src = digits.map (digit uc) ++ ch :: rest) (start : ℕ) :
    a2i 10 first src (BitVec.ofNat 32 start) =
      some (BitVec.ofNat 32 (valueFrom 10 start digits), ch, rest) := by
  induction digits generalizing first src start with
  | nil =>
      obtain ⟨rfl, rfl⟩ := List.cons.inj hsrc
      exact a2i_of_ends hends _ _
  | cons dgt digits ih =>
      obtain ⟨rfl, hrest⟩ := List.cons.inj hsrc
      have hdgt := hdigits dgt List.mem_cons_self
      have hmore : ¬(a2d (digit uc dgt) < 0 ∨ 10 < a2d (digit uc dgt)) := by
        rw [a2d_digit hdgt]
        omega
      have hvalue : BitVec.ofNat 32 start * BitVec.ofInt 32 10 +
          BitVec.ofInt 32 (a2d (digit uc dgt)) = BitVec.ofNat 32 (start * 10 + dgt) := by
        rw [a2d_digit hdgt, BitVec.ofInt_natCast, BitVec.ofNat_add, BitVec.ofNat_mul]
        rfl
      cases src with
      | nil => simp at hrest
      | cons next src =>
          rw [a2i_cons hmore, hvalue]
          exact ih (fun other hother => hdigits other (List.mem_cons_of_mem _ hother)) hrest _

/-- What a format string says between the `%` and the conversion. -/
structure Field where
  lz : Bool
  lng : Bool
  width : ℕ
  bound : width < 2 ^ 31

namespace Field

def flags (field : Field) : Flags := ⟨field.lz, field.lng, field.width⟩

/-- The digits of the width, which is not written when it is zero. -/
def digits (field : Field) : List ℕ := if field.width = 0 then [] else numeral 10 field.width

def spelling (field : Field) : List Byte :=
  (if field.lz then [48] else []) ++
    (field.digits.map (digit false) ++ if field.lng then [108] else [])

end Field

section Flags

variable {flag next first ch : Byte} {rest src fmt : List Byte}

theorem skip_eq {present : Bool} (hnext : next ≠ flag)
    (hsrc : first :: src = (if present then [flag] else []) ++ next :: rest) :
    skip flag first src = some (present, next, rest) := by
  cases present with
  | false =>
      obtain ⟨rfl, rfl⟩ := List.cons.inj hsrc
      exact if_neg hnext
  | true =>
      obtain ⟨rfl, rfl⟩ := List.cons.inj hsrc
      exact if_pos rfl

theorem width_eq {digits : List ℕ} (hdigits : ∀ dgt ∈ digits, dgt < 10) (hends : Ends ch)
    (hsrc : first :: src = digits.map (digit false) ++ ch :: rest) :
    width first src = some (BitVec.ofNat 32 (valueFrom 10 0 digits), ch, rest) := by
  rw [width]
  cases digits with
  | nil =>
      obtain ⟨rfl, rfl⟩ := List.cons.inj hsrc
      exact if_neg hends.not_digit
  | cons dgt digits =>
      obtain ⟨rfl, _⟩ := List.cons.inj hsrc
      have hdgt := hdigits dgt List.mem_cons_self
      rw [toNat_digit hdgt, if_pos (by omega)]
      exact a2i_eq hdigits false hends rest hsrc 0

theorem Field.digits_lt (field : Field) : ∀ dgt ∈ field.digits, dgt < 10 := by
  intro dgt hdgt
  rw [digits] at hdgt
  split_ifs at hdgt
  · simp at hdgt
  · exact lt_of_mem_numeral (by omega) hdgt

theorem Field.valueFrom_digits (field : Field) : valueFrom 10 0 field.digits = field.width := by
  rw [digits]
  split_ifs with hzero
  · rw [hzero]
    rfl
  · exact valueFrom_numeral 10 field.width

/-- What follows the flag `0` does not look like another one. -/
theorem Field.exists_cons (field : Field) (hends : Ends ch) (rest : List Byte) :
    ∃ next fmt, next ≠ 48 ∧ next :: fmt =
      field.digits.map (digit false) ++ ((if field.lng then [108] else []) ++ ch :: rest) := by
  cases hdigits : field.digits with
  | nil =>
      cases field.lng with
      | false =>
          refine ⟨ch, rest, ?_, rfl⟩
          rintro rfl
          revert hends
          decide
      | true => exact ⟨108, ch :: rest, by decide, rfl⟩
  | cons dgt digits =>
      refine ⟨_, _, ?_, rfl⟩
      have hdgt : dgt < 10 := field.digits_lt dgt (by simp [hdigits])
      have hzero : dgt ≠ 0 := by
        rintro rfl
        rw [Field.digits] at hdigits
        split_ifs at hdigits with hwidth
        exact head_numeral_ne_zero hwidth (congrArg List.head? hdigits)
      intro heq
      have hnat := congrArg BitVec.toNat heq
      rw [toNat_digit hdgt] at hnat
      exact hzero (Nat.add_right_cancel hnat)

/-- The flags that are spelled are read. -/
theorem Field.flags_spelling (field : Field) (hends : Ends ch) (hch : ch ≠ 108)
    (rest : List Byte) :
    Format.flags (field.spelling ++ ch :: rest) = some (field.flags, ch, rest) := by
  obtain ⟨next, fmt, hnext, hfmt⟩ := field.exists_cons hends rest
  obtain ⟨stop, after, hstop, hafter⟩ : ∃ stop after, Ends stop ∧
      stop :: after = (if field.lng then [108] else []) ++ ch :: rest := by
    cases field.lng with
    | false => exact ⟨ch, rest, hends, rfl⟩
    | true => exact ⟨108, ch :: rest, by decide, rfl⟩
  obtain ⟨first, src, hsrc⟩ : ∃ first src,
      first :: src = (if field.lz then [48] else []) ++ next :: fmt := by
    cases field.lz with
    | false => exact ⟨next, fmt, rfl⟩
    | true => exact ⟨48, next :: fmt, rfl⟩
  have hwhole : field.spelling ++ ch :: rest = first :: src := by
    rw [hsrc, hfmt, Field.spelling, List.append_assoc, List.append_assoc]
  rw [← hafter] at hfmt
  have hwidth : (BitVec.ofNat 32 field.width).toInt = field.width := by
    have hbound := field.bound
    rw [BitVec.toInt_eq_toNat_cond, BitVec.toNat_ofNat]
    omega
  rw [hwhole, Format.flags, read, Option.bind_some]
  simp only [skip_eq hnext hsrc, width_eq field.digits_lt hstop hfmt, skip_eq hch hafter,
    Option.bind_some, Option.map_some, field.valueFrom_digits, hwidth, Field.flags]

end Flags

end Rtk.Format
