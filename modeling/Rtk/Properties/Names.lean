import Rtk.Properties.NameServer

/-!
# The names in requests

`RegisterAs` and `WhoIs` put the same bytes into their requests.  The length that they
copy counts the terminator, and both write a terminator behind what they have copied.
-/

namespace Rtk.NameServer

open Rtk.ByteMemory
open Rtk.Lib

/-- Over any memory, the request holds `text` in its name buffer and leaves what lies
behind the buffer alone. -/
structure Holds (request : (ℕ → Byte) → NameServerRequest) (text : List Byte) : Prop where
  inside : text.length < nsNameBufferSize
  spells : ∀ uninit, Spells (request uninit).name 0 text
  framed : ∀ uninit i, nsNameBufferSize ≤ i → (request uninit).name i = uninit i

/-- Both requests hold the name, cut to the length of the buffer, and have one hash. -/
structure SameName (str : ℕ → Byte) (name : List Byte) : Prop where
  registers : Holds (registerAsRequest str) (name.take (nsNameBufferSize - 1))
  looksUp : Holds (whoIsRequest str) (name.take (nsNameBufferSize - 1))
  sameKey : ∃ key, ∀ uninit uninit' fuel, nsNameBufferSize ≤ fuel →
    hash (registerAsRequest str uninit).name fuel = some key ∧
      hash (whoIsRequest str uninit').name fuel = some key

section Names

variable {str : ℕ → Byte} {name text : List Byte}
  {request request' : (ℕ → Byte) → NameServerRequest}

theorem Holds.congr (h : Holds request text)
    (hname : ∀ uninit, (request' uninit).name = (request uninit).name) :
    Holds request' text where
  inside := h.inside
  spells uninit := by
    rw [hname]
    exact h.spells uninit
  framed uninit i hi := by
    rw [hname]
    exact h.framed uninit i hi

theorem Holds.hash_eq (h : Holds request text) (uninit : ℕ → Byte) {fuel : ℕ}
    (hfuel : nsNameBufferSize ≤ fuel) :
    hash (request uninit).name fuel = some (hashOf text) :=
  hash_of_spells (h.spells uninit) (Nat.lt_of_lt_of_le h.inside hfuel)

theorem holds_whoIsRequest (hname : Spells str 0 name)
    (hlength : name.length < nsNameBufferSize - 1) : Holds (whoIsRequest str) name where
  inside := Nat.lt_of_lt_of_le hlength (Nat.sub_le _ _)
  spells uninit := spells_whoIsRequest hname (Nat.le_of_lt hlength) uninit
  framed uninit i hi := by
    rw [whoIsRequest_name_apply, strnlen_of_spells hname (Nat.le_of_lt hlength),
      if_neg (by omega), if_neg (by omega)]

/-- From 127 characters on, the terminator is written behind the buffer. -/
theorem whoIsRequest_behind (hname : Spells str 0 name)
    (hlength : nsNameBufferSize - 1 ≤ name.length) (uninit : ℕ → Byte) :
    (whoIsRequest str uninit).name nsNameBufferSize = 0 := by
  have hcount : strnlen str (nsNameBufferSize - 1) = nsNameBufferSize := by
    rw [strnlen, strnlenFrom_of_spells hname, Nat.min_eq_right hlength]
    rfl
  rw [whoIsRequest_name_apply, hcount, if_neg (Nat.lt_irrefl _), if_pos rfl]

end Names

/-- The requests for a name keep to their buffer and agree exactly when the name has fewer
than 127 characters. -/
theorem sameName_iff {str : ℕ → Byte} {name : List Byte} (hname : Spells str 0 name) :
    SameName str name ↔ name.length < nsNameBufferSize - 1 := by
  constructor
  · intro hsame
    by_contra hlong
    have hwritten := whoIsRequest_behind hname (Nat.le_of_not_lt hlong) fun _ => 1
    have hkept := hsame.looksUp.framed (fun _ => 1) nsNameBufferSize (Nat.le_refl _)
    exact absurd (hwritten.symm.trans hkept) (by decide)
  · intro hlength
    have hcut : name.take (nsNameBufferSize - 1) = name :=
      List.take_of_length_le (Nat.le_of_lt hlength)
    have hwhoIs := holds_whoIsRequest hname hlength
    have hregisterAs : Holds (registerAsRequest str) name :=
      hwhoIs.congr (registerAsRequest_name str)
    refine ⟨?_, ?_, hashOf name, ?_⟩
    · rw [hcut]
      exact hregisterAs
    · rw [hcut]
      exact hwhoIs
    · intro uninit uninit' fuel hfuel
      exact ⟨hregisterAs.hash_eq uninit hfuel, hwhoIs.hash_eq uninit' hfuel⟩

theorem sameName_sample :
    SameName (sampleVisit 5 .registerAs sem).str sem ↔ sem.length < nsNameBufferSize - 1 :=
  sameName_iff (by decide)

/-- A name of 127 characters has its terminator in the last byte of the buffer, and another
one is written behind it. -/
theorem not_sameName :
    ¬∀ {str : ℕ → Byte} {name : List Byte}, Spells str 0 name → SameName str name := by
  intro hall
  have hspells : Spells (fun i => if i < 127 then 97 else 0) 0 (List.replicate 127 97) := by
    decide +kernel
  have hkept := (hall hspells).looksUp.framed (fun _ => 1) nsNameBufferSize (Nat.le_refl _)
  have hwritten := whoIsRequest_behind hspells (Nat.le_of_eq List.length_replicate.symm) fun _ => 1
  exact absurd (hwritten.symm.trans hkept) (by decide)

end Rtk.NameServer
