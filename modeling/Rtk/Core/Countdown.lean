import Mathlib.Data.Nat.Notation
import Mathlib.Logic.Function.Iterate

/-!
# A timer that counts down

The timer counts down to zero and starts again from its reload value.  Whenever it starts
again it sets a flag, which stays set until it is cleared.  As long as the flag is not set,
a later value is not above an earlier one.
-/

namespace Rtk

/-- A periodic timer with its flag. -/
structure Countdown (reload : ℕ) where
  value : ℕ
  wentOff : Bool
  value_le : value ≤ reload

namespace Countdown

open Function

variable {reload : ℕ}

def tick (timer : Countdown reload) : Countdown reload :=
  if timer.value = 0 then ⟨reload, true, Nat.le_refl reload⟩
  else
    { timer with
      value := timer.value - 1
      value_le := Nat.le_trans (Nat.sub_le _ _) timer.value_le }

/-- The timer starts from its reload value, with the flag as it is. -/
def load (timer : Countdown reload) : Countdown reload :=
  { timer with value := reload, value_le := Nat.le_refl reload }

def clear (timer : Countdown reload) : Countdown reload := { timer with wentOff := false }

/-- Some time passes, perhaps none. -/
def Elapses (timer later : Countdown reload) : Prop := ∃ ticks, tick^[ticks] timer = later

variable {timer later latest : Countdown reload}

theorem Elapses.refl (timer : Countdown reload) : timer.Elapses timer := ⟨0, rfl⟩

theorem Elapses.trans (h : timer.Elapses later) (h' : later.Elapses latest) :
    timer.Elapses latest := by
  obtain ⟨ticks, rfl⟩ := h
  obtain ⟨more, rfl⟩ := h'
  exact ⟨more + ticks, iterate_add_apply tick more ticks timer⟩

/-- What every tick preserves holds later. -/
theorem Elapses.preserves {property : Countdown reload → Prop} (h : timer.Elapses later)
    (htick : ∀ timer : Countdown reload, property timer → property timer.tick)
    (hproperty : property timer) : property later := by
  obtain ⟨ticks, rfl⟩ := h
  induction ticks generalizing timer with
  | zero => exact hproperty
  | succ ticks ih => exact ih (htick timer hproperty)

/-- The timer comes to every value below its own. -/
theorem elapses_down (value : ℕ) (wentOff : Bool) (hreload : value ≤ reload) (ticks : ℕ)
    (hle : value + ticks ≤ reload) :
    (⟨value + ticks, wentOff, hle⟩ : Countdown reload).Elapses ⟨value, wentOff, hreload⟩ := by
  induction ticks with
  | zero => exact .refl _
  | succ ticks ih =>
      have htick : (⟨value + (ticks + 1), wentOff, hle⟩ : Countdown reload).tick =
          ⟨value + ticks, wentOff, Nat.le_of_succ_le hle⟩ := rfl
      exact Elapses.trans ⟨1, htick⟩ (ih _)

theorem wentOff_tick (timer : Countdown reload) :
    timer.tick.wentOff = (decide (timer.value = 0) || timer.wentOff) := by
  rw [tick]
  by_cases hzero : timer.value = 0
  · rw [if_pos hzero, decide_eq_true hzero, Bool.true_or]
  · rw [if_neg hzero, decide_eq_false hzero, Bool.false_or]

/-- The flag stays set. -/
theorem Elapses.wentOff (h : timer.Elapses later) (hset : timer.wentOff = true) :
    later.wentOff = true := by
  apply h.preserves _ hset
  intro timer hset
  rw [wentOff_tick, hset, Bool.or_true]

/-- A flag that is not set was not set before. -/
theorem Elapses.not_wentOff (h : timer.Elapses later) (hunset : later.wentOff = false) :
    timer.wentOff = false := by
  rw [← Bool.not_eq_true]
  intro hset
  rw [h.wentOff hset] at hunset
  exact absurd hunset (by decide)

/-- As long as the flag is not set, the timer has counted down. -/
theorem Elapses.value_le (h : timer.Elapses later) (hunset : later.wentOff = false) :
    later.value ≤ timer.value := by
  have hdown : later.wentOff = true ∨ later.value ≤ timer.value := by
    apply @Elapses.preserves _ _ _ (fun later => later.wentOff = true ∨
      later.value ≤ timer.value) h
    · intro later hbefore
      by_cases hzero : later.value = 0
      · left
        rw [wentOff_tick, decide_eq_true hzero, Bool.true_or]
      · rcases hbefore with hset | hle
        · exact .inl ((Elapses.wentOff ⟨1, rfl⟩) hset)
        · right
          rw [tick, if_neg hzero]
          exact Nat.le_trans (Nat.sub_le _ _) hle
    · exact .inr (Nat.le_refl _)
  rcases hdown with hset | hle
  · rw [hunset] at hset
    exact absurd hset (by decide)
  · exact hle

end Countdown

end Rtk
