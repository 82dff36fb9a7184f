import Mathlib.Data.List.Induction
import Rtk.Core.Transition
import Rtk.Lib.Random

/-!
# The seed that the generator must not have

`Seed` looks at the seed that is there instead of the one that it is given.
-/

namespace Rtk.Random

open Rtk.ByteMemory
open Rtk.Transition

section Seeds

variable {g : Generator}

theorem seed_randMax (g : Generator) (max : Word) :
    (g.randMax max).2.seed_ = g.seed_ ∨ (g.randMax max).2.seed_ = g.rand.1 := by
  rw [Generator.randMax]
  split_ifs
  · exact .inl rfl
  · exact .inr rfl

theorem seed_randRange (g : Generator) (min max : Word) :
    (g.randRange min max).2.seed_ = g.seed_ ∨ (g.randRange min max).2.seed_ = g.rand.1 := by
  rw [Generator.randRange]
  split_ifs
  · exact .inl rfl
  · exact seed_randMax g (max - min)

/-- No call of the three others makes the seed 0 or leaves 0 behind. -/
theorem seed_call_eq_zero_iff {call : Call} (hcall : ∀ s, call ≠ .seed s) :
    (g.call call).seed_ = 0 ↔ g.seed_ = 0 := by
  have hnumber := @rand_eq_zero_iff g
  cases call with
  | seed s => exact absurd rfl (hcall s)
  | rand => exact hnumber
  | randMax max =>
      cases seed_randMax g max with
      | inl hkept => rw [Generator.call, hkept]
      | inr hnew => rw [Generator.call, hnew, hnumber]
  | randRange min max =>
      cases seed_randRange g min max with
      | inl hkept => rw [Generator.call, hkept]
      | inr hnew => rw [Generator.call, hnew, hnumber]

/-- From another seed than 0 only `Seed( 0 )` leads to 0. -/
theorem seed_call_ne_zero_iff (hseed : g.seed_ ≠ 0) (call : Call) :
    (g.call call).seed_ ≠ 0 ↔ call ≠ .seed 0 := by
  cases call with
  | seed s =>
      rw [Generator.call, Generator.seed, if_neg hseed, ne_eq, ne_eq, Call.seed.injEq]
  | rand => exact iff_of_true ((seed_call_eq_zero_iff (by simp)).not.mpr hseed) (by simp)
  | randMax max => exact iff_of_true ((seed_call_eq_zero_iff (by simp)).not.mpr hseed) (by simp)
  | randRange min max =>
      exact iff_of_true ((seed_call_eq_zero_iff (by simp)).not.mpr hseed) (by simp)

end Seeds

/-- The seed is never 0 exactly in the runs in which `Seed( 0 )` is not called. -/
theorem seed_ne_zero_iff (calls : List Call) :
    Throughout Generator.call (fun g => g.seed_ ≠ 0) .static calls ↔ Call.seed 0 ∉ calls := by
  have hsteps : EachStep Generator.call (fun _ _ => True) .static calls := eachStep_true _ _
  have hseed : Generator.static.seed_ ≠ 0 := by decide
  calc
    Throughout Generator.call (fun g => g.seed_ ≠ 0) .static calls ↔
        EachStep Generator.call (fun _ call => call ≠ .seed 0) .static calls := by
      apply @throughout_iff _ _ _ (fun _ => True) (fun g => g.seed_ ≠ 0) (fun _ _ => True) _ _ _
        trivial hseed _ _ hsteps
      · exact fun _ hkept _ hcall => ⟨trivial, (seed_call_ne_zero_iff hkept _).mpr hcall⟩
      · exact fun _ hkept _ hnext => (seed_call_ne_zero_iff hkept _).mp hnext
    _ ↔ Call.seed 0 ∉ calls := by
      rw [eachStep_iff_forall_mem]
      exact ⟨fun h hmem => h _ hmem rfl, fun h call hmem heq => h (heq ▸ hmem)⟩

/-- `Seed( 0 )` is accepted, and every number after it is 0. -/
theorem not_seed_ne_zero :
    ¬∀ calls, Throughout Generator.call (fun g => g.seed_ ≠ 0) .static calls := by
  intro hall
  have hlast := (hall [.seed 0]).last
  exact absurd hlast (by decide)

end Rtk.Random
