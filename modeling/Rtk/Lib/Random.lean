import Rtk.Core.ByteMemory

/-!
# Random numbers

`lib/random.c`, a multiply-with-carry generator.  `RandMax` and `RandRange` refuse bounds
that they cannot serve and then leave the generator as it is.
-/

namespace Rtk.Random

open Rtk.ByteMemory

structure Generator where
  seed_ : Word
  randErrno : ℤ
  deriving DecidableEq

/-- Their initial values. -/
def Generator.static : Generator := ⟨362436069, 0⟩

namespace Generator

def seed (g : Generator) (s : Word) : Generator :=
  if g.seed_ = 0 then { g with randErrno := -1 } else { g with seed_ := s }

def rand (g : Generator) : Word × Generator :=
  let seed_ := (36969 : Word) * (g.seed_ &&& (65535 : Word)) + (g.seed_ >>> 16)
  (seed_, ⟨seed_, 0⟩)

def randMax (g : Generator) (max : Word) : Word × Generator :=
  if max = -1 then (0, { g with randErrno := -1 })
  else
    let (number, g) := g.rand
    (number % (max + 1), g)

def randRange (g : Generator) (min max : Word) : Word × Generator :=
  if max < min then (0, { g with randErrno := -1 })
  else
    let (number, g) := g.randMax (max - min)
    (number + min, g)

end Generator

/-- A call of a function of `lib/random.c` that may write its variables. -/
inductive Call where
  | seed (s : Word)
  | rand
  | randMax (max : Word)
  | randRange (min max : Word)
  deriving DecidableEq

def Generator.call (g : Generator) : Call → Generator
  | .seed s => g.seed s
  | .rand => g.rand.2
  | .randMax max => (g.randMax max).2
  | .randRange min max => (g.randRange min max).2

section Rand

variable {g : Generator}

/-- The step of `Rand` as arithmetic without wrap-around. -/
theorem toNat_rand (g : Generator) :
    g.rand.1.toNat = 36969 * (g.seed_.toNat % 65536) + g.seed_.toNat / 65536 := by
  have hmask : (65535 : Word).toNat = 2 ^ 16 - 1 := rfl
  have hlow : (g.seed_ &&& (65535 : Word)).toNat = g.seed_.toNat % 65536 := by
    rw [BitVec.toNat_and, hmask, Nat.and_two_pow_sub_one_eq_mod]
  have hhigh : (g.seed_ >>> 16).toNat = g.seed_.toNat / 65536 := by
    rw [BitVec.toNat_ushiftRight, Nat.shiftRight_eq_div_pow]
  have hfactor : (36969 : Word).toNat = 36969 := rfl
  rw [Generator.rand, BitVec.toNat_add, BitVec.toNat_mul, hlow, hhigh, hfactor]
  omega

/-- `Rand` gives 0 from the seed 0 and from no other. -/
theorem rand_eq_zero_iff : g.rand.1 = 0 ↔ g.seed_ = 0 := by
  have hzero : (0 : Word).toNat = 0 := rfl
  rw [← BitVec.toNat_inj, ← BitVec.toNat_inj, toNat_rand, hzero]
  omega

end Rand
end Rtk.Random
