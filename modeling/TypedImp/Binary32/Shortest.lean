/-!
# The shortest decimal of a binary number

A positive binary number `mantissa · 2^exponent` with a mantissa of 24 bits stands for
every real number that rounds to it.  Of the decimal numbers in that interval the
shortest one is taken: the coarsest grid of multiples of a power of ten that meets the
interval, and on it the multiple nearest to the number itself.  Only the two neighbours
of the number on a grid need to be tried.
-/

namespace TypedImp.Binary32

/-- The number `digits · 10^exponent`. -/
structure Decimal where
  digits : Nat
  exponent : Int
  deriving DecidableEq

namespace Decimal

/-- The smallest mantissa of a number that is not subnormal. -/
def smallestNormalMantissa : Nat :=
  8388608

/-- The exponent of the subnormal numbers. -/
def smallestExponent : Int :=
  -149

/-- The lower end of the rounding interval, in quarters of a unit of the mantissa.  Below
a power of two the numbers are twice as close. -/
def lowerEnd (mantissa : Nat) (exponent : Int) : Nat :=
  if mantissa = smallestNormalMantissa ∧ smallestExponent < exponent then
    4 * mantissa - 1
  else
    4 * mantissa - 2

/-- The upper end of the rounding interval, in quarters of a unit of the mantissa. -/
def upperEnd (mantissa : Nat) : Nat :=
  4 * mantissa + 2

/-- The multiple of `10^place` in the rounding interval that is nearest to the number,
and the larger of two that are equally near.  The ends of the interval belong to it if
the mantissa is even. -/
def onGrid? (mantissa : Nat) (exponent place : Int) : Option Decimal :=
  let quarter := Nat.pow 10 (-place).toNat <<< (exponent - 2).toNat
  let step := Nat.pow 10 place.toNat <<< (2 - exponent).toNat
  let number := 4 * mantissa * quarter
  let lower := lowerEnd mantissa exponent * quarter
  let upper := upperEnd mantissa * quarter
  let below := number / step
  let above := below + 1
  let reachesBelow := if mantissa % 2 = 0 then lower ≤ below * step else lower < below * step
  let reachesAbove := if mantissa % 2 = 0 then above * step ≤ upper else above * step < upper
  if reachesBelow ∧ ¬ (reachesAbove ∧ above * step - number ≤ number - below * step) then
    some ⟨below, place⟩
  else if reachesAbove then
    some ⟨above, place⟩
  else
    none

/-- Try grids from the place `place` on to finer ones. -/
def onFinerGrids (mantissa : Nat) (exponent : Int) : (steps : Nat) → (place : Int) → Decimal
  | 0, place => ⟨mantissa, place⟩
  | steps + 1, place =>
    match onGrid? mantissa exponent place with
    | some decimal => decimal
    | none => onFinerGrids mantissa exponent steps (place - 1)

/-- The place of the coarsest grid: every finite number is below its step. -/
def coarsestPlace : Int :=
  39

/-- The number of grids that are tried: the step of the last one is smaller than every
rounding interval. -/
def gridCount : Nat :=
  86

/-- The shortest decimal that rounds to a number. -/
def shortest (mantissa : Nat) (exponent : Int) : Decimal :=
  onFinerGrids mantissa exponent gridCount coarsestPlace

end Decimal

end TypedImp.Binary32
