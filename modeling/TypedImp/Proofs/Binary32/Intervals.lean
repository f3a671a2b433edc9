import Mathlib.Data.Rat.Cast.Order
import Mathlib.Tactic.Linarith
import Mathlib.Tactic.Positivity
import Mathlib.Tactic.Ring
import TypedImp.Binary32.Shortest

/-!
# Rounding intervals

The shortest decimal of a binary number lies in the rounding interval of the number
(`inInterval_shortest`).  The intervals of two numbers have nothing in common, since their ends do
not belong to both (`eq_of_inInterval`).  So the decimal gives back the number.
-/

namespace TypedImp.Binary32

/-- A quarter of a unit of the mantissa. -/
def quarterUnit (exponent : Int) : ℚ :=
  2 ^ (exponent - 2)

theorem quarterUnit_pos (exponent : Int) : 0 < quarterUnit exponent := by
  exact zpow_pos (by norm_num) _

namespace Decimal

/-- The number that a decimal writes. -/
def value (decimal : Decimal) : ℚ :=
  decimal.digits * 10 ^ decimal.exponent

/-- A number lies in the rounding interval of a binary number, the ends of which belong to it if the
mantissa is even. -/
structure InInterval (mantissa : Nat) (exponent : Int) (number : ℚ) : Prop where
  lower : lowerEnd mantissa exponent * quarterUnit exponent ≤ number
  upper : number ≤ upperEnd mantissa * quarterUnit exponent
  inside : mantissa % 2 = 1 → lowerEnd mantissa exponent * quarterUnit exponent < number ∧
    number < upperEnd mantissa * quarterUnit exponent

section Grids

variable {mantissa : Nat} {exponent place : Int}

/-- The quarters of a unit on the grid of a place. -/
def gridQuarter (exponent place : Int) : Nat :=
  Nat.pow 10 (-place).toNat <<< (exponent - 2).toNat

/-- The step of the grid of a place. -/
def gridStep (exponent place : Int) : Nat :=
  Nat.pow 10 place.toNat <<< (2 - exponent).toNat

theorem gridQuarter_pos (exponent place : Int) : 0 < gridQuarter exponent place := by
  rw [gridQuarter, Nat.shiftLeft_eq, Nat.pow_eq]
  positivity

theorem gridStep_pos (exponent place : Int) : 0 < gridStep exponent place := by
  rw [gridStep, Nat.shiftLeft_eq, Nat.pow_eq]
  positivity

/-- What the quarters and the steps are counted in. -/
def gridScale (exponent place : Int) : ℚ :=
  10 ^ (-place).toNat * 2 ^ (2 - exponent).toNat

theorem gridScale_pos (exponent place : Int) : 0 < gridScale exponent place := by
  unfold gridScale
  positivity

theorem zpow_mul_pow_neg (base : ℚ) (positive : 0 < base) (power : Int) :
    base ^ power * base ^ (-power).toNat = base ^ power.toNat := by
  rw [← zpow_natCast, ← zpow_natCast, ← zpow_add₀ positive.ne']
  congr 1
  omega

theorem quarterUnit_mul_gridScale (exponent place : Int) :
    quarterUnit exponent * gridScale exponent place = gridQuarter exponent place := by
  have powers := zpow_mul_pow_neg 2 (by norm_num) (exponent - 2)
  rw [show -(exponent - 2) = 2 - exponent by omega] at powers
  rw [quarterUnit, gridScale, gridQuarter, Nat.shiftLeft_eq, Nat.pow_eq, mul_left_comm, powers]
  push_cast
  rfl

theorem value_mul_gridScale (digits : Nat) (exponent place : Int) :
    value ⟨digits, place⟩ * gridScale exponent place =
      (digits * gridStep exponent place : Nat) := by
  have powers := zpow_mul_pow_neg 10 (by norm_num) place
  rw [value, gridScale, gridStep, Nat.shiftLeft_eq, Nat.pow_eq, mul_assoc, ← mul_assoc (10 ^ place),
    powers]
  push_cast
  rfl

/-- Whether a decimal reaches a number of quarters is seen on its grid. -/
theorem quarters_le_value_iff {quarters digits : Nat} :
    quarters * quarterUnit exponent ≤ value ⟨digits, place⟩ ↔
      quarters * gridQuarter exponent place ≤ digits * gridStep exponent place := by
  rw [← mul_le_mul_iff_of_pos_right (gridScale_pos exponent place), mul_assoc,
    quarterUnit_mul_gridScale, value_mul_gridScale]
  exact_mod_cast Iff.rfl

theorem value_le_quarters_iff {quarters digits : Nat} :
    value ⟨digits, place⟩ ≤ quarters * quarterUnit exponent ↔
      digits * gridStep exponent place ≤ quarters * gridQuarter exponent place := by
  rw [← mul_le_mul_iff_of_pos_right (gridScale_pos exponent place), mul_assoc,
    quarterUnit_mul_gridScale, value_mul_gridScale]
  exact_mod_cast Iff.rfl

theorem quarters_lt_value_iff {quarters digits : Nat} :
    quarters * quarterUnit exponent < value ⟨digits, place⟩ ↔
      quarters * gridQuarter exponent place < digits * gridStep exponent place := by
  rw [← not_le, value_le_quarters_iff, not_le]

theorem value_lt_quarters_iff {quarters digits : Nat} :
    value ⟨digits, place⟩ < quarters * quarterUnit exponent ↔
      digits * gridStep exponent place < quarters * gridQuarter exponent place := by
  rw [← not_le, quarters_le_value_iff, not_le]

theorem lowerEnd_lt (exponent : Int) (positive : 0 < mantissa) :
    lowerEnd mantissa exponent < 4 * mantissa := by
  unfold lowerEnd
  split <;> omega

theorem lt_upperEnd (mantissa : Nat) : 4 * mantissa < upperEnd mantissa := by
  unfold upperEnd
  omega

/-- A multiple of the step lies in the interval if it lies between the ends on the grid. -/
theorem inInterval_of_grid {digits : Nat}
    (lower : lowerEnd mantissa exponent * gridQuarter exponent place ≤
      digits * gridStep exponent place)
    (upper : digits * gridStep exponent place ≤
      upperEnd mantissa * gridQuarter exponent place)
    (inside : mantissa % 2 = 1 →
      lowerEnd mantissa exponent * gridQuarter exponent place < digits * gridStep exponent place ∧
        digits * gridStep exponent place < upperEnd mantissa * gridQuarter exponent place) :
    InInterval mantissa exponent (value ⟨digits, place⟩) :=
  ⟨quarters_le_value_iff.mpr lower, value_le_quarters_iff.mpr upper, fun odd =>
    ⟨quarters_lt_value_iff.mpr (inside odd).1, value_lt_quarters_iff.mpr (inside odd).2⟩⟩

/-- A comparison that holds strictly if a condition fails holds. -/
theorem le_of_ite {holds : Prop} [Decidable holds] {first second : Nat}
    (reaches : if holds then first ≤ second else first < second) : first ≤ second := by
  split at reaches
  · exact reaches
  · exact Nat.le_of_lt reaches

/-- What is found on a grid lies in the rounding interval. -/
theorem inInterval_of_onGrid? {decimal : Decimal} (positive : 0 < mantissa)
    (found : onGrid? mantissa exponent place = some decimal) :
    InInterval mantissa exponent decimal.value := by
  have lower := Nat.mul_lt_mul_of_pos_right (lowerEnd_lt exponent positive)
    (gridQuarter_pos exponent place)
  have upper := Nat.mul_lt_mul_of_pos_right (lt_upperEnd mantissa)
    (gridQuarter_pos exponent place)
  have below := Nat.div_mul_le_self (4 * mantissa * gridQuarter exponent place)
    (gridStep exponent place)
  have above := Nat.lt_div_mul_add (a := 4 * mantissa * gridQuarter exponent place)
    (gridStep_pos exponent place)
  rw [← Nat.add_one_mul] at above
  unfold onGrid? at found
  rw [← gridQuarter, ← gridStep] at found
  rcases ite_eq_iff.mp found with ⟨⟨reaches, _⟩, isBelow⟩ | ⟨_, found⟩
  · cases isBelow
    refine inInterval_of_grid (le_of_ite reaches) (by omega) fun odd => ?_
    rw [if_neg (by omega)] at reaches
    exact ⟨reaches, by omega⟩
  · rcases ite_eq_iff.mp found with ⟨reaches, isAbove⟩ | ⟨_, isNone⟩
    · cases isAbove
      refine inInterval_of_grid (by omega) (le_of_ite reaches) fun odd => ?_
      rw [if_neg (by omega)] at reaches
      exact ⟨by omega, reaches⟩
    · cases isNone

/-- The place of the finest grid. -/
def finestPlace : Int :=
  coarsestPlace - (gridCount - 1 : Nat)

theorem gridStep_finestPlace_lt (least : smallestExponent ≤ exponent) :
    gridStep exponent finestPlace < 2 * gridQuarter exponent finestPlace := by
  have step : gridStep exponent finestPlace = 2 ^ (2 - exponent).toNat := by
    simp [gridStep, finestPlace, coarsestPlace, gridCount, Nat.shiftLeft_eq]
  have quarter : 10 ^ 46 ≤ gridQuarter exponent finestPlace := by
    rw [gridQuarter, Nat.shiftLeft_eq]
    exact Nat.le_mul_of_pos_right _ (by positivity)
  have power : 2 ^ (2 - exponent).toNat ≤ 2 ^ 151 := by
    refine Nat.pow_le_pow_right (by decide) ?_
    rw [smallestExponent] at least
    omega
  omega

/-- The finest grid has a step that is shorter than the upper half of every rounding interval. -/
theorem exists_onGrid?_finestPlace (mantissa : Nat) (least : smallestExponent ≤ exponent) :
    ∃ decimal, onGrid? mantissa exponent finestPlace = some decimal := by
  have step := gridStep_finestPlace_lt least
  have below := Nat.div_mul_le_self (4 * mantissa * gridQuarter exponent finestPlace)
    (gridStep exponent finestPlace)
  have above :
      (4 * mantissa * gridQuarter exponent finestPlace / gridStep exponent finestPlace + 1) *
          gridStep exponent finestPlace < upperEnd mantissa * gridQuarter exponent finestPlace := by
    rw [Nat.add_one_mul, upperEnd, Nat.add_mul]
    omega
  unfold onGrid?
  rw [← gridQuarter, ← gridStep]
  dsimp only
  by_cases even : mantissa % 2 = 0
  · simp only [if_pos even, if_pos above.le]
    split <;> exact ⟨_, rfl⟩
  · simp only [if_neg even, if_pos above]
    split <;> exact ⟨_, rfl⟩

/-- If one of some grids is met, what is given was found on a grid. -/
theorem exists_onGrid?_eq_onFinerGrids {steps behind : Nat} (inSteps : behind < steps)
    {decimal : Decimal} (found : onGrid? mantissa exponent (place - behind) = some decimal) :
    ∃ grid, onGrid? mantissa exponent grid = some (onFinerGrids mantissa exponent steps place) := by
  induction steps generalizing place behind with
  | zero => cases inSteps
  | succ steps ih =>
    rw [onFinerGrids]
    cases here : onGrid? mantissa exponent place with
    | some nearest => exact ⟨place, here⟩
    | none =>
      cases behind with
      | zero =>
        rw [Int.natCast_zero, Int.sub_zero, here] at found
        cases found
      | succ behind =>
        refine ih (Nat.lt_of_succ_lt_succ inSteps) ?_
        rw [← found]
        congr 1
        omega

/-- The shortest decimal lies in the rounding interval. -/
theorem inInterval_shortest (positive : 0 < mantissa) (least : smallestExponent ≤ exponent) :
    InInterval mantissa exponent (shortest mantissa exponent).value := by
  obtain ⟨decimal, found⟩ := exists_onGrid?_finestPlace mantissa least
  have inSteps : gridCount - 1 < gridCount := by decide
  obtain ⟨grid, nearest⟩ := exists_onGrid?_eq_onFinerGrids inSteps found
  exact inInterval_of_onGrid? positive nearest

end Grids

/-- A mantissa and an exponent as a number of 32 bits has them. -/
structure Canonical (mantissa : Nat) (exponent : Int) : Prop where
  positive : 0 < mantissa
  small : mantissa < 2 * smallestNormalMantissa
  least : smallestExponent ≤ exponent
  normal : smallestExponent < exponent → smallestNormalMantissa ≤ mantissa

section Intervals

variable {mantissa mantissa' : Nat} {exponent exponent' : Int}

theorem two_mul_quarterUnit_le (less : exponent < exponent') :
    2 * quarterUnit exponent ≤ quarterUnit exponent' := by
  rw [quarterUnit, quarterUnit, ← zpow_one_add₀ (by norm_num)]
  exact zpow_le_zpow_right₀ (by norm_num) (by omega)

/-- With one exponent, the interval of the larger mantissa begins where the other one ends. -/
theorem upperEnd_le_lowerEnd (canonical : Canonical mantissa exponent)
    (less : mantissa < mantissa') :
    upperEnd mantissa ≤ lowerEnd mantissa' exponent ∧
      (mantissa % 2 = 0 → mantissa' % 2 = 0 →
        upperEnd mantissa < lowerEnd mantissa' exponent) := by
  have notSmallest : ¬ (mantissa' = smallestNormalMantissa ∧ smallestExponent < exponent) := by
    rintro ⟨rfl, above⟩
    exact Nat.not_le_of_gt less (canonical.normal above)
  rw [lowerEnd, if_neg notSmallest, upperEnd]
  omega

/-- The interval of a number with a larger exponent begins behind twice the other interval. -/
theorem upperEnd_le_two_mul_lowerEnd (small : mantissa < 2 * smallestNormalMantissa)
    (normal : smallestNormalMantissa ≤ mantissa') (above : smallestExponent < exponent') :
    upperEnd mantissa ≤ 2 * lowerEnd mantissa' exponent' ∧
      (mantissa % 2 = 0 → upperEnd mantissa < 2 * lowerEnd mantissa' exponent') := by
  rw [upperEnd, lowerEnd]
  rw [smallestNormalMantissa] at *
  split <;> omega

/-- The interval of a smaller number ends where the one of a larger number begins, and the common
end does not belong to both. -/
theorem end_le_begin (canonical : Canonical mantissa exponent)
    (canonical' : Canonical mantissa' exponent')
    (less : exponent < exponent' ∨ exponent = exponent' ∧ mantissa < mantissa') :
    upperEnd mantissa * quarterUnit exponent ≤
        lowerEnd mantissa' exponent' * quarterUnit exponent' ∧
      (mantissa % 2 = 0 → mantissa' % 2 = 0 →
        upperEnd mantissa * quarterUnit exponent <
          lowerEnd mantissa' exponent' * quarterUnit exponent') := by
  have unit := quarterUnit_pos exponent
  rcases less with less | ⟨rfl, less⟩
  · have above := lt_of_le_of_lt canonical.least less
    obtain ⟨le, lt⟩ := upperEnd_le_two_mul_lowerEnd canonical.small (canonical'.normal above) above
    have wider : 2 * lowerEnd mantissa' exponent' * quarterUnit exponent ≤
        lowerEnd mantissa' exponent' * quarterUnit exponent' := by
      rw [mul_comm 2, mul_assoc]
      exact mul_le_mul_of_nonneg_left (two_mul_quarterUnit_le less) (Nat.cast_nonneg _)
    refine ⟨le_trans (mul_le_mul_of_nonneg_right ?_ unit.le) wider, fun even _ =>
      lt_of_lt_of_le (mul_lt_mul_of_pos_right ?_ unit) wider⟩
    · exact_mod_cast le
    · exact_mod_cast lt even
  · obtain ⟨le, lt⟩ := upperEnd_le_lowerEnd canonical less
    refine ⟨mul_le_mul_of_nonneg_right ?_ unit.le, fun even even' =>
      mul_lt_mul_of_pos_right ?_ unit⟩
    · exact_mod_cast le
    · exact_mod_cast lt even even'

theorem not_inInterval_of_lt {number : ℚ} (canonical : Canonical mantissa exponent)
    (canonical' : Canonical mantissa' exponent')
    (less : exponent < exponent' ∨ exponent = exponent' ∧ mantissa < mantissa')
    (lies : InInterval mantissa exponent number) :
    ¬ InInterval mantissa' exponent' number := by
  intro lies'
  obtain ⟨le, lt⟩ := end_le_begin canonical canonical' less
  rcases Nat.mod_two_eq_zero_or_one mantissa with even | odd
  · rcases Nat.mod_two_eq_zero_or_one mantissa' with even' | odd'
    · exact absurd (le_trans lies'.lower lies.upper) (not_le_of_gt (lt even even'))
    · exact absurd (lt_of_lt_of_le (lies'.inside odd').1 lies.upper) (not_lt_of_ge le)
  · exact absurd (lt_of_le_of_lt lies'.lower (lies.inside odd).2) (not_lt_of_ge le)

/-- A number lies in one rounding interval. -/
theorem eq_of_inInterval {number : ℚ} (canonical : Canonical mantissa exponent)
    (canonical' : Canonical mantissa' exponent') (lies : InInterval mantissa exponent number)
    (lies' : InInterval mantissa' exponent' number) :
    mantissa = mantissa' ∧ exponent = exponent' := by
  rcases lt_trichotomy exponent exponent' with less | rfl | greater
  · exact absurd lies' (not_inInterval_of_lt canonical canonical' (.inl less) lies)
  · rcases Nat.lt_trichotomy mantissa mantissa' with less | rfl | greater
    · exact absurd lies' (not_inInterval_of_lt canonical canonical' (.inr ⟨rfl, less⟩) lies)
    · exact ⟨rfl, rfl⟩
    · exact absurd lies (not_inInterval_of_lt canonical' canonical (.inr ⟨rfl, greater⟩) lies')
  · exact absurd lies (not_inInterval_of_lt canonical' canonical (.inl greater) lies')

/-- The number of a shortest decimal is positive. -/
theorem value_shortest_pos (canonical : Canonical mantissa exponent) :
    0 < (shortest mantissa exponent).value := by
  have lies := inInterval_shortest canonical.positive canonical.least
  have lower : 0 < lowerEnd mantissa exponent := by
    have := canonical.positive
    unfold lowerEnd
    split <;> omega
  refine lt_of_lt_of_le (mul_pos ?_ (quarterUnit_pos exponent)) lies.lower
  exact_mod_cast lower

/-- Two numbers of 32 bits with equal shortest decimals are equal. -/
theorem eq_of_value_shortest (canonical : Canonical mantissa exponent)
    (canonical' : Canonical mantissa' exponent')
    (same : (shortest mantissa exponent).value = (shortest mantissa' exponent').value) :
    mantissa = mantissa' ∧ exponent = exponent' := by
  refine eq_of_inInterval canonical canonical'
    (inInterval_shortest canonical.positive canonical.least) ?_
  rw [same]
  exact inInterval_shortest canonical'.positive canonical'.least

end Intervals

end Decimal

end TypedImp.Binary32
