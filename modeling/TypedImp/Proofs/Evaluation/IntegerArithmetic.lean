import Mathlib.Algebra.Group.Int.Defs
import Mathlib.Algebra.Group.Nat.Defs
import TypedImp.Proofs.Evaluation.Recursion

/-!
# Arithmetic of integers

Addition, subtraction, multiplication and the sign wrap around at every step.  Reducing a
number to 32 bits respects all of them, so the result is that of a computation without bounds
which is reduced once at its end.  A division reduces its operands first.
-/

namespace TypedImp

/-- A number is reduced to the only one of 32 bits with a sign that is congruent to it. -/
structure ReducesTo (exact : Int) (reduced : Int32) : Prop where
  lower : -2 ^ 31 ≤ reduced.toInt
  upper : reduced.toInt < 2 ^ 31
  congruent : (2 ^ 32 : Int) ∣ reduced.toInt - exact
  unique : ∀ other : Int, -2 ^ 31 ≤ other → other < 2 ^ 31 → (2 ^ 32 : Int) ∣ other - exact →
    other = reduced.toInt

theorem reducesTo_of_toInt_eq {exact : Int} {reduced : Int32}
    (balanced : reduced.toInt = exact.bmod (2 ^ 32)) : ReducesTo exact reduced := by
  have congruent : (2 ^ 32 : Int) ∣ reduced.toInt - exact := by
    rw [balanced]
    exact Int.dvd_bmod_sub_self
  refine ⟨reduced.le_toInt, reduced.toInt_lt, congruent, fun other lower upper alsoCongruent => ?_⟩
  have reducedLower := reduced.le_toInt
  have reducedUpper := reduced.toInt_lt
  -- two multiples of the modulus that are closer than the modulus
  omega

/-- A number is reduced in one way. -/
theorem ReducesTo.eq {exact : Int} {first second : Int32} (isFirst : ReducesTo exact first)
    (isSecond : ReducesTo exact second) : first = second :=
  Int32.toInt_inj.mp
    (isSecond.unique first.toInt isFirst.lower isFirst.upper isFirst.congruent)

theorem reducesTo_ofInt (exact : Int) : ReducesTo exact (.ofInt exact) :=
  reducesTo_of_toInt_eq Int32.toInt_ofInt

/-- A quotient is truncated and then reduced. -/
theorem reducesTo_div (dividend divisor : Int32) :
    ReducesTo (dividend.toInt.tdiv divisor.toInt) (dividend / divisor) :=
  reducesTo_of_toInt_eq (Int32.toInt_div dividend divisor)

namespace BinaryOperator

/-- What the operators that respect congruence give for numbers without bounds. -/
def onIntegers? : BinaryOperator → Int → Int → Option Int
  | .add, left, right => some (left + right)
  | .sub, left, right => some (left - right)
  | .mul, left, right => some (left * right)
  | _, _, _ => none

/-- Reducing the operands of an operator that respects congruence reduces its result. -/
theorem applyInt_ofInt {op : BinaryOperator} {left right exact : Int}
    (gives : op.onIntegers? left right = some exact) :
    op.applyInt (.ofInt left) (.ofInt right) = .ok (.int (.ofInt exact)) := by
  cases op with
  | add =>
    cases gives
    rw [applyInt, ← Int32.ofInt_add]
  | sub =>
    cases gives
    rw [applyInt, ← Int32.ofInt_sub]
  | mul =>
    cases gives
    rw [applyInt, ← Int32.ofInt_mul]
  | _ => cases gives

theorem apply_int (op : BinaryOperator) (left right : Int32) :
    op.apply .int (.int left) (.int right) = op.applyInt left right :=
  rfl

end BinaryOperator

/-- On a machine, an expression of integers without division stands for the number that it gives
without bounds. -/
inductive Machine.StandsFor (machine : Machine) : Expr Ty → Int → Prop where
  | literal (number : Int32) (span : Span) :
      StandsFor machine (.literal (.int number) span) number.toInt
  | var {name : Ident} {number : Int32} (span : Span)
      (holds : machine.lookup name.name = some (.int number)) :
      StandsFor machine (.var name span) number.toInt
  | binary {op : BinaryOperator} {lhs rhs : Expr Ty} {left right exact : Int} (span : Span)
      (first : StandsFor machine lhs left) (second : StandsFor machine rhs right)
      (gives : op.onIntegers? left right = some exact) :
      StandsFor machine (.binary op .int lhs rhs span) exact
  | neg {operand : Expr Ty} {inner : Int} (span : Span) (plain : StandsFor machine operand inner) :
      StandsFor machine (.unary .neg .int operand span) (-inner)

section Evaluation

open Evaluation

variable (functions : Definitions (Function Ty)) {machine : Machine}

/-- A binary operation on operands that give values is applied to these values. -/
theorem eval_binary {fuel : Nat} {op : BinaryOperator} {tag : Ty} {lhs rhs : Expr Ty} {span : Span}
    {left right : Value} (first : Expr.eval functions fuel lhs machine = (.done left, machine))
    (second : Expr.eval functions fuel rhs machine = (.done right, machine)) :
    Expr.eval functions (fuel + 1) (.binary op tag lhs rhs span) machine =
      ofExcept span (op.apply tag left right) machine := by
  rw [Expr.eval, bind_apply, first]
  dsimp only
  rw [bind_apply, second]

/-- Every step wraps around, and the result is the exact number reduced once. -/
theorem eval_of_standsFor {expr : Expr Ty} {exact : Int} (stands : machine.StandsFor expr exact)
    {fuel : Nat} (enough : expr.nesting ≤ fuel) :
    Expr.eval functions fuel expr machine = (.done (.int (.ofInt exact)), machine) := by
  induction stands generalizing fuel with
  | literal number span =>
    obtain ⟨fuel, rfl⟩ := Nat.exists_eq_add_of_le' enough
    rw [Expr.nesting, Expr.eval, Int32.ofInt_toInt]
    rfl
  | @var name number span holds =>
    obtain ⟨fuel, rfl⟩ := Nat.exists_eq_add_of_le' enough
    rw [Expr.nesting, Expr.eval, read_apply, holds, Int32.ofInt_toInt]
  | @binary op lhs rhs left right exact span _ _ gives firstIH secondIH =>
    rw [Expr.nesting] at enough
    obtain ⟨fuel, rfl⟩ := Nat.exists_eq_add_of_le' (Nat.le_of_add_left_le enough)
    have first := @firstIH fuel (by omega)
    have second := @secondIH fuel (by omega)
    rw [eval_binary functions first second, BinaryOperator.apply_int,
      BinaryOperator.applyInt_ofInt gives]
    rfl
  | @neg operand inner span _ ih =>
    rw [Expr.nesting] at enough
    obtain ⟨fuel, rfl⟩ := Nat.exists_eq_add_of_le' (Nat.le_of_add_left_le enough)
    have plain := @ih fuel (by omega)
    rw [Expr.eval, bind_apply, plain, Int32.ofInt_neg]
    rfl

/-- A quotient of two expressions is that of their reduced numbers, and there is none if the
second one is zero. -/
theorem eval_div {lhs rhs : Expr Ty} {left right : Int} (first : machine.StandsFor lhs left)
    (second : machine.StandsFor rhs right) (span : Span) {fuel : Nat}
    (enough : (Expr.binary .div Ty.int lhs rhs span).nesting ≤ fuel) :
    Expr.eval functions fuel (.binary .div .int lhs rhs span) machine =
      if Int32.ofInt right = 0 then (.failed ⟨span, .divisionByZero⟩, machine)
      else (.done (.int (.ofInt left / .ofInt right)), machine) := by
  rw [Expr.nesting] at enough
  obtain ⟨fuel, rfl⟩ := Nat.exists_eq_add_of_le' (Nat.le_of_add_left_le enough)
  have dividend : Expr.eval functions fuel lhs machine = _ :=
    eval_of_standsFor functions first (by omega)
  have divisor : Expr.eval functions fuel rhs machine = _ :=
    eval_of_standsFor functions second (by omega)
  rw [eval_binary functions dividend divisor, BinaryOperator.apply_int, BinaryOperator.applyInt]
  split <;> rfl

/-- Arithmetic of integers is exact modulo `2 ^ 32`.  An expression without division gives the exact
number, reduced, and leaves the machine as it is.  A division of two such expressions fails exactly
if the reduced divisor is zero, and gives the truncated quotient of the reduced numbers otherwise,
reduced again. -/
theorem arithmetic_modulo_word (machine : Machine) :
    (∀ expr exact, machine.StandsFor expr exact →
      ∃ result, ReducesTo exact result ∧ ∀ fuel, expr.nesting ≤ fuel →
        Expr.eval functions fuel expr machine = (.done (.int result), machine)) ∧
    ∀ lhs rhs left right span, machine.StandsFor lhs left → machine.StandsFor rhs right →
      ∃ dividend divisor quotient, ReducesTo left dividend ∧ ReducesTo right divisor ∧
        ReducesTo (dividend.toInt.tdiv divisor.toInt) quotient ∧
        ∀ fuel, (Expr.binary .div Ty.int lhs rhs span).nesting ≤ fuel →
          (Expr.eval functions fuel (.binary .div .int lhs rhs span) machine =
              (.failed ⟨span, .divisionByZero⟩, machine) ↔ divisor = 0) ∧
          (divisor ≠ 0 → Expr.eval functions fuel (.binary .div .int lhs rhs span) machine =
              (.done (.int quotient), machine)) := by
  refine ⟨fun expr exact stands => ⟨.ofInt exact, reducesTo_ofInt exact, fun fuel enough =>
    eval_of_standsFor functions stands enough⟩, ?_⟩
  intro lhs rhs left right span first second
  have quotient := reducesTo_div (.ofInt left) (.ofInt right)
  refine ⟨_, _, _, reducesTo_ofInt left, reducesTo_ofInt right, quotient, fun fuel enough => ?_⟩
  rw [eval_div functions first second span enough]
  by_cases isZero : Int32.ofInt right = 0
  · simp [isZero]
  · simp [isZero]

/-- The square of the smallest integer is a multiple of the modulus, and its quotient by `-1` is the
smallest integer again. -/
theorem arithmetic_modulo_word_of_smallest :
    let machine : Machine := ⟨NameMap.empty.insert "x" (.int Int32.minValue), [], []⟩
    let x : Expr Ty := .var ⟨"x", default⟩ default
    let square : Expr Ty := .binary .mul .int x x default
    let minusOne : Expr Ty := .unary .neg .int (.literal (.int 1) default) default
    machine.StandsFor square (2 ^ 62) ∧ machine.StandsFor x (-2 ^ 31) ∧
      machine.StandsFor minusOne (-1) ∧
      (∀ fuel, 2 ≤ fuel → Expr.eval .empty fuel square machine = (.done (.int 0), machine)) ∧
      ∀ fuel, 3 ≤ fuel → Expr.eval .empty fuel (.binary .div .int x minusOne default) machine =
        (.done (.int Int32.minValue), machine) := by
  intro machine x square minusOne
  have held : machine.lookup "x" = some (.int Int32.minValue) := by decide
  have smallest : machine.StandsFor x Int32.minValue.toInt := .var default held
  have squared : machine.StandsFor square (2 ^ 62) := .binary default smallest smallest rfl
  have negated : machine.StandsFor minusOne (-1) := .neg default (.literal 1 default)
  obtain ⟨exact, quotients⟩ := arithmetic_modulo_word .empty machine
  obtain ⟨result, reduced, multiplies⟩ := exact square (2 ^ 62) squared
  obtain ⟨dividend, divisor, quotient, isDividend, isDivisor, isQuotient, divides⟩ :=
    quotients x minusOne (-2 ^ 31) (-1) default smallest negated
  obtain rfl : result = 0 := reduced.eq (reducesTo_ofInt (2 ^ 62))
  obtain rfl : dividend = Int32.minValue := isDividend.eq (reducesTo_ofInt (-2 ^ 31))
  obtain rfl : divisor = -1 := isDivisor.eq (reducesTo_ofInt (-1))
  obtain rfl : quotient = Int32.minValue := isQuotient.eq (reducesTo_ofInt (2 ^ 31))
  exact ⟨squared, smallest, negated, multiplies, fun fuel enough =>
    (divides fuel enough).2 (by decide)⟩

end Evaluation

end TypedImp
