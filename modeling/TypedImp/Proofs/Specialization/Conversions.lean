import TypedImp.Proofs.Evaluation.Following
import TypedImp.Proofs.Evaluation.Reference
import TypedImp.Proofs.Specialization.Elaboration

/-!
# Conversions at run time

A cast that was inserted does what the conversion of a value by its type does, and a tag
chooses what the types of the operand values choose.
-/

namespace TypedImp

open Evaluation

namespace Value

theorem convertTo_self {value : Value} {ty : Ty} (isTy : value.ty = ty) :
    value.convertTo ty = .ok value := by
  subst isTy
  unfold convertTo
  cases value.ty <;> rfl

/-- An inserted cast is the conversion to its type. -/
theorem apply_eq_convertTo {source target : Ty} {op : UnaryOperator}
    (conversion : Conversion source target op) {value : Value} (isSource : value.ty = source) :
    op.apply source value = value.convertTo target := by
  unfold convertTo
  rw [isSource]
  cases conversion <;> rfl

end Value

/-- On values of accepted types an operator converts both operands to the type that it
works on. -/
theorem BinaryOperator.applyByTypes_eq {op : BinaryOperator} {leftTy rightTy : Ty}
    (accepted : op.accepts leftTy rightTy = true) {left right : Value}
    (isLeft : left.ty = leftTy) (isRight : right.ty = rightTy) :
    op.applyByTypes left right = (do
      let left ← left.convertTo (operandType leftTy rightTy)
      let right ← right.convertTo (operandType leftTy rightTy)
      op.apply (operandType leftTy rightTy) left right) := by
  have notBoolean := isBoolean_eq_false_of_mixed accepted
  unfold applyByTypes
  rw [isLeft, isRight]
  rcases types_of_accepts accepted with rfl | ⟨rfl, rfl⟩ | ⟨rfl, rfl⟩
  · have sameTy : operandType leftTy leftTy = leftTy := if_pos rfl
    rw [sameTy, Value.convertTo_self isLeft, Value.convertTo_self isRight]
    cases op.isBoolean <;> cases leftTy <;> rfl
  · have mixedTy : operandType .int .float = .float := rfl
    rw [notBoolean (by simp), mixedTy, Value.convertTo_self isRight]
    rfl
  · have mixedTy : operandType .float .int = .float := rfl
    rw [notBoolean (by simp), mixedTy, Value.convertTo_self isLeft]
    rfl

/-- An operand is evaluated and its value converted.  A cast takes one step of fuel. -/
theorem eval_converted (functions : Definitions (Function Ty)) {plain converted : Expr Ty}
    {source target : Ty} (converts : Converts plain source converted target) (fuel : Nat) :
    ∃ (fuel' : Nat) (span : Span) (convert : Value → Except RunError Value),
      fuel - 1 ≤ fuel' ∧ fuel' ≤ fuel ∧
      (∀ value, value.ty = source → convert value = value.convertTo target) ∧
      Expr.eval functions fuel converted =
        Expr.eval functions fuel' plain >>= fun value => .ofExcept span (convert value) := by
  cases converts with
  | plain =>
    refine ⟨fuel, plain.span, .ok, Nat.sub_le fuel 1, Nat.le_refl fuel, ?_, ?_⟩
    · intro value isTy
      exact (Value.convertTo_self isTy).symm
    · exact (bind_pure _).symm
  | @cast _ op conversion =>
    have same (value : Value) (isSource : value.ty = source) :
        op.apply source value = value.convertTo target :=
      Value.apply_eq_convertTo conversion isSource
    cases fuel with
    | zero => exact ⟨0, plain.span, op.apply source, Nat.le_refl 0, Nat.le_refl 0, same, rfl⟩
    | succ fuel =>
      refine ⟨fuel, plain.span, op.apply source, Nat.le_refl fuel, Nat.le_succ fuel, same, ?_⟩
      rw [Expr.eval]

section Operands

variable {leader : Leader} {invariant : Machine → Prop} {allowed : RunError → Prop}

/-- An operator with a tag, on operands that are converted, follows the operator that is
chosen by the types of the operand values. -/
theorem follows_binary {op : BinaryOperator} {leftTy rightTy : Ty}
    (accepted : op.accepts leftTy rightTy = true)
    {lhs lhs' rhs rhs' : Evaluation Value}
    (leftFollows : Follows leader invariant lhs lhs')
    (leftKeeps : Keeps invariant allowed (fun value => value.ty = leftTy) lhs)
    (rightFollows : Follows leader invariant rhs rhs')
    (rightKeeps : Keeps invariant allowed (fun value => value.ty = rightTy) rhs)
    {convertLeft convertRight : Value → Except RunError Value} {leftSpan rightSpan : Span}
    (left : ∀ value, value.ty = leftTy →
      convertLeft value = value.convertTo (BinaryOperator.operandType leftTy rightTy))
    (right : ∀ value, value.ty = rightTy →
      convertRight value = value.convertTo (BinaryOperator.operandType leftTy rightTy))
    (span : Span) :
    Follows leader invariant
      (do
        let left ← lhs >>= fun value => .ofExcept leftSpan (convertLeft value)
        let right ← rhs >>= fun value => .ofExcept rightSpan (convertRight value)
        .ofExcept span (op.apply (BinaryOperator.operandType leftTy rightTy) left right))
      (do
        let left ← lhs'
        let right ← rhs'
        .ofExcept span (op.applyByTypes left right)) := by
  simp only [bind_assoc]
  -- The left operand is converted before the right one is evaluated, which makes a
  -- difference for failures only.
  apply Follows.of_sameResults (SameResults.bind fun value =>
    sameResults_ofExcept_comm leftSpan (convertLeft value) rhs _)
  apply leftFollows.bind leftKeeps
  intro leftValue isLeft
  apply rightFollows.bind rightKeeps
  intro rightValue isRight
  apply follows_of_sameResults
  intro machine result final
  rw [left leftValue isLeft, right rightValue isRight, op.applyByTypes_eq accepted isLeft isRight]
  simp only [bind_eq_done_iff, ofExcept_eq_done_iff, except_bind_eq_ok_iff]
  constructor
  · rintro ⟨converted, _, ⟨done, rfl⟩, converted', _, ⟨done', rfl⟩, applied, rfl⟩
    exact ⟨⟨converted, done, converted', done', applied⟩, rfl⟩
  · rintro ⟨⟨converted, done, converted', done', applied⟩, rfl⟩
    exact ⟨converted, _, ⟨done, rfl⟩, converted', _, ⟨done', rfl⟩, applied, rfl⟩

end Operands

end TypedImp
