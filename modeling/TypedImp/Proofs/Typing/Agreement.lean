import TypedImp.Proofs.Compilation
import TypedImp.Proofs.Typing.Rules

/-!
# The types of an expression

Three passes compute the type of an expression: `typeOf` looks at names and operators alone,
`checkExpr` looks at the rules too, and `specializeExpr` looks at operands that it has rewritten.
Where two of them succeed they agree, also on expressions that break the rules: `types_agree`.
-/

namespace TypedImp

namespace BinaryOperator

/-- An operator gives with a cast beside a float what it gives without the cast. -/
theorem resultType_of_float (op : BinaryOperator) :
    op.resultType .float .float = op.resultType .int .float ∧
      op.resultType .float .float = op.resultType .float .int := by
  cases op <;> exact ⟨rfl, rfl⟩

end BinaryOperator

namespace TypedExpr

/-- Balanced operands have the result type of the operands before. -/
theorem resultType_of_balance {lhs rhs left right : TypedExpr}
    (balanced : (balance lhs rhs).outcome = .ok (left, right)) (op : BinaryOperator) :
    op.resultType left.ty right.ty = op.resultType lhs.ty rhs.ty := by
  obtain ⟨beforeFloat, behindFloat⟩ := op.resultType_of_float
  obtain ⟨lhs, lhsTy⟩ := lhs
  obtain ⟨rhs, rhsTy⟩ := rhs
  unfold balance at balanced
  dsimp only at balanced
  split at balanced <;> cases balanced
  · exact beforeFloat
  · exact behindFloat
  · rfl

/-- A binary operator on specialized operands gives the result type of the operands. -/
theorem ty_of_binary {op : BinaryOperator} {lhs rhs applied : TypedExpr} {span : Span}
    (done : (lhs.binary op rhs span).outcome = .ok applied) :
    applied.ty = op.resultType lhs.ty rhs.ty := by
  cases isBoolean : op.isBoolean with
  | true =>
    simp only [binary, isBoolean, if_true, pure_bind] at done
    obtain ⟨_, _, result⟩ := Recorded.bind_outcome_eq_ok_iff.mp done
    cases result
    rfl
  | false =>
    simp only [binary, isBoolean, Bool.false_eq_true, if_false] at done
    obtain ⟨⟨left, right⟩, balanced, tagged⟩ := Recorded.bind_outcome_eq_ok_iff.mp done
    obtain ⟨_, _, result⟩ := Recorded.bind_outcome_eq_ok_iff.mp tagged
    cases result
    exact resultType_of_balance balanced op

/-- A unary operator on a specialized operand gives the result type of the operand. -/
theorem ty_of_unary {op : UnaryOperator} {operand applied : TypedExpr} {span : Span}
    (done : (operand.unary op span).outcome = .ok applied) :
    applied.ty = op.resultType operand.ty := by
  cases done
  rfl

end TypedExpr

namespace Scope

variable {scope : Scope Unit}

theorem knownType_outcome_eq_ok_iff {name : Ident} {ty : Ty} :
    (scope.knownType name).outcome = .ok ty ↔ scope.types.get? name.name = some ty := by
  unfold knownType
  cases scope.types.get? name.name <;> simp [Recorded.fail]

theorem knownReturnType_outcome_eq_ok_iff {name : Ident} {ty : Ty} :
    (scope.knownReturnType name).outcome = .ok ty ↔
      ∃ function, scope.functions.get? name.name = some function ∧ function.returnTy = ty := by
  unfold knownReturnType
  cases scope.functions.get? name.name <;> simp [Recorded.fail]

/-- A specialized expression has the type that the names and operators of the expression
give, whether or not the operators fit their operands. -/
theorem typeOf_of_specializeExpr (expr : Expr Unit) {specialized : TypedExpr}
    (done : (scope.specializeExpr expr).outcome = .ok specialized) :
    scope.typeOf expr = .ok specialized.ty := by
  match expr with
  | .literal value span =>
    cases done
    rfl
  | .var name span =>
    simp only [specializeExpr, Recorded.bind_outcome_eq_ok_iff,
      knownType_outcome_eq_ok_iff] at done
    obtain ⟨ty, declared, result⟩ := done
    cases result
    exact variableType_eq_ok_iff.mpr declared
  | .binary op tag lhs rhs span =>
    simp only [specializeExpr, Recorded.bind_outcome_eq_ok_iff] at done
    obtain ⟨left, leftDone, right, rightDone, applied⟩ := done
    simp only [typeOf, typeOf_of_specializeExpr lhs leftDone,
      typeOf_of_specializeExpr rhs rightDone, TypedExpr.ty_of_binary applied]
    rfl
  | .unary op tag operand span =>
    simp only [specializeExpr, Recorded.bind_outcome_eq_ok_iff] at done
    obtain ⟨inner, innerDone, applied⟩ := done
    simp only [typeOf, typeOf_of_specializeExpr operand innerDone,
      TypedExpr.ty_of_unary applied]
    rfl
  | .call callee arguments callSpan span =>
    simp only [specializeExpr, Recorded.bind_outcome_eq_ok_iff,
      knownReturnType_outcome_eq_ok_iff] at done
    obtain ⟨ty, ⟨function, found, rfl⟩, passed, _, result⟩ := done
    cases result
    simp only [typeOf, callee_eq_ok_iff.mpr found]
    rfl

/-- The three types of an expression agree: a specialized expression, also one that breaks
the rules, has the type of the expression; and an expression that the check accepts with a
type has that type and is specialized with it. -/
theorem types_agree (scope : Scope Unit) (expr : Expr Unit) (ty : Ty) :
    (∀ specialized, (scope.specializeExpr expr).outcome = .ok ⟨specialized, ty⟩ →
        scope.typeOf expr = .ok ty) ∧
      (scope.checkExpr expr = .ok ty →
        scope.typeOf expr = .ok ty ∧
          ∃ specialized, (scope.specializeExpr expr).outcome = .ok ⟨specialized, ty⟩) := by
  constructor
  · intro specialized done
    exact typeOf_of_specializeExpr expr done
  · intro accepted
    obtain ⟨specialized, done, _⟩ := elaborates_of_checkExpr accepted
    exact ⟨((checkExpr_eq_ok_iff expr).mp accepted).2, specialized, done⟩

/-- A sum of a call and an integer that keeps the rules, and one of a call without its argument
and a truth value. -/
theorem types_agree_of_sums :
    ∃ program kept broken specialized,
      (Program.ofLexed (.ofSource
        "float half(int n) \x7b return n / 2.0; \x7d")).outcome = .ok program ∧
      Expr.ofLexed (.ofSource "half(1) + 2") = .ok kept ∧
      Expr.ofLexed (.ofSource "half() + true") = .ok broken ∧
      (Scope.ofProgram program).checkExpr kept = .ok .float ∧
      (Scope.ofProgram program).typeOf kept = .ok .float ∧
      ((Scope.ofProgram program).checkExpr broken).isOk = false ∧
      ((Scope.ofProgram program).specializeExpr broken).outcome = .ok ⟨specialized, .float⟩ ∧
      (Scope.ofProgram program).typeOf broken = .ok .float := by
  have tested : (Program.ofLexed (.ofSource
      "float half(int n) \x7b return n / 2.0; \x7d")).outcome.toOption.any (fun program =>
        (Expr.ofLexed (.ofSource "half(1) + 2")).toOption.any fun kept =>
        (Expr.ofLexed (.ofSource "half() + true")).toOption.any fun broken =>
        ((Scope.ofProgram program).specializeExpr broken).outcome.toOption.any fun specialized =>
          (Scope.ofProgram program).checkExpr kept = .ok .float ∧
            ((Scope.ofProgram program).checkExpr broken).isOk = false ∧
            specialized.ty = .float) = true := by
    decide +kernel
  obtain ⟨program, programRead, tested⟩ := exists_of_any tested
  obtain ⟨kept, keptRead, tested⟩ := exists_of_any tested
  obtain ⟨broken, brokenRead, tested⟩ := exists_of_any tested
  obtain ⟨⟨specialized, ty⟩, done, tested⟩ := exists_of_any tested
  obtain ⟨accepted, refused, rfl⟩ := of_decide_eq_true tested
  exact ⟨program, kept, broken, specialized, programRead, keptRead, brokenRead, accepted,
    ((types_agree _ kept .float).2 accepted).1, refused, done,
    (types_agree _ broken .float).1 specialized done⟩

end Scope

end TypedImp
