import Mathlib.Data.List.Forall2
import TypedImp.Proofs.Typing.Checking
import TypedImp.Specialization.Program

/-!
# Elaboration

The relation between checked syntax and its specialized form, without the order in which
the passes go.  The specialization of checked syntax never fails, and every fact about
specialized programs is proved by induction on this relation.
-/

namespace TypedImp

/-- The conversions that the language inserts, and the casts that do them. -/
inductive Conversion : Ty → Ty → UnaryOperator → Prop where
  | intToFloat : Conversion .int .float .floatCast
  | charToInt : Conversion .char .int .intCast
  | floatToInt : Conversion .float .int .intCast

/-- An expression of one type stands for a value of another one: as it is, or in a cast
with the span of the expression. -/
inductive Converts : Expr Ty → Ty → Expr Ty → Ty → Prop where
  | plain {expr : Expr Ty} {ty : Ty} : Converts expr ty expr ty
  | cast {expr : Expr Ty} {source target : Ty} {op : UnaryOperator}
      (conversion : Conversion source target op) :
      Converts expr source (.unary op source expr expr.span) target

/-- The type that a binary operator works on: the common type of its operands, or float
for an integer beside a float. -/
def BinaryOperator.operandType (lhs rhs : Ty) : Ty :=
  if lhs = rhs then lhs else .float

namespace BinaryOperator

theorem types_of_accepts {op : BinaryOperator} {lhs rhs : Ty}
    (accepted : op.accepts lhs rhs = true) :
    lhs = rhs ∨ lhs = .int ∧ rhs = .float ∨ lhs = .float ∧ rhs = .int := by
  unfold accepts comparable at accepted
  cases lhs <;> cases rhs <;> simp [Ty.isNumeric] at accepted ⊢

theorem isBoolean_of_accepts {op : BinaryOperator} {lhs rhs : Ty} (isBoolean : op.isBoolean)
    (accepted : op.accepts lhs rhs = true) : lhs = .bool ∧ rhs = .bool := by
  cases op <;> simp_all [accepts, BinaryOperator.isBoolean, isArithmetic, isRelational]

theorem isBoolean_eq_false_of_mixed {op : BinaryOperator} {lhs rhs : Ty}
    (accepted : op.accepts lhs rhs = true) (mixed : lhs ≠ rhs) : op.isBoolean = false := by
  cases isBoolean : op.isBoolean with
  | false => rfl
  | true =>
    obtain ⟨leftBool, rightBool⟩ := isBoolean_of_accepts isBoolean accepted
    exact absurd (leftBool.trans rightBool.symm) mixed

end BinaryOperator

mutual

/-- An expression that keeps the typing rules, its specialized form, and its type. -/
inductive Elaborates (scope : Scope Unit) : Expr Unit → Expr Ty → Ty → Prop where
  | literal {value : Value} {span : Span} :
      Elaborates scope (.literal value span) (.literal value span) value.ty
  | var {name : Ident} {span : Span} {ty : Ty}
      (declared : scope.types.get? name.name = some ty) :
      Elaborates scope (.var name span) (.var name span) ty
  | binary {op : BinaryOperator} {lhs rhs : Expr Unit} {left right left' right' : Expr Ty}
      {leftTy rightTy : Ty} {span : Span} (first : Elaborates scope lhs left leftTy)
      (second : Elaborates scope rhs right rightTy)
      (accepted : op.accepts leftTy rightTy = true)
      (firstConverts : Converts left leftTy left' (BinaryOperator.operandType leftTy rightTy))
      (secondConverts :
        Converts right rightTy right' (BinaryOperator.operandType leftTy rightTy)) :
      Elaborates scope (.binary op () lhs rhs span)
        (.binary op (BinaryOperator.operandType leftTy rightTy) left' right' span)
        (op.resultType leftTy rightTy)
  | unary {op : UnaryOperator} {operand : Expr Unit} {inner : Expr Ty} {ty : Ty} {span : Span}
      (first : Elaborates scope operand inner ty) (accepted : op.accepts ty = true) :
      Elaborates scope (.unary op () operand span) (.unary op ty inner span)
        (op.resultType ty)
  | call {callee : Ident} {function : Function Unit} {arguments : List (Expr Unit)}
      {specialized : List (Expr Ty)} {callSpan span : Span}
      (found : scope.functions.get? callee.name = some function)
      (passed : ElaboratesAll scope arguments specialized function.params.toList) :
      Elaborates scope (.call callee arguments callSpan span)
        (.call callee specialized callSpan span) function.returnTy

/-- Arguments that fit the parameters in the same places. -/
inductive ElaboratesAll (scope : Scope Unit) :
    List (Expr Unit) → List (Expr Ty) → List Declaration → Prop where
  | nil : ElaboratesAll scope [] [] []
  | cons {argument : Expr Unit} {specialized : Expr Ty} {param : Declaration}
      {arguments : List (Expr Unit)} {others : List (Expr Ty)} {params : List Declaration}
      (first : Elaborates scope argument specialized param.ty)
      (rest : ElaboratesAll scope arguments others params) :
      ElaboratesAll scope (argument :: arguments) (specialized :: others) (param :: params)

end

mutual

/-- A statement that keeps the typing rules of a function that gives `returnTy`, and its
specialized form. -/
inductive StmtElaborates (scope : Scope Unit) (returnTy : Ty) : Stmt Unit → Stmt Ty → Prop where
  | skip : StmtElaborates scope returnTy .skip .skip
  | block {body : List (Stmt Unit)} {specialized : List (Stmt Ty)}
      (elaborated : StmtsElaborate scope returnTy body specialized) :
      StmtElaborates scope returnTy (.block body) (.block specialized)
  | assign {target : Ident} {value : Expr Unit} {plain converted : Expr Ty}
      {assigned declared : Ty} (isDeclared : scope.types.get? target.name = some declared)
      (elaborated : Elaborates scope value plain assigned)
      (converts : Converts plain assigned converted declared) :
      StmtElaborates scope returnTy (.assign target value) (.assign target converted)
  | conditional {test : Expr Unit} {thenBranch elseBranch : Stmt Unit} {test' : Expr Ty}
      {thenBranch' elseBranch' : Stmt Ty} (tested : Elaborates scope test test' .bool)
      (chosen : StmtElaborates scope returnTy thenBranch thenBranch')
      (rejected : StmtElaborates scope returnTy elseBranch elseBranch') :
      StmtElaborates scope returnTy (.conditional test thenBranch elseBranch)
        (.conditional test' thenBranch' elseBranch')
  | loop {test : Expr Unit} {body : Stmt Unit} {test' : Expr Ty} {body' : Stmt Ty}
      (tested : Elaborates scope test test' .bool)
      (repeated : StmtElaborates scope returnTy body body') :
      StmtElaborates scope returnTy (.loop test body) (.loop test' body')
  | call {callee : Ident} {function : Function Unit} {arguments : List (Expr Unit)}
      {specialized : List (Expr Ty)} {span : Span}
      (found : scope.functions.get? callee.name = some function)
      (passed : ElaboratesAll scope arguments specialized function.params.toList) :
      StmtElaborates scope returnTy (.call callee arguments span)
        (.call callee specialized span)
  | giveBack {value : Expr Unit} {specialized : Expr Ty} {span : Span}
      (given : Elaborates scope value specialized returnTy) :
      StmtElaborates scope returnTy (.giveBack value span) (.giveBack specialized span)

/-- Statements that keep the typing rules. -/
inductive StmtsElaborate (scope : Scope Unit) (returnTy : Ty) :
    List (Stmt Unit) → List (Stmt Ty) → Prop where
  | nil : StmtsElaborate scope returnTy [] []
  | cons {first : Stmt Unit} {first' : Stmt Ty} {rest : List (Stmt Unit)}
      {rest' : List (Stmt Ty)} (head : StmtElaborates scope returnTy first first')
      (following : StmtsElaborate scope returnTy rest rest') :
      StmtsElaborate scope returnTy (first :: rest) (first' :: rest')

end

/-- A function that keeps the rules of a program, and its specialized form. -/
structure FunctionElaborates (program : Program Unit) (function : Function Unit)
    (specialized : Function Ty) : Prop where
  withBody : specialized = function.withBody specialized.body
  returns : function.checkReturns = .ok ()
  body : StmtsElaborate (.inFunction program function) function.returnTy function.body
    specialized.body

/-- A program that keeps the typing rules, and its specialized form. -/
structure ProgramElaborates (program : Program Unit) (specialized : Program Ty) : Prop where
  globals : specialized.globals = program.globals
  functions : List.Forall₂ (FunctionElaborates program) program.functions.toList
    specialized.functions.toList
  main : ∃ main, program.main? = some main ∧ main.params.isEmpty = true

section Returns

variable {scope : Scope Unit} {returnTy : Ty}

theorem StmtElaborates.returnSpan {stmt : Stmt Unit} {target : Stmt Ty}
    (elaborates : StmtElaborates scope returnTy stmt target) :
    target.returnSpan? = stmt.returnSpan? := by
  cases elaborates <;> rfl

mutual

theorem StmtElaborates.firstReturn {stmt : Stmt Unit} {target : Stmt Ty}
    (elaborates : StmtElaborates scope returnTy stmt target) :
    target.firstReturn? = stmt.firstReturn? := by
  match elaborates with
  | .skip | .assign _ _ _ | .call _ _ | .giveBack _ => rfl
  | .block elaborated => exact elaborated.firstReturn
  | .conditional _ chosen rejected =>
    rw [Stmt.firstReturn?, Stmt.firstReturn?, chosen.firstReturn, rejected.firstReturn]
  | .loop _ repeated => exact repeated.firstReturn

theorem StmtsElaborate.firstReturn {body : List (Stmt Unit)} {target : List (Stmt Ty)}
    (elaborates : StmtsElaborate scope returnTy body target) :
    Stmt.firstReturnOf? target = Stmt.firstReturnOf? body := by
  match elaborates with
  | .nil => rfl
  | .cons head following =>
    rw [Stmt.firstReturnOf?, Stmt.firstReturnOf?, head.firstReturn, following.firstReturn]

end

theorem StmtsElaborate.returnSpans {body : List (Stmt Unit)} {target : List (Stmt Ty)}
    (elaborates : StmtsElaborate scope returnTy body target) :
    target.map Stmt.returnSpan? = body.map Stmt.returnSpan? := by
  match elaborates with
  | .nil => rfl
  | .cons head following =>
    rw [List.map_cons, List.map_cons, head.returnSpan, following.returnSpans]

/-- A specialized function gives back values in the same places. -/
theorem FunctionElaborates.checkReturns {program : Program Unit} {function : Function Unit}
    {specialized : Function Ty} (elaborates : FunctionElaborates program function specialized) :
    specialized.checkReturns = .ok () := by
  rw [← elaborates.returns]
  refine Function.checkReturns_congr ?_ ?_ elaborates.body.firstReturn elaborates.body.returnSpans
  · exact congrArg Function.returnTy elaborates.withBody
  · exact congrArg Function.name elaborates.withBody

end Returns

namespace TypedExpr

/-- Operands of one type stay as they are. -/
theorem binary_of_accepts {op : BinaryOperator} {tag : Ty} (accepted : op.accepts tag tag = true)
    (lhs rhs : Expr Ty) (span : Span) :
    binary op ⟨lhs, tag⟩ ⟨rhs, tag⟩ span =
      ⟨[.binary op tag], .ok ⟨.binary op tag lhs rhs span, op.resultType tag tag⟩⟩ := by
  have balanced : balance ⟨lhs, tag⟩ ⟨rhs, tag⟩ = pure (⟨lhs, tag⟩, ⟨rhs, tag⟩) := by
    cases tag <;> rfl
  cases isBoolean : op.isBoolean with
  | true =>
    obtain ⟨rfl, _⟩ := BinaryOperator.isBoolean_of_accepts isBoolean accepted
    simp [binary, isBoolean, Recorded.record]
  | false => simp [binary, isBoolean, balanced, Recorded.record]

theorem unary_of_accepts {op : UnaryOperator} {operand : TypedExpr}
    (accepted : op.accepts operand.ty = true) (span : Span) :
    operand.unary op span =
      ⟨[.unary op operand.ty],
        .ok ⟨.unary op operand.ty operand.expr span, op.resultType operand.ty⟩⟩ := by
  have tagged : (if op = .not then .bool else operand.ty) = operand.ty := by
    split
    case isTrue isNot =>
      subst isNot
      simpa [UnaryOperator.accepts, eq_comm] using accepted
    case isFalse => rfl
  simp [unary, Recorded.record, tagged]

/-- A value of the declared type stays as it is. -/
theorem coerce_self (value : TypedExpr) : value.coerce value.ty = pure value := by
  obtain ⟨value, ty⟩ := value
  cases ty <;> rfl

end TypedExpr

namespace Scope

variable {scope : Scope Unit}

/-- Operands that an operator accepts are specialized. -/
theorem binary_outcome {op : BinaryOperator} (lhs rhs : TypedExpr) (span : Span)
    (accepted : op.accepts lhs.ty rhs.ty = true) :
    ∃ left right,
      (lhs.binary op rhs span).outcome =
        .ok ⟨.binary op (BinaryOperator.operandType lhs.ty rhs.ty) left right span,
          op.resultType lhs.ty rhs.ty⟩ ∧
      Converts lhs.expr lhs.ty left (BinaryOperator.operandType lhs.ty rhs.ty) ∧
      Converts rhs.expr rhs.ty right (BinaryOperator.operandType lhs.ty rhs.ty) := by
  obtain ⟨left, leftTy⟩ := lhs
  obtain ⟨right, rightTy⟩ := rhs
  have notBoolean := BinaryOperator.isBoolean_eq_false_of_mixed accepted
  rcases BinaryOperator.types_of_accepts accepted with same | ⟨leftInt, rightFloat⟩ |
    ⟨leftFloat, rightInt⟩
  · obtain rfl : leftTy = rightTy := same
    simp only [BinaryOperator.operandType, if_pos]
    exact ⟨left, right, congrArg Recorded.outcome (TypedExpr.binary_of_accepts accepted ..),
      .plain, .plain⟩
  · obtain ⟨rfl, rfl⟩ : leftTy = .int ∧ rightTy = .float := ⟨leftInt, rightFloat⟩
    refine ⟨.unary .floatCast .int left left.span, right, ?_, .cast .intToFloat, .plain⟩
    simp [TypedExpr.binary, notBoolean (by simp), TypedExpr.balance, TypedExpr.insertFloatCast,
      Recorded.record, BinaryOperator.operandType, BinaryOperator.resultType]
  · obtain ⟨rfl, rfl⟩ : leftTy = .float ∧ rightTy = .int := ⟨leftFloat, rightInt⟩
    refine ⟨left, .unary .floatCast .int right right.span, ?_, .plain, .cast .intToFloat⟩
    simp [TypedExpr.binary, notBoolean (by simp), TypedExpr.balance, TypedExpr.insertFloatCast,
      Recorded.record, BinaryOperator.operandType, BinaryOperator.resultType]

theorem coerce_outcome {config : Config} {declared : Ty} (value : TypedExpr)
    (assignable : config.assignable declared value.ty = true) :
    ∃ coerced, (value.coerce declared).outcome = .ok ⟨coerced, declared⟩ ∧
      Converts value.expr value.ty coerced declared := by
  obtain ⟨value, ty⟩ := value
  by_cases same : declared = ty
  · subst same
    exact ⟨value, congrArg Recorded.outcome (TypedExpr.coerce_self ⟨value, declared⟩), .plain⟩
  · cases declared <;> cases ty <;> simp [Config.assignable] at assignable same
    case int.char => exact ⟨_, rfl, .cast .charToInt⟩
    case int.float => exact ⟨_, rfl, .cast .floatToInt⟩
    case float.int => exact ⟨_, rfl, .cast .intToFloat⟩

mutual

/-- An expression that is checked is specialized, with the same type. -/
theorem elaborates_of_checkExpr {expr : Expr Unit} {ty : Ty}
    (checked : scope.checkExpr expr = .ok ty) :
    ∃ specialized, (scope.specializeExpr expr).outcome = .ok ⟨specialized, ty⟩ ∧
      Elaborates scope expr specialized ty := by
  match expr with
  | .literal value span =>
    cases checked
    exact ⟨.literal value span, rfl, .literal⟩
  | .var name span =>
    rw [checkExpr, variableType_eq_ok_iff] at checked
    refine ⟨.var name span, ?_, .var checked⟩
    simp [specializeExpr, knownType, checked]
  | .binary op () lhs rhs span =>
    simp only [checkExpr, except_bind_eq_ok_iff, require_eq_ok_iff] at checked
    obtain ⟨leftTy, leftChecked, rightTy, rightChecked, _, accepted, result⟩ := checked
    cases result
    obtain ⟨left, leftDone, first⟩ := elaborates_of_checkExpr leftChecked
    obtain ⟨right, rightDone, second⟩ := elaborates_of_checkExpr rightChecked
    obtain ⟨left', right', done, firstConverts, secondConverts⟩ :=
      binary_outcome ⟨left, leftTy⟩ ⟨right, rightTy⟩ span accepted
    refine ⟨_, ?_, .binary first second accepted firstConverts secondConverts⟩
    simp only [specializeExpr, Recorded.bind_outcome_eq_ok_iff]
    exact ⟨_, leftDone, _, rightDone, done⟩
  | .unary op () operand span =>
    simp only [checkExpr, except_bind_eq_ok_iff, require_eq_ok_iff] at checked
    obtain ⟨operandTy, operandChecked, _, accepted, result⟩ := checked
    cases result
    obtain ⟨inner, innerDone, elaborated⟩ := elaborates_of_checkExpr operandChecked
    refine ⟨_, ?_, .unary elaborated accepted⟩
    simp only [specializeExpr, Recorded.bind_outcome_eq_ok_iff]
    exact ⟨_, innerDone, congrArg Recorded.outcome (TypedExpr.unary_of_accepts accepted span)⟩
  | .call callee arguments callSpan span =>
    simp only [checkExpr, except_bind_eq_ok_iff, require_eq_ok_iff, callee_eq_ok_iff,
      decide_eq_true_eq] at checked
    obtain ⟨function, found, _, sameLength, _, argumentsChecked, result⟩ := checked
    cases result
    obtain ⟨specialized, done, passed⟩ :=
      elaboratesAll_of_checkArguments sameLength argumentsChecked
    refine ⟨_, ?_, .call found passed⟩
    simp only [specializeExpr, Recorded.bind_outcome_eq_ok_iff]
    exact ⟨_, by simp [knownReturnType, found], _, done, rfl⟩

theorem elaboratesAll_of_checkArguments {arguments : List (Expr Unit)}
    {params : List Declaration} (sameLength : params.length = arguments.length)
    (checked : scope.checkArguments arguments params = .ok ()) :
    ∃ specialized, (scope.specializeExprs arguments).outcome = .ok specialized ∧
      ElaboratesAll scope arguments specialized params := by
  match arguments, params with
  | [], [] => exact ⟨[], rfl, .nil⟩
  | argument :: arguments, param :: params =>
    simp only [checkArguments, except_bind_eq_ok_iff, require_eq_ok_iff, decide_eq_true_eq]
      at checked
    obtain ⟨ty, argumentChecked, _, fits, restChecked⟩ := checked
    subst fits
    obtain ⟨first, firstDone, firstElaborated⟩ := elaborates_of_checkExpr argumentChecked
    obtain ⟨rest, restDone, restElaborated⟩ :=
      elaboratesAll_of_checkArguments (Nat.succ.inj sameLength) restChecked
    refine ⟨first :: rest, ?_, .cons firstElaborated restElaborated⟩
    simp only [specializeExprs, Recorded.bind_outcome_eq_ok_iff]
    exact ⟨_, firstDone, _, restDone, rfl⟩

end

mutual

theorem elaborates_of_checkStmt {config : Config} {returnTy : Ty} {stmt : Stmt Unit}
    (checked : scope.checkStmt config returnTy stmt = .ok ()) :
    ∃ specialized, (scope.specializeStmt stmt).outcome = .ok specialized ∧
      StmtElaborates scope returnTy stmt specialized := by
  match stmt with
  | .skip => exact ⟨.skip, rfl, .skip⟩
  | .block body =>
    rw [checkStmt] at checked
    obtain ⟨specialized, done, elaborated⟩ := elaborate_of_checkStmts checked
    refine ⟨.block specialized, ?_, .block elaborated⟩
    simp only [specializeStmt, Recorded.bind_outcome_eq_ok_iff]
    exact ⟨_, done, rfl⟩
  | .assign target value =>
    simp only [checkStmt, except_bind_eq_ok_iff, require_eq_ok_iff, variableType_eq_ok_iff]
      at checked
    obtain ⟨declared, isDeclared, assigned, valueChecked, assignable⟩ := checked
    obtain ⟨plain, valueDone, elaborated⟩ := elaborates_of_checkExpr valueChecked
    obtain ⟨coerced, coercedDone, converts⟩ := coerce_outcome ⟨plain, assigned⟩ assignable
    refine ⟨.assign target coerced, ?_, .assign isDeclared elaborated converts⟩
    simp only [specializeStmt, Recorded.bind_outcome_eq_ok_iff]
    exact ⟨declared, by simp [knownType, isDeclared], _, valueDone, _, coercedDone, by simp⟩
  | .conditional test thenBranch elseBranch =>
    simp only [checkStmt, checkTest, except_bind_eq_ok_iff, require_eq_ok_iff,
      decide_eq_true_eq] at checked
    obtain ⟨_, ⟨_, testChecked, rfl⟩, _, thenChecked, elseChecked⟩ := checked
    obtain ⟨test', testDone, tested⟩ := elaborates_of_checkExpr testChecked
    obtain ⟨thenBranch', thenDone, chosen⟩ := elaborates_of_checkStmt thenChecked
    obtain ⟨elseBranch', elseDone, rejected⟩ := elaborates_of_checkStmt elseChecked
    refine ⟨.conditional test' thenBranch' elseBranch', ?_,
      .conditional tested chosen rejected⟩
    simp only [specializeStmt, Recorded.bind_outcome_eq_ok_iff]
    exact ⟨_, testDone, _, thenDone, _, elseDone, rfl⟩
  | .loop test body =>
    simp only [checkStmt, checkTest, except_bind_eq_ok_iff, require_eq_ok_iff,
      decide_eq_true_eq] at checked
    obtain ⟨_, ⟨_, testChecked, rfl⟩, bodyChecked⟩ := checked
    obtain ⟨test', testDone, tested⟩ := elaborates_of_checkExpr testChecked
    obtain ⟨body', bodyDone, repeated⟩ := elaborates_of_checkStmt bodyChecked
    refine ⟨.loop test' body', ?_, .loop tested repeated⟩
    simp only [specializeStmt, Recorded.bind_outcome_eq_ok_iff]
    exact ⟨_, testDone, _, bodyDone, rfl⟩
  | .call callee arguments span =>
    simp only [checkStmt, checkCall, checkExpr, except_bind_eq_ok_iff, require_eq_ok_iff,
      callee_eq_ok_iff, decide_eq_true_eq] at checked
    obtain ⟨_, ⟨function, found, _, sameLength, _, argumentsChecked, _⟩, _⟩ := checked
    obtain ⟨specialized, done, passed⟩ :=
      elaboratesAll_of_checkArguments sameLength argumentsChecked
    refine ⟨.call callee specialized span, ?_, .call found passed⟩
    simp only [specializeStmt, Recorded.bind_outcome_eq_ok_iff]
    exact ⟨function.returnTy, by simp [knownReturnType, found], _, done, rfl⟩
  | .giveBack value span =>
    simp only [checkStmt, except_bind_eq_ok_iff, require_eq_ok_iff, decide_eq_true_eq]
      at checked
    obtain ⟨_, valueChecked, rfl⟩ := checked
    obtain ⟨specialized, done, given⟩ := elaborates_of_checkExpr valueChecked
    refine ⟨.giveBack specialized span, ?_, .giveBack given⟩
    simp only [specializeStmt, Recorded.bind_outcome_eq_ok_iff]
    exact ⟨_, done, rfl⟩

theorem elaborate_of_checkStmts {config : Config} {returnTy : Ty} {body : List (Stmt Unit)}
    (checked : scope.checkStmts config returnTy body = .ok ()) :
    ∃ specialized, (scope.specializeStmts body).outcome = .ok specialized ∧
      StmtsElaborate scope returnTy body specialized := by
  match body with
  | [] => exact ⟨[], rfl, .nil⟩
  | first :: rest =>
    simp only [checkStmts, except_bind_eq_ok_iff] at checked
    obtain ⟨_, firstChecked, restChecked⟩ := checked
    obtain ⟨first', firstDone, head⟩ := elaborates_of_checkStmt firstChecked
    obtain ⟨rest', restDone, following⟩ := elaborate_of_checkStmts restChecked
    refine ⟨first' :: rest', ?_, .cons head following⟩
    simp only [specializeStmts, Recorded.bind_outcome_eq_ok_iff]
    exact ⟨_, firstDone, _, restDone, rfl⟩

end

end Scope

namespace Definitions

variable {α β ω ε γ : Type}

theorem exists_traverseList {compute : α → Recorded ω ε γ} {rebuild : α → γ → β}
    {related : α → β → Prop} {items : List α}
    (each : ∀ item ∈ items, ∃ part, (compute item).outcome = .ok part ∧
      related item (rebuild item part)) :
    ∃ rebuilt, (traverseList compute rebuild items).outcome = .ok rebuilt ∧
      List.Forall₂ related items rebuilt := by
  induction items with
  | nil => exact ⟨[], rfl, .nil⟩
  | cons first rest ih =>
    rw [List.forall_mem_cons] at each
    obtain ⟨⟨part, firstDone, firstRelated⟩, restEach⟩ := each
    obtain ⟨rebuilt, restDone, restRelated⟩ := ih restEach
    refine ⟨rebuild first part :: rebuilt, ?_, .cons firstRelated restRelated⟩
    simp only [traverseList, Recorded.bind_outcome_eq_ok_iff]
    exact ⟨part, firstDone, rebuilt, restDone, rfl⟩

theorem exists_traverse [Named α] [Named β] {definitions : Definitions α}
    {compute : α → Recorded ω ε γ} (rebuild : α → γ → β) (related : α → β → Prop)
    (keepsName : ∀ item part, Named.ident (rebuild item part) = Named.ident item)
    (each : ∀ item ∈ definitions.toList, ∃ part, (compute item).outcome = .ok part ∧
      related item (rebuild item part)) :
    ∃ rebuilt, (definitions.traverse compute rebuild keepsName).outcome = .ok rebuilt ∧
      List.Forall₂ related definitions.toList rebuilt.toList := by
  obtain ⟨rebuilt, done, relatedAll⟩ := exists_traverseList each
  refine ⟨⟨rebuilt, distinct_of_map_ident (map_ident_traverseList keepsName done)
    definitions.distinct⟩, ?_, relatedAll⟩
  unfold traverse
  dsimp only
  split
  case _ other otherDone =>
    obtain rfl : other = rebuilt := Except.ok.inj (otherDone.symm.trans done)
    rfl
  case _ error failed => exact absurd (failed.symm.trans done) (by simp)

end Definitions

/-- A checked program is specialized. -/
theorem Program.elaborates_of_check {config : Config} {program : Program Unit}
    (checked : (program.check config).outcome = .ok ()) :
    ∃ specialized,
      (program.specialize (TypeMap.ofDeclarations program.globals)).outcome =
        .ok specialized ∧ ProgramElaborates program specialized := by
  obtain ⟨⟨main, isMain, noParams⟩, kept⟩ := check_eq_ok_iff.mp checked
  have each : ∀ function ∈ program.functions.toList, ∃ body,
      ((Scope.inFunction program function).specializeStmts function.body).outcome =
        .ok body ∧ FunctionElaborates program function (function.withBody body) := by
    intro function member
    obtain ⟨returns, bodyChecked⟩ := kept function member
    obtain ⟨body, done, elaborated⟩ := Scope.elaborate_of_checkStmts bodyChecked
    exact ⟨body, done, rfl, returns, elaborated⟩
  obtain ⟨functions, done, elaborated⟩ :=
    Definitions.exists_traverse Function.withBody (FunctionElaborates program)
      (fun _ _ => rfl) each
  refine ⟨⟨program.globals, functions⟩, ?_, rfl, elaborated, main, isMain, noParams⟩
  simp only [specialize, Recorded.bind_outcome_eq_ok_iff]
  exact ⟨functions, done, rfl⟩

end TypedImp
