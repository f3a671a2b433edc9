import TypedImp.Recorded
import TypedImp.Specialization.Basic

/-!
# Specialized programs

Specialization tags every operator with the type of its operands and turns conversions
into casts.  Of two operands of arithmetic or comparison an integer beside a float is
cast to float; an assigned value is cast to the type of its variable.  A cast that is
inserted has the span of its operand.
-/

namespace TypedImp

/-- A specialized expression and its type. -/
structure TypedExpr where
  expr : Expr Ty
  ty : Ty

/-- A step of the specialization. -/
abbrev Specializing (α : Type) :=
  Recorded SpecializationEvent (Spanned SpecializationError) α

namespace TypedExpr

/-- Cast an expression to float. -/
def insertFloatCast (operand : TypedExpr) : Specializing TypedExpr := do
  Recorded.record .floatCast
  return ⟨.unary .floatCast .int operand.expr operand.expr.span, .float⟩

/-- Cast an expression to integer. -/
def insertIntCast (operand : TypedExpr) : Specializing TypedExpr := do
  Recorded.record (.intCast operand.ty)
  return ⟨.unary .intCast operand.ty operand.expr operand.expr.span, .int⟩

/-- Cast an integer that stands beside a float. -/
def balance (lhs rhs : TypedExpr) : Specializing (TypedExpr × TypedExpr) :=
  match lhs.ty, rhs.ty with
  | .int, .float => do
    let cast ← lhs.insertFloatCast
    return (cast, rhs)
  | .float, .int => do
    let cast ← rhs.insertFloatCast
    return (lhs, cast)
  | _, _ => return (lhs, rhs)

/-- Cast a value that is assigned to a variable of another type, where there is a cast. -/
def coerce (declared : Ty) (value : TypedExpr) : Specializing TypedExpr :=
  match declared, value.ty with
  | .float, .int => value.insertFloatCast
  | .int, .char | .int, .float => value.insertIntCast
  | _, _ => return value

/-- Apply a binary operator: logic works on truth values, and the other operators on the
type that their balanced operands have. -/
def binary (op : BinaryOperator) (lhs rhs : TypedExpr) (span : Span) :
    Specializing TypedExpr := do
  let (lhs, rhs) ← if op.isBoolean then pure (lhs, rhs) else balance lhs rhs
  let tag := if op.isBoolean then .bool else lhs.ty
  Recorded.record (.binary op tag)
  return ⟨.binary op tag lhs.expr rhs.expr span, op.resultType lhs.ty rhs.ty⟩

/-- Apply a unary operator; a cast is tagged with the type that it casts from. -/
def unary (op : UnaryOperator) (operand : TypedExpr) (span : Span) :
    Specializing TypedExpr := do
  let tag := if op = .not then .bool else operand.ty
  Recorded.record (.unary op tag)
  return ⟨.unary op tag operand.expr span, op.resultType operand.ty⟩

end TypedExpr

namespace Scope

/-- The type of a variable. -/
def knownType (scope : Scope Unit) (name : Ident) : Specializing Ty :=
  match scope.types.get? name.name with
  | some ty => return ty
  | none => .fail ⟨name.span, .unknownVariable name.name⟩

/-- The type that a function gives. -/
def knownReturnType (scope : Scope Unit) (name : Ident) : Specializing Ty :=
  match scope.functions.get? name.name with
  | some function => return function.returnTy
  | none => .fail ⟨name.span, .unknownFunction name.name⟩

mutual

/-- Specialize an expression. -/
def specializeExpr (scope : Scope Unit) : Expr Unit → Specializing TypedExpr
  | .literal value span => return ⟨.literal value span, value.ty⟩
  | .var name span => do
    let ty ← scope.knownType name
    return ⟨.var name span, ty⟩
  | .binary op _ lhs rhs span => do
    let left ← scope.specializeExpr lhs
    let right ← scope.specializeExpr rhs
    left.binary op right span
  | .unary op _ operand span => do
    let inner ← scope.specializeExpr operand
    inner.unary op span
  | .call callee arguments callSpan span => do
    let ty ← scope.knownReturnType callee
    let specialized ← scope.specializeExprs arguments
    return ⟨.call callee specialized callSpan span, ty⟩

/-- Specialize expressions in their order. -/
def specializeExprs (scope : Scope Unit) : List (Expr Unit) → Specializing (List (Expr Ty))
  | [] => return []
  | first :: rest => do
    let specialized ← scope.specializeExpr first
    let following ← scope.specializeExprs rest
    return specialized.expr :: following

end

mutual

/-- Specialize a statement. -/
def specializeStmt (scope : Scope Unit) : Stmt Unit → Specializing (Stmt Ty)
  | .skip => return .skip
  | .block body => do
    let specialized ← scope.specializeStmts body
    return .block specialized
  | .assign target value => do
    let declared ← scope.knownType target
    let plain ← scope.specializeExpr value
    let coerced ← plain.coerce declared
    if coerced.ty = declared then
      return .assign target coerced.expr
    else
      .fail ⟨target.span.cover coerced.expr.span,
        .inconsistent target.name declared coerced.ty⟩
  | .conditional test thenBranch elseBranch => do
    let specializedTest ← scope.specializeExpr test
    let specializedThen ← scope.specializeStmt thenBranch
    let specializedElse ← scope.specializeStmt elseBranch
    return .conditional specializedTest.expr specializedThen specializedElse
  | .loop test body => do
    let specializedTest ← scope.specializeExpr test
    let specializedBody ← scope.specializeStmt body
    return .loop specializedTest.expr specializedBody
  | .call callee arguments span => do
    let _ ← scope.knownReturnType callee
    let specialized ← scope.specializeExprs arguments
    return .call callee specialized span
  | .giveBack value span => do
    let specialized ← scope.specializeExpr value
    return .giveBack specialized.expr span

/-- Specialize statements in their order. -/
def specializeStmts (scope : Scope Unit) : List (Stmt Unit) → Specializing (List (Stmt Ty))
  | [] => return []
  | first :: rest => do
    let specialized ← scope.specializeStmt first
    let following ← scope.specializeStmts rest
    return specialized :: following

end

end Scope

/-- A function with another body. -/
def Function.withBody {τ σ : Type} (function : Function τ) (body : List (Stmt σ)) :
    Function σ :=
  ⟨function.returnTy, function.name, function.params, function.locals, body⟩

/-- Specialize a program in which the global variables have the given types. -/
def Program.specialize (program : Program Unit) (globals : TypeMap) :
    Specializing (Program Ty) := do
  let specializeBody (function : Function Unit) :=
    let scope : Scope Unit := ⟨program.functions, globals.inFunction function⟩
    scope.specializeStmts function.body
  let functions ←
    program.functions.traverse specializeBody Function.withBody (fun _ _ => rfl)
  return ⟨program.globals, functions⟩

end TypedImp
