import TypedImp.Recorded
import TypedImp.Typing.Scope

/-!
# Checking programs

The typing rules, and a check that walks through a program in source order and stops at
the first rule that is broken.  `Config.narrowing` decides whether a float may be
assigned to an integer variable.
-/

namespace TypedImp

/-- What the rules leave open. -/
structure Config where
  /-- Whether a float may be assigned to an integer variable, which truncates it. -/
  narrowing : Bool
  deriving DecidableEq

namespace Config

/-- Assignments may widen and narrow. -/
def standard : Config :=
  ⟨true⟩

/-- Assignments may only widen. -/
def strict : Config :=
  ⟨false⟩

/-- Whether a value of one type may be stored in a variable of another. -/
def assignable (config : Config) (declared assigned : Ty) : Bool :=
  match declared, assigned with
  | .float, .int | .int, .char => true
  | .int, .float => config.narrowing
  | _, _ => declared = assigned

theorem assignable_self (config : Config) (ty : Ty) : config.assignable ty ty = true := by
  cases ty <;> rfl

end Config

/-- Numbers compare with numbers and characters with characters; truth values can only be
equal or not. -/
def comparable (op : BinaryOperator) (lhs rhs : Ty) : Bool :=
  lhs.isNumeric && rhs.isNumeric
    || (lhs = .char && rhs = .char)
    || (lhs = .bool && rhs = .bool && (op = .eq || op = .ne))

/-- Whether an operator takes operands of two types. -/
def BinaryOperator.accepts (op : BinaryOperator) (lhs rhs : Ty) : Bool :=
  if op.isArithmetic then lhs.isNumeric && rhs.isNumeric
  else if op.isRelational then comparable op lhs rhs
  else lhs = .bool && rhs = .bool

/-- Whether an operator takes an operand of a type. -/
def UnaryOperator.accepts : UnaryOperator → Ty → Bool
  | .not, operand => operand = .bool
  | .neg, operand => operand.isNumeric
  | .intCast, operand => operand = .float || operand = .char
  | .floatCast, operand | .charCast, operand => operand = .int

/-- Fail unless a rule is kept. -/
def require (kept : Bool) (span : Span) (error : TypeError) :
    Except (Spanned TypeError) Unit :=
  if kept then .ok () else .error ⟨span, error⟩

@[simp]
theorem require_eq_ok_iff {kept : Bool} {span : Span} {error : TypeError} {result : Unit} :
    require kept span error = .ok result ↔ kept = true := by
  cases kept <;> simp [require]

/-- A function whose check has begun. -/
structure FunctionCheck where
  name : String
  returnTy : Ty
  deriving DecidableEq

variable {τ : Type}

namespace Scope

mutual

/-- Check an expression and give its type. -/
def checkExpr (scope : Scope τ) : Expr τ → Except (Spanned TypeError) Ty
  | .literal value _ => return value.ty
  | .var name _ => scope.variableType name
  | .binary op _ lhs rhs span => do
    let left ← scope.checkExpr lhs
    let right ← scope.checkExpr rhs
    require (op.accepts left right) span (.binaryOperands op left right)
    return op.resultType left right
  | .unary op _ operand span => do
    let inner ← scope.checkExpr operand
    require (op.accepts inner) span (.unaryOperand op inner)
    return op.resultType inner
  | .call callee arguments callSpan _ => do
    let function ← scope.callee callee
    let params := function.params.toList
    require (params.length = arguments.length) callSpan
      (.argumentCount callee.name params.length arguments.length)
    scope.checkArguments arguments params
    return function.returnTy

/-- Check arguments against the parameters in the same places. -/
def checkArguments (scope : Scope τ) :
    List (Expr τ) → List Declaration → Except (Spanned TypeError) Unit
  | argument :: arguments, param :: params => do
    let actual ← scope.checkExpr argument
    require (actual = param.ty) argument.span
      (.argumentMismatch param.name.name param.ty actual)
    scope.checkArguments arguments params
  | _, _ => return ()

end

/-- Check a call and give the type that the function gives. -/
def checkCall (scope : Scope τ) (callee : Ident) (arguments : List (Expr τ)) (span : Span) :
    Except (Spanned TypeError) Ty :=
  scope.checkExpr (.call callee arguments span span)

/-- Check a test, which has to be a truth value. -/
def checkTest (scope : Scope τ) (test : Expr τ) : Except (Spanned TypeError) Unit := do
  let actual ← scope.checkExpr test
  require (actual = .bool) test.span (.testNotBool actual)

mutual

/-- Check a statement of a function that gives `returnTy`. -/
def checkStmt (scope : Scope τ) (config : Config) (returnTy : Ty) :
    Stmt τ → Except (Spanned TypeError) Unit
  | .skip => return ()
  | .block body => scope.checkStmts config returnTy body
  | .assign target value => do
    let declared ← scope.variableType target
    let assigned ← scope.checkExpr value
    require (config.assignable declared assigned) (target.span.cover value.span)
      (.unassignable target.name declared assigned)
  | .conditional test thenBranch elseBranch => do
    scope.checkTest test
    scope.checkStmt config returnTy thenBranch
    scope.checkStmt config returnTy elseBranch
  | .loop test body => do
    scope.checkTest test
    scope.checkStmt config returnTy body
  | .call callee arguments span => do
    let _ ← scope.checkCall callee arguments span
  | .giveBack value _ => do
    let actual ← scope.checkExpr value
    require (actual = returnTy) value.span (.returnMismatch returnTy actual)

/-- Check statements in their order. -/
def checkStmts (scope : Scope τ) (config : Config) (returnTy : Ty) :
    List (Stmt τ) → Except (Spanned TypeError) Unit
  | [] => return ()
  | first :: rest => do
    scope.checkStmt config returnTy first
    scope.checkStmts config returnTy rest

end

end Scope

mutual

/-- The first `giveBack` in a statement, at any depth. -/
def Stmt.firstReturn? : Stmt τ → Option Span
  | .giveBack _ span => some span
  | .block body => Stmt.firstReturnOf? body
  | .conditional _ thenBranch elseBranch =>
    thenBranch.firstReturn?.or elseBranch.firstReturn?
  | .loop _ body => body.firstReturn?
  | .skip | .assign _ _ | .call _ _ _ => none

/-- The first `giveBack` in statements, at any depth. -/
def Stmt.firstReturnOf? : List (Stmt τ) → Option Span
  | [] => none
  | first :: rest => first.firstReturn?.or (Stmt.firstReturnOf? rest)

end

/-- The place of a statement that is a `giveBack` itself. -/
def Stmt.returnSpan? : Stmt τ → Option Span
  | .giveBack _ span => some span
  | _ => none

namespace Function

/-- Check where a function gives back values: nowhere if it is `void`, and else once, as
its last statement.  Only `main` may do without. -/
def checkReturns (function : Function τ) : Except (Spanned TypeError) Unit :=
  let name := function.name.name
  if function.returnTy = .void then
    match Stmt.firstReturnOf? function.body with
    | some span => .error ⟨span, .returnInVoid name⟩
    | none => .ok ()
  else
    match function.body.filterMap Stmt.returnSpan? with
    | [] => require (name = Program.mainName) function.name.span (.missingReturn name)
    | [span] =>
      require (function.body.getLast?.bind Stmt.returnSpan?).isSome span (.returnNotLast name)
    | _ :: second :: _ => .error ⟨second, .multipleReturns name⟩

/-- Check a function of a program. -/
def check (config : Config) (program : Program τ) (function : Function τ) :
    Recorded FunctionCheck (Spanned TypeError) Unit := do
  Recorded.record ⟨function.name.name, function.returnTy⟩
  .ofExcept function.checkReturns
  .ofExcept <|
    (Scope.inFunction program function).checkStmts config function.returnTy function.body

end Function

namespace Program

/-- Check the functions of a program in their order. -/
def checkFunctions (config : Config) (program : Program τ) :
    List (Function τ) → Recorded FunctionCheck (Spanned TypeError) Unit
  | [] => return ()
  | function :: functions => do
    function.check config program
    program.checkFunctions config functions

/-- Check a program: it needs a function `main` without parameters, and all functions
have to keep the rules. -/
def check (config : Config) (program : Program τ) :
    Recorded FunctionCheck (Spanned TypeError) Unit :=
  match program.main? with
  | none => .fail ⟨Span.emptyAt 0, .missingMain⟩
  | some main =>
    if main.params.isEmpty then
      program.checkFunctions config program.functions.toList
    else
      .fail ⟨main.name.span, .mainWithParameters⟩

end Program

end TypedImp
