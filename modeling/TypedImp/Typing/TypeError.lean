import TypedImp.Program.Basic

/-!
# Type errors

The ways in which a program breaks a typing rule.
-/

namespace TypedImp

/-- Why a program is not well typed. -/
inductive TypeError where
  | missingMain
  | mainWithParameters
  | undeclaredVariable (name : String)
  | undefinedFunction (name : String)
  | unassignable (target : String) (declared assigned : Ty)
  | testNotBool (actual : Ty)
  | binaryOperands (op : BinaryOperator) (lhs rhs : Ty)
  | unaryOperand (op : UnaryOperator) (operand : Ty)
  | argumentCount (callee : String) (expected actual : Nat)
  | argumentMismatch (param : String) (expected actual : Ty)
  | multipleReturns (function : String)
  | returnNotLast (function : String)
  | missingReturn (function : String)
  | returnInVoid (function : String)
  | returnMismatch (expected actual : Ty)
  deriving DecidableEq

/-- Say what is wrong with the operands of a binary operator. -/
def BinaryOperator.operandsMessage (op : BinaryOperator) (lhs rhs : Ty) : String :=
  if op.isArithmetic then
    s!"operator {op.symbol} expects numeric operands, but got {lhs.name} and {rhs.name}"
  else if op.isRelational then
    s!"operator {op.symbol} can't compare {lhs.name} and {rhs.name}"
  else
    s!"operator {op.symbol} expects bool operands, but got {lhs.name} and {rhs.name}"

/-- Say what is wrong with the operand of a unary operator. -/
def UnaryOperator.operandMessage (op : UnaryOperator) (operand : Ty) : String :=
  match op with
  | .not => s!"operator ! expects a bool operand, but got {operand.name}"
  | .neg => s!"operator - expects a numeric operand, but got {operand.name}"
  | .intCast | .floatCast | .charCast =>
    s!"can't cast {operand.name} to {(op.resultType operand).name}"

/-- Say what is wrong. -/
def TypeError.message : TypeError → String
  | .missingMain => "program has no main function"
  | .mainWithParameters => "main function can't take parameters"
  | .undeclaredVariable name => s!"{name} is not declared"
  | .undefinedFunction name => s!"function {name} is not defined"
  | .unassignable target declared assigned =>
    s!"type {assigned.name} is not assignable to {target} of type {declared.name}"
  | .testNotBool actual => s!"expected condition of type bool, but got {actual.name}"
  | .binaryOperands op lhs rhs => op.operandsMessage lhs rhs
  | .unaryOperand op operand => op.operandMessage operand
  | .argumentCount callee expected actual =>
    s!"incorrect number of arguments to {callee}. expected {expected}, but got {actual}"
  | .argumentMismatch param expected actual =>
    s!"argument for {param} expected type {expected.name}, but got {actual.name}"
  | .multipleReturns function => s!"function {function} has more than one return statement"
  | .returnNotLast function => s!"return must be the last statement of function {function}"
  | .missingReturn function => s!"function {function} must end with a return statement"
  | .returnInVoid function => s!"void function {function} can't return a value"
  | .returnMismatch expected actual =>
    s!"expected return type {expected.name}, but got {actual.name}"

end TypedImp
