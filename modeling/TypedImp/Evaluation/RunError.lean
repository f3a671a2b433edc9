import TypedImp.Operator
import TypedImp.Value

/-!
# Run-time errors

What can stop a run.  A program that keeps the typing rules is stopped only by the use of
an undefined value, a division by zero, an integer that is no character, or too many
calls inside each other.
-/

namespace TypedImp

/-- Why a run cannot go on. -/
inductive RunError where
  | value (error : ValueError)
  | divisionByZero
  | invalidCharCode (code : Int32)
  | unboundVariable (name : String)
  | undefinedFunction (name : String)
  | missingReturnValue (name : String)
  | missingMain
  | stackOverflow (depth : Nat)
  | unsupportedBinary (op : BinaryOperator) (tag : Ty)
  | unsupportedUnary (op : UnaryOperator) (tag : Ty)
  deriving DecidableEq

/-- Say what is wrong. -/
def RunError.message : RunError → String
  | .value error => error.message
  | .divisionByZero => "division by zero"
  | .invalidCharCode code => s!"invalid character code {code.toInt}"
  | .unboundVariable name => s!"{name} is not bound"
  | .undefinedFunction name => s!"function {name} is not defined"
  | .missingReturnValue name => s!"function {name} finished without returning a value"
  | .missingMain => "program has no main function"
  | .stackOverflow depth => s!"stack overflow: call depth exceeds {depth}"
  | .unsupportedBinary op tag => s!"operator {op.symbol} is not supported on {tag.name}"
  | .unsupportedUnary op tag => s!"operator {op.symbol} is not supported on {tag.name}"

end TypedImp
