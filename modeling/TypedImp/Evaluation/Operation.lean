import TypedImp.Binary32.Conversion
import TypedImp.Evaluation.RunError

/-!
# Operators on values

The tag of an operator says which content it reads from its operands.  Integers wrap
around at 32 bits, and their division truncates.  Floats follow the rules of binary32
arithmetic; a comparison with what is not a number holds only if it asks for a
difference.
-/

namespace TypedImp

/-- Read a content, or fail as an operation does. -/
def content {α : Type} (read : Value → Except ValueError α) (value : Value) :
    Except RunError α :=
  (read value).mapError RunError.value

@[simp]
theorem content_eq_ok_iff {α : Type} {read : Value → Except ValueError α} {value : Value}
    {found : α} : content read value = .ok found ↔ read value = .ok found := by
  unfold content
  cases read value with
  | error error =>
    change Except.error (RunError.value error) = .ok found ↔ _
    simp
  | ok inner =>
    change Except.ok inner = .ok found ↔ _
    simp

/-- How two floats compare, if they do. -/
def floatOrdering? (lhs rhs : Float32) : Option Ordering :=
  if lhs < rhs then some .lt
  else if lhs == rhs then some .eq
  else if rhs < lhs then some .gt
  else none

namespace BinaryOperator

/-- What an operator that compares says about two operands in a given order; `none` is the
order of operands that do not compare. -/
def relation? : BinaryOperator → Option (Option Ordering → Bool)
  | .eq => some (· == some .eq)
  | .ne => some (· != some .eq)
  | .lt => some (· == some .lt)
  | .le => some fun order => order == some .lt || order == some .eq
  | .gt => some (· == some .gt)
  | .ge => some fun order => order == some .gt || order == some .eq
  | _ => none

/-- Compare operands in a given order. -/
def compareAs (op : BinaryOperator) (tag : Ty) (order : Option Ordering) :
    Except RunError Value :=
  match op.relation? with
  | some relation => .ok (.bool (relation order))
  | none => .error (.unsupportedBinary op tag)

/-- Apply an operator to integers. -/
def applyInt (op : BinaryOperator) (lhs rhs : Int32) : Except RunError Value :=
  match op with
  | .add => .ok (.int (lhs + rhs))
  | .sub => .ok (.int (lhs - rhs))
  | .mul => .ok (.int (lhs * rhs))
  | .div => if rhs = 0 then .error .divisionByZero else .ok (.int (lhs / rhs))
  | _ => op.compareAs .int (some (compare lhs.toInt rhs.toInt))

/-- Apply an operator to floats. -/
def applyFloat (op : BinaryOperator) (lhs rhs : Float32) : Except RunError Value :=
  match op with
  | .add => .ok (.float (lhs + rhs))
  | .sub => .ok (.float (lhs - rhs))
  | .mul => .ok (.float (lhs * rhs))
  | .div => .ok (.float (lhs / rhs))
  | _ => op.compareAs .float (floatOrdering? lhs rhs)

/-- Apply an operator to truth values. -/
def applyBool (op : BinaryOperator) (lhs rhs : Bool) : Except RunError Value :=
  match op with
  | .and => .ok (.bool (lhs && rhs))
  | .or => .ok (.bool (lhs || rhs))
  | .eq => .ok (.bool (lhs == rhs))
  | .ne => .ok (.bool (lhs != rhs))
  | _ => .error (.unsupportedBinary op .bool)

/-- Apply an operator with a tag to values. -/
def apply (op : BinaryOperator) (tag : Ty) (lhs rhs : Value) : Except RunError Value :=
  match tag with
  | .int => do
    let left ← content Value.asInt lhs
    let right ← content Value.asInt rhs
    op.applyInt left right
  | .float => do
    let left ← content Value.asFloat lhs
    let right ← content Value.asFloat rhs
    op.applyFloat left right
  | .char => do
    let left ← content Value.asChar lhs
    let right ← content Value.asChar rhs
    op.compareAs .char (some (compare left.toNat right.toNat))
  | .bool => do
    let left ← content Value.asBool lhs
    let right ← content Value.asBool rhs
    op.applyBool left right
  | .void => .error (.unsupportedBinary op .void)

end BinaryOperator

namespace UnaryOperator

/-- The character with a code. -/
def charOfCode (code : Int32) : Except RunError Value :=
  let number := code.toInt.toNat
  if 0 ≤ code ∧ number.isValidChar then .ok (.char (Char.ofNat number))
  else .error (.invalidCharCode code)

/-- Apply an operator with a tag to a value. -/
def apply (op : UnaryOperator) (tag : Ty) (operand : Value) : Except RunError Value :=
  match op, tag with
  | .not, .bool => do
    let truth ← content Value.asBool operand
    return .bool (!truth)
  | .neg, .int => do
    let number ← content Value.asInt operand
    return .int (-number)
  | .neg, .float => do
    let number ← content Value.asFloat operand
    return .float (-number)
  | .floatCast, .int => do
    let number ← content Value.asInt operand
    return .float (Binary32.ofInt32 number)
  | .intCast, .float => do
    let number ← content Value.asFloat operand
    return .int (Binary32.toInt32 number)
  | .intCast, .char => do
    let character ← content Value.asChar operand
    return .int (Int32.ofNat character.toNat)
  | .charCast, .int => do
    let code ← content Value.asInt operand
    charOfCode code
  | _, _ => .error (.unsupportedUnary op tag)

end UnaryOperator

end TypedImp
