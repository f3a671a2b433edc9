import TypedImp.Ty

/-!
# Operators

Binary operators fall into three families, which decide the types of their operands and
of their result.  A cast is a unary operator named for the type that it gives.
-/

namespace TypedImp

/-- The operators between two operands. -/
inductive BinaryOperator where
  | or
  | and
  | eq
  | ne
  | lt
  | le
  | gt
  | ge
  | add
  | sub
  | mul
  | div
  deriving DecidableEq, Inhabited

namespace BinaryOperator

/-- Operators on truth values. -/
def isBoolean : BinaryOperator → Bool
  | .or | .and => true
  | _ => false

/-- Operators that compare. -/
def isRelational : BinaryOperator → Bool
  | .eq | .ne | .lt | .le | .gt | .ge => true
  | _ => false

/-- Operators on numbers that give a number. -/
def isArithmetic : BinaryOperator → Bool
  | .add | .sub | .mul | .div => true
  | _ => false

/-- The spelling of an operator. -/
def symbol : BinaryOperator → String
  | .or => "||"
  | .and => "&&"
  | .eq => "=="
  | .ne => "!="
  | .lt => "<"
  | .le => "<="
  | .gt => ">"
  | .ge => ">="
  | .add => "+"
  | .sub => "-"
  | .mul => "*"
  | .div => "/"

/-- The result type for two operand types: comparison and logic give a truth value, and
a float operand makes arithmetic float. -/
def resultType (op : BinaryOperator) (lhs rhs : Ty) : Ty :=
  if !op.isArithmetic then .bool
  else if lhs = .float ∨ rhs = .float then .float
  else .int

/-- Every operator belongs to one family. -/
theorem family_cases (op : BinaryOperator) :
    op.isBoolean ∨ op.isRelational ∨ op.isArithmetic := by
  cases op <;> simp [isBoolean, isRelational, isArithmetic]

end BinaryOperator

/-- The operators on one operand. -/
inductive UnaryOperator where
  | not
  | neg
  | intCast
  | floatCast
  | charCast
  deriving DecidableEq, Inhabited

namespace UnaryOperator

/-- The cast that gives a type; nothing can be cast to `bool` or `void`. -/
def castTo? : Ty → Option UnaryOperator
  | .int => some .intCast
  | .float => some .floatCast
  | .char => some .charCast
  | .bool | .void => none

/-- The spelling of an operator; a cast is its type in parentheses. -/
def symbol : UnaryOperator → String
  | .not => "!"
  | .neg => "-"
  | .intCast => "(int)"
  | .floatCast => "(float)"
  | .charCast => "(char)"

/-- The result type for an operand type. -/
def resultType : UnaryOperator → Ty → Ty
  | .not, _ => .bool
  | .neg, operand => operand
  | .intCast, _ => .int
  | .floatCast, _ => .float
  | .charCast, _ => .char

end UnaryOperator

end TypedImp
