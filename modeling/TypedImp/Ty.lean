/-!
# Types

The language has four types of values, and `void` for functions that give none.
-/

namespace TypedImp

/-- The types of variables, expressions and functions. -/
inductive Ty where
  | int
  | bool
  | char
  | float
  | void
  deriving DecidableEq, Inhabited

namespace Ty

/-- The types that arithmetic works on. -/
def isNumeric : Ty → Bool
  | .int | .float => true
  | .bool | .char | .void => false

/-- The word for a type. -/
def name : Ty → String
  | .int => "int"
  | .bool => "bool"
  | .char => "char"
  | .float => "float"
  | .void => "void"

theorem name_injective {first second : Ty} (same : first.name = second.name) :
    first = second := by
  cases first <;> cases second <;> simp_all [name]

end Ty

end TypedImp
