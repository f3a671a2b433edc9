import TypedImp.Typing.Scope

/-!
# What a specialization reports

The events and the failures of the pass that gives every operator its type.  It does not
fail on a program that keeps the typing rules.
-/

namespace TypedImp

/-- Something that the specialization did. -/
inductive SpecializationEvent where
  | binary (op : BinaryOperator) (tag : Ty)
  | unary (op : UnaryOperator) (tag : Ty)
  | floatCast
  | intCast (source : Ty)
  deriving DecidableEq

/-- Why a program has no specialized form. -/
inductive SpecializationError where
  | inconsistent (target : String) (declared assigned : Ty)
  | unknownVariable (name : String)
  | unknownFunction (name : String)
  deriving DecidableEq

/-- Say what is wrong. -/
def SpecializationError.message : SpecializationError → String
  | .inconsistent target declared assigned =>
    s!"internal error: {target} of type {declared.name} is assigned a {assigned.name} after coercion"
  | .unknownVariable name => s!"internal error: {name} has no type"
  | .unknownFunction name => s!"internal error: function {name} is not defined"

end TypedImp
