import TypedImp.TypeMap
import TypedImp.Typing.TypeError

/-!
# The types of expressions

A scope says what the names in a function stand for.  In a scope every expression has a
type, which depends on the names in it and on its operators, and not on whether the
operators fit their operands.
-/

namespace TypedImp

/-- What names stand for: the functions of the program, and the types of the visible
variables. -/
structure Scope (τ : Type) where
  functions : Definitions (Function τ)
  types : TypeMap

namespace Scope

variable {τ : Type}

/-- The scope outside of all functions. -/
def ofProgram (program : Program τ) : Scope τ :=
  ⟨program.functions, .ofDeclarations program.globals⟩

/-- The scope in a function of a program. -/
def inFunction (program : Program τ) (function : Function τ) : Scope τ :=
  ⟨program.functions, (TypeMap.ofDeclarations program.globals).inFunction function⟩

/-- The type of a variable. -/
def variableType (scope : Scope τ) (name : Ident) : Except (Spanned TypeError) Ty :=
  match scope.types.get? name.name with
  | some ty => .ok ty
  | none => .error ⟨name.span, .undeclaredVariable name.name⟩

/-- The function that a name stands for. -/
def callee (scope : Scope τ) (name : Ident) : Except (Spanned TypeError) (Function τ) :=
  match scope.functions.get? name.name with
  | some function => .ok function
  | none => .error ⟨name.span, .undefinedFunction name.name⟩

/-- The type of an expression; the arguments of a call are not looked at. -/
def typeOf (scope : Scope τ) : Expr τ → Except (Spanned TypeError) Ty
  | .literal value _ => return value.ty
  | .var name _ => scope.variableType name
  | .binary op _ lhs rhs _ => do
    let left ← scope.typeOf lhs
    let right ← scope.typeOf rhs
    return op.resultType left right
  | .unary op _ operand _ => do
    let inner ← scope.typeOf operand
    return op.resultType inner
  | .call callee _ _ _ => do
    let function ← scope.callee callee
    return function.returnTy

end Scope

end TypedImp
