import TypedImp.Definitions
import TypedImp.Operator
import TypedImp.Value

/-!
# Programs

A program defines global variables and functions.  Every operator carries a tag: the
program that was read has no information there (`Unit`), and the specialized program has
the type that the operator works on (`Ty`).
-/

namespace TypedImp

/-- Expressions with tags of type `τ`.  A call has a span of its own beside that of the
expression it stands for. -/
inductive Expr (τ : Type) where
  | literal (value : Value) (span : Span)
  | var (name : Ident) (span : Span)
  | binary (op : BinaryOperator) (tag : τ) (lhs rhs : Expr τ) (span : Span)
  | unary (op : UnaryOperator) (tag : τ) (operand : Expr τ) (span : Span)
  | call (callee : Ident) (arguments : List (Expr τ)) (callSpan span : Span)

/-- The source text of an expression. -/
def Expr.span {τ : Type} : Expr τ → Span
  | .literal _ span | .var _ span | .binary _ _ _ _ span | .unary _ _ _ span
  | .call _ _ _ span => span

/-- Statements.  A condition without an alternative has `skip` for one; the span of a
`giveBack` is that of its first word. -/
inductive Stmt (τ : Type) where
  | skip
  | block (body : List (Stmt τ))
  | assign (target : Ident) (value : Expr τ)
  | conditional (test : Expr τ) (thenBranch elseBranch : Stmt τ)
  | loop (test : Expr τ) (body : Stmt τ)
  | call (callee : Ident) (arguments : List (Expr τ)) (span : Span)
  | giveBack (value : Expr τ) (span : Span)

/-- A variable and its type. -/
structure Declaration where
  name : Ident
  ty : Ty
  deriving DecidableEq, Inhabited

instance : Named Declaration :=
  ⟨Declaration.name⟩

/-- A function: what it gives, its parameters, its local variables and its body. -/
structure Function (τ : Type) where
  returnTy : Ty
  name : Ident
  params : Definitions Declaration
  locals : Definitions Declaration
  body : List (Stmt τ)

instance {τ : Type} : Named (Function τ) :=
  ⟨Function.name⟩

/-- Global variables and functions. -/
structure Program (τ : Type) where
  globals : Definitions Declaration
  functions : Definitions (Function τ)

namespace Program

/-- The name of the function that a run starts with. -/
def mainName : String :=
  "main"

/-- The function that a run starts with. -/
def main? {τ : Type} (program : Program τ) : Option (Function τ) :=
  program.functions.get? mainName

end Program

end TypedImp
