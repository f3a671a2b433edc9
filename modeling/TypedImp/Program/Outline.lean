import TypedImp.Program.Basic
import TypedImp.Text.Outline

/-!
# Programs as outlines

The written form of a program shows its structure: one item for each definition,
statement and expression, in source order.  A tag stands right before the symbol of its
operator.
-/

namespace TypedImp

open Text (Outline)

/-- How a tag is written. -/
class TagText (τ : Type) where
  tagText : τ → String

instance : TagText Unit :=
  ⟨fun _ => ""⟩

instance : TagText Ty :=
  ⟨Ty.name⟩

variable {τ : Type} [TagText τ]

mutual

/-- The outline of an expression. -/
def Expr.outline : Expr τ → Outline
  | .literal value _ => .leaf s!"{value.ty.name} {value.text}"
  | .var name _ => .leaf s!"var {name.name}"
  | .binary op tag lhs rhs _ =>
    .item s!"binary {TagText.tagText tag}{op.symbol}" [lhs.outline, rhs.outline]
  | .unary op tag operand _ =>
    .item s!"unary {TagText.tagText tag}{op.symbol}" [operand.outline]
  | .call callee arguments _ _ => .item s!"call {callee.name}" (Expr.outlines arguments)

/-- The outlines of expressions. -/
def Expr.outlines : List (Expr τ) → List Outline
  | [] => []
  | first :: rest => first.outline :: Expr.outlines rest

end

mutual

/-- The outline of a statement. -/
def Stmt.outline : Stmt τ → Outline
  | .skip => .leaf "skip"
  | .block body => .item "block" (Stmt.outlines body)
  | .assign target value => .item s!"assign {target.name}" [value.outline]
  | .conditional test thenBranch elseBranch =>
    .item "if" [test.outline, thenBranch.outline, elseBranch.outline]
  | .loop test body => .item "while" [test.outline, body.outline]
  | .call callee arguments _ => .item s!"call {callee.name}" (Expr.outlines arguments)
  | .giveBack value _ => .item "return" [value.outline]

/-- The outlines of statements. -/
def Stmt.outlines : List (Stmt τ) → List Outline
  | [] => []
  | first :: rest => first.outline :: Stmt.outlines rest

end

/-- The outline of a declaration after a word that says what is declared. -/
def Declaration.outline (word : String) (declaration : Declaration) : Outline :=
  .leaf s!"{word} {declaration.ty.name} {declaration.name.name}"

/-- The outline of a function: its parameters, its local variables and its body. -/
def Function.outline (function : Function τ) : Outline :=
  .item s!"function {function.returnTy.name} {function.name.name}" <|
    function.params.toList.map (Declaration.outline "param") ++
      function.locals.toList.map (Declaration.outline "local") ++
      [.item "block" (Stmt.outlines function.body)]

/-- The outline of a program: its global variables, then its functions. -/
def Program.outline (program : Program τ) : List Outline :=
  program.globals.toList.map (Declaration.outline "global") ++
    program.functions.toList.map Function.outline

/-- The written form of a program. -/
def Program.text (program : Program τ) : String :=
  Outline.write program.outline

/-- The written form of an expression. -/
def Expr.text (expr : Expr τ) : String :=
  Outline.write [expr.outline]

end TypedImp
