import TypedImp.Program.Basic

/-!
# The nodes of a program

A property of all expressions, or of all statements, that occur in a program at any depth.
-/

namespace TypedImp

variable {τ : Type}

mutual

/-- An expression and all expressions in it have a property. -/
def Expr.Every (holds : Expr τ → Prop) : Expr τ → Prop
  | .literal value span => holds (.literal value span)
  | .var name span => holds (.var name span)
  | .binary op tag lhs rhs span =>
    lhs.Every holds ∧ rhs.Every holds ∧ holds (.binary op tag lhs rhs span)
  | .unary op tag operand span =>
    operand.Every holds ∧ holds (.unary op tag operand span)
  | .call callee arguments callSpan span =>
    Expr.EveryOf holds arguments ∧ holds (.call callee arguments callSpan span)

/-- All expressions in some expressions have a property. -/
def Expr.EveryOf (holds : Expr τ → Prop) : List (Expr τ) → Prop
  | [] => True
  | first :: rest => first.Every holds ∧ Expr.EveryOf holds rest

end

mutual

/-- All expressions in a statement have a property. -/
def Stmt.Every (holds : Expr τ → Prop) : Stmt τ → Prop
  | .skip => True
  | .block body => Stmt.EveryOf holds body
  | .assign _ value => value.Every holds
  | .conditional test thenBranch elseBranch =>
    test.Every holds ∧ thenBranch.Every holds ∧ elseBranch.Every holds
  | .loop test body => test.Every holds ∧ body.Every holds
  | .call _ arguments _ => Expr.EveryOf holds arguments
  | .giveBack value _ => value.Every holds

/-- All expressions in some statements have a property. -/
def Stmt.EveryOf (holds : Expr τ → Prop) : List (Stmt τ) → Prop
  | [] => True
  | first :: rest => first.Every holds ∧ Stmt.EveryOf holds rest

end

mutual

/-- A statement and all statements in it have a property. -/
def Stmt.Throughout (holds : Stmt τ → Prop) : Stmt τ → Prop
  | .skip => holds .skip
  | .block body => Stmt.ThroughoutAll holds body ∧ holds (.block body)
  | .assign target value => holds (.assign target value)
  | .conditional test thenBranch elseBranch =>
    thenBranch.Throughout holds ∧ elseBranch.Throughout holds ∧
      holds (.conditional test thenBranch elseBranch)
  | .loop test body => body.Throughout holds ∧ holds (.loop test body)
  | .call callee arguments span => holds (.call callee arguments span)
  | .giveBack value span => holds (.giveBack value span)

/-- Some statements and all statements in them have a property. -/
def Stmt.ThroughoutAll (holds : Stmt τ → Prop) : List (Stmt τ) → Prop
  | [] => True
  | first :: rest => first.Throughout holds ∧ Stmt.ThroughoutAll holds rest

end

mutual

/-- What follows from a property of all statements in a statement holds of all of them. -/
theorem Stmt.Throughout.imp {holds follows : Stmt τ → Prop} {stmt : Stmt τ}
    (all : stmt.Throughout holds) (implies : ∀ stmt, holds stmt → follows stmt) :
    stmt.Throughout follows := by
  match stmt with
  | .skip | .assign _ _ | .call _ _ _ | .giveBack _ _ => exact implies _ all
  | .block body => exact ⟨Stmt.ThroughoutAll.imp all.1 implies, implies _ all.2⟩
  | .conditional _ thenBranch elseBranch =>
    exact ⟨Stmt.Throughout.imp all.1 implies, Stmt.Throughout.imp all.2.1 implies,
      implies _ all.2.2⟩
  | .loop _ body => exact ⟨Stmt.Throughout.imp all.1 implies, implies _ all.2⟩

theorem Stmt.ThroughoutAll.imp {holds follows : Stmt τ → Prop} {body : List (Stmt τ)}
    (all : Stmt.ThroughoutAll holds body) (implies : ∀ stmt, holds stmt → follows stmt) :
    Stmt.ThroughoutAll follows body := by
  match body with
  | [] => trivial
  | first :: rest =>
    exact ⟨Stmt.Throughout.imp all.1 implies, Stmt.ThroughoutAll.imp all.2 implies⟩

end

section Decidable

variable (holds : Stmt τ → Prop) [DecidablePred holds]

mutual

/-- Look at all statements in a statement. -/
def Stmt.decideThroughout : (stmt : Stmt τ) → Decidable (stmt.Throughout holds)
  | .skip => inferInstanceAs (Decidable (holds .skip))
  | .assign target value => inferInstanceAs (Decidable (holds (.assign target value)))
  | .call callee arguments span =>
    inferInstanceAs (Decidable (holds (.call callee arguments span)))
  | .giveBack value span => inferInstanceAs (Decidable (holds (.giveBack value span)))
  | .block body =>
    have := Stmt.decideThroughoutAll body
    inferInstanceAs (Decidable (Stmt.ThroughoutAll holds body ∧ holds (.block body)))
  | .conditional test thenBranch elseBranch =>
    have := Stmt.decideThroughout thenBranch
    have := Stmt.decideThroughout elseBranch
    inferInstanceAs (Decidable (thenBranch.Throughout holds ∧ elseBranch.Throughout holds ∧
      holds (.conditional test thenBranch elseBranch)))
  | .loop test body =>
    have := Stmt.decideThroughout body
    inferInstanceAs (Decidable (body.Throughout holds ∧ holds (.loop test body)))

/-- Look at all statements in some statements. -/
def Stmt.decideThroughoutAll :
    (body : List (Stmt τ)) → Decidable (Stmt.ThroughoutAll holds body)
  | [] => isTrue trivial
  | first :: rest =>
    have := Stmt.decideThroughout first
    have := Stmt.decideThroughoutAll rest
    inferInstanceAs (Decidable (first.Throughout holds ∧ Stmt.ThroughoutAll holds rest))

end

instance (body : List (Stmt τ)) : Decidable (Stmt.ThroughoutAll holds body) :=
  Stmt.decideThroughoutAll holds body

end Decidable

/-- All expressions in a program have a property. -/
def Program.Every (holds : Expr τ → Prop) (program : Program τ) : Prop :=
  ∀ function ∈ program.functions.toList, Stmt.EveryOf holds function.body

end TypedImp
