import TypedImp.Program.Basic
import TypedImp.Recorded

/-!
# The names of a program

All names that occur in a program, in its definitions and in its bodies, are allowed ones.  A stage
keeps names if what it gives has only allowed names, and if its errors repeat no others.
-/

namespace TypedImp

variable {τ : Type}

section Syntax

variable (allowed : String → Prop)

mutual

/-- All names in an expression are allowed. -/
def Expr.NamesIn : Expr τ → Prop
  | .literal _ _ => True
  | .var name _ => allowed name.name
  | .binary _ _ lhs rhs _ => lhs.NamesIn ∧ rhs.NamesIn
  | .unary _ _ operand _ => operand.NamesIn
  | .call callee arguments _ _ => allowed callee.name ∧ Expr.AllNamesIn arguments

/-- All names in some expressions are allowed. -/
def Expr.AllNamesIn : List (Expr τ) → Prop
  | [] => True
  | first :: rest => first.NamesIn ∧ Expr.AllNamesIn rest

end

mutual

/-- All names in a statement are allowed. -/
def Stmt.NamesIn : Stmt τ → Prop
  | .skip => True
  | .block body => Stmt.AllNamesIn body
  | .assign target value => allowed target.name ∧ value.NamesIn allowed
  | .conditional test thenBranch elseBranch =>
    test.NamesIn allowed ∧ thenBranch.NamesIn ∧ elseBranch.NamesIn
  | .loop test body => test.NamesIn allowed ∧ body.NamesIn
  | .call callee arguments _ => allowed callee.name ∧ Expr.AllNamesIn allowed arguments
  | .giveBack value _ => value.NamesIn allowed

/-- All names in some statements are allowed. -/
def Stmt.AllNamesIn : List (Stmt τ) → Prop
  | [] => True
  | first :: rest => first.NamesIn ∧ Stmt.AllNamesIn rest

end

/-- All declared names are allowed. -/
def Definitions.NamesIn (declarations : Definitions Declaration) : Prop :=
  ∀ declaration ∈ declarations.toList, allowed declaration.name.name

/-- All names of a function and in it are allowed. -/
structure Function.NamesIn (function : Function τ) : Prop where
  name : allowed function.name.name
  params : function.params.NamesIn allowed
  locals : function.locals.NamesIn allowed
  body : Stmt.AllNamesIn allowed function.body

/-- All names in a program are allowed. -/
structure Program.NamesIn (program : Program τ) : Prop where
  globals : program.globals.NamesIn allowed
  functions : ∀ function ∈ program.functions.toList, function.NamesIn allowed

end Syntax

/-- Errors that repeat a text, which is a name or what an earlier stage says, or none. -/
class Mentioning (ε : Type) where
  mention? : ε → Option String

section Outcomes

variable {ε α β : Type} [Mentioning ε] {allowed : String → Prop} {given : α → Prop}
  {final : β → Prop}

/-- What is given has a property, or the error repeats only allowed texts. -/
def KeepsNames (allowed : String → Prop) (given : α → Prop) : Except (Spanned ε) α → Prop
  | .ok value => given value
  | .error error => ∀ text ∈ Mentioning.mention? error.content, allowed text

/-- An error that repeats an allowed text repeats no other. -/
theorem mentions_of_eq_some {error : ε} {name : String}
    (mentioned : Mentioning.mention? error = some name) (isAllowed : allowed name) :
    ∀ text ∈ Mentioning.mention? error, allowed text := by
  intro text repeated
  obtain rfl := Option.some.inj (mentioned.symm.trans repeated)
  exact isAllowed

theorem keepsNames_error {error : Spanned ε} (nothing : Mentioning.mention? error.content = none) :
    KeepsNames allowed given (.error error) := by
  intro text mentioned
  rw [nothing] at mentioned
  cases mentioned

theorem KeepsNames.bind {first : Except (Spanned ε) α} {next : α → Except (Spanned ε) β}
    (names : KeepsNames allowed given first)
    (following : ∀ value, given value → KeepsNames allowed final (next value)) :
    KeepsNames allowed final (first >>= next) := by
  cases first with
  | error error => exact names
  | ok value => exact following value names

theorem KeepsNames.bind_outcome {ω : Type} {first : Recorded ω (Spanned ε) α}
    {next : α → Recorded ω (Spanned ε) β} (names : KeepsNames allowed given first.outcome)
    (following : ∀ value, given value → KeepsNames allowed final (next value).outcome) :
    KeepsNames allowed final (first >>= next).outcome := by
  obtain ⟨events, outcome⟩ := first
  cases outcome with
  | error error => exact names
  | ok value => exact following value names

theorem KeepsNames.ofExcept_bind {ω : Type} {first : Except (Spanned ε) α}
    {next : α → Recorded ω (Spanned ε) β} (names : KeepsNames allowed given first)
    (following : ∀ value, given value → KeepsNames allowed final (next value).outcome) :
    KeepsNames allowed final (.ofExcept first >>= next).outcome :=
  KeepsNames.bind_outcome names following

theorem keepsNames_record {ω : Type} (event : ω) :
    KeepsNames allowed (fun _ => True)
      (Recorded.record event : Recorded ω (Spanned ε) Unit).outcome :=
  trivial

end Outcomes

end TypedImp
