import TypedImp.Evaluation.Machine

/-!
# Evaluations

An evaluation works on the machine and ends with a result, with a failure, or without an
outcome because its fuel did not last.  What it did to the machine stands in every case.
-/

namespace TypedImp

/-- How an evaluation ends, if the fuel lasts. -/
inductive Outcome (α : Type) where
  | done (result : α)
  | failed (error : Spanned RunError)
  | outOfFuel
  deriving DecidableEq

/-- How a statement finishes. -/
inductive Completion where
  | normal
  | returned (value : Value)
  deriving DecidableEq

namespace Completion

/-- The value that was given back. -/
def value? : Completion → Option Value
  | normal => none
  | returned value => some value

end Completion

/-- An evaluation: what it gives and what it does to the machine. -/
def Evaluation (α : Type) :=
  Machine → Outcome α × Machine

namespace Evaluation

variable {α β : Type}

/-- Give a result. -/
@[always_inline, inline]
def value (result : α) : Evaluation α :=
  fun machine => (.done result, machine)

/-- Go on with the result of an evaluation. -/
@[always_inline, inline]
def andThen (first : Evaluation α) (next : α → Evaluation β) : Evaluation β :=
  fun machine =>
    match first machine with
    | (.done result, machine) => next result machine
    | (.failed error, machine) => (.failed error, machine)
    | (.outOfFuel, machine) => (.outOfFuel, machine)

@[always_inline]
instance : Monad Evaluation where
  pure := value
  bind := andThen

/-- Fail at a place of the source. -/
@[always_inline, inline]
def fail (span : Span) (error : RunError) : Evaluation α :=
  fun machine => (.failed ⟨span, error⟩, machine)

/-- Have no outcome. -/
@[always_inline, inline]
def stuck : Evaluation α :=
  fun machine => (.outOfFuel, machine)

/-- Take over an outcome that does not depend on the machine. -/
@[always_inline, inline]
def ofExcept (span : Span) (outcome : Except RunError α) : Evaluation α :=
  match outcome with
  | .ok result => value result
  | .error error => fail span error

/-- Read the value of a variable. -/
def read (name : Ident) (span : Span) : Evaluation Value :=
  fun machine =>
    match machine.lookup name.name with
    | some value => (.done value, machine)
    | none => (.failed ⟨span, .unboundVariable name.name⟩, machine)

/-- Store a value in a variable. -/
def store (target : Ident) (stored : Value) : Evaluation Unit :=
  fun machine =>
    match machine.assign? target.name stored with
    | some machine => (.done (), machine)
    | none => (.failed ⟨target.span, .unboundVariable target.name⟩, machine)

/-- Begin a call, unless there are too many. -/
def enter {τ : Type} (function : Function τ) (values : List Value) (span : Span) :
    Evaluation Unit :=
  fun machine =>
    if machine.depth < Machine.maxDepth then
      (.done (), machine.push function values)
    else
      (.failed ⟨span, .stackOverflow Machine.maxDepth⟩, machine)

/-- End a call whether it fails or not. -/
@[always_inline, inline]
def leaving (body : Evaluation α) : Evaluation α :=
  fun machine =>
    match body machine with
    | (.done result, machine) => (.done result, machine.pop)
    | (.failed error, machine) => (.failed error, machine.pop)
    | (.outOfFuel, machine) => (.outOfFuel, machine)

/-- Execute the body of a function in a frame of its own.  A function that finishes
normally gives no value. -/
@[always_inline, inline]
def inFrame {τ : Type} (function : Function τ) (values : List Value) (span : Span)
    (body : Evaluation Completion) : Evaluation (Option Value) := do
  enter function values span
  let completion ← leaving body
  pure completion.value?

/-! ### What sequences give -/

@[simp]
theorem pure_apply (result : α) (machine : Machine) :
    (pure result : Evaluation α) machine = (.done result, machine) :=
  rfl

theorem bind_apply (first : Evaluation α) (next : α → Evaluation β) (machine : Machine) :
    (first >>= next) machine =
      match first machine with
      | (.done result, machine) => next result machine
      | (.failed error, machine) => (.failed error, machine)
      | (.outOfFuel, machine) => (.outOfFuel, machine) :=
  rfl

/-- An evaluation in two parts gives a result exactly if both parts do. -/
theorem bind_eq_done_iff {first : Evaluation α} {next : α → Evaluation β} {result : β}
    {start final : Machine} :
    (first >>= next) start = (.done result, final) ↔
      ∃ middle machine,
        first start = (.done middle, machine) ∧ next middle machine = (.done result, final) := by
  rw [bind_apply]
  obtain ⟨outcome, machine⟩ := first start
  cases outcome with
  | done middle =>
    refine ⟨fun continued => ⟨middle, machine, rfl, continued⟩, ?_⟩
    rintro ⟨_, _, ⟨⟩, continued⟩
    exact continued
  | failed error => simp
  | outOfFuel => simp

instance : LawfulMonad Evaluation :=
  LawfulMonad.mk' Evaluation
    (fun evaluation => by
      funext start
      change (evaluation >>= pure) start = evaluation start
      rw [bind_apply]
      obtain ⟨outcome, machine⟩ := evaluation start
      cases outcome <;> rfl)
    (fun result next => rfl)
    (fun first next last => by
      funext start
      rw [bind_apply, bind_apply, bind_apply]
      obtain ⟨outcome, machine⟩ := first start
      cases outcome <;> rfl)

end Evaluation

end TypedImp
