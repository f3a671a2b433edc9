import TypedImp.Evaluation.Run
import TypedImp.Proofs.Evaluation.Keeps

/-!
# Relations across evaluations

How the machine behind an evaluation is related to the machine before it.  Expressions and
calls only read the variables of their frame, and statements also write them, so there are
two relations.  If an assignment and every call keep to them, so does every evaluation that
ends, with a result or with a failure.
-/

namespace TypedImp

namespace Evaluation

variable {α β : Type} {relation : Machine → Machine → Prop}

/-- Wherever an evaluation ends, the machine behind it is related to the one before it. -/
def Across (relation : Machine → Machine → Prop) (evaluation : Evaluation α) : Prop :=
  ∀ machine, (evaluation machine).1 ≠ .outOfFuel → relation machine (evaluation machine).2

theorem across_stuck : Across relation (stuck : Evaluation α) :=
  fun _ lasts => absurd rfl lasts

theorem across_pure (refl : ∀ machine, relation machine machine) (value : α) :
    Across relation (pure value) :=
  fun machine _ => refl machine

theorem across_fail (refl : ∀ machine, relation machine machine) (span : Span)
    (error : RunError) : Across relation (fail span error : Evaluation α) :=
  fun machine _ => refl machine

theorem across_ofExcept (refl : ∀ machine, relation machine machine) (span : Span)
    (outcome : Except RunError α) : Across relation (ofExcept span outcome) := by
  cases outcome with
  | ok value => exact across_pure refl value
  | error error => exact across_fail refl span error

theorem across_read (refl : ∀ machine, relation machine machine) (name : Ident) (span : Span) :
    Across relation (read name span) := by
  intro machine _
  rw [read_apply]
  cases machine.lookup name.name with
  | some value => exact refl machine
  | none => exact refl machine

theorem Across.bind
    (trans : ∀ first second third, relation first second → relation second third →
      relation first third)
    {first : Evaluation α} {next : α → Evaluation β} (firstAcross : Across relation first)
    (nextAcross : ∀ value, Across relation (next value)) : Across relation (first >>= next) := by
  intro machine lasts
  have before := firstAcross machine
  rw [bind_apply] at lasts ⊢
  generalize first machine = ended at before lasts ⊢
  obtain ⟨outcome, middle⟩ := ended
  cases outcome with
  | done value => exact trans _ _ _ (before nofun) (nextAcross value middle lasts)
  | failed error => exact before nofun
  | outOfFuel => exact absurd rfl lasts

theorem Across.mono {evaluation : Evaluation α} {weaker : Machine → Machine → Prop}
    (across : Across relation evaluation)
    (implies : ∀ first second, relation first second → weaker first second) :
    Across weaker evaluation :=
  fun machine lasts => implies _ _ (across machine lasts)

end Evaluation

open Evaluation

/-- What calls and assignments of a program keep to: `reading` relates the machines before
and behind expressions and calls, and `writing` those before and behind statements.  Of a
call it is enough to look at bodies that end. -/
structure Crossing (functions : Definitions (Function Ty))
    (reading writing : Machine → Machine → Prop) : Prop where
  refl : ∀ machine, reading machine machine
  reading_trans : ∀ first second third, reading first second → reading second third →
    reading first third
  writing_trans : ∀ first second third, writing first second → writing second third →
    writing first third
  writing_of_reading : ∀ first second, reading first second → writing first second
  assign : ∀ {machine assigned : Machine} {name : String} {value : Value},
    machine.assign? name value = some assigned → writing machine assigned
  call : ∀ {name : String} {function : Function Ty} {fuel : Nat} {values : List Value}
    {machine final : Machine} {outcome : Outcome Completion},
    functions.get? name = some function →
    Stmt.execAll functions fuel function.body (machine.push function values) =
      (outcome, final) →
    outcome ≠ .outOfFuel → writing (machine.push function values) final →
    reading machine final.pop

/-- The evaluations of some fuel keep to their relations. -/
structure Crosses (functions : Definitions (Function Ty))
    (reading writing : Machine → Machine → Prop) (fuel : Nat) : Prop where
  eval : ∀ expr, Across reading (Expr.eval functions fuel expr)
  evalAll : ∀ exprs, Across reading (Expr.evalAll functions fuel exprs)
  call : ∀ callee arguments span,
    Across reading (callFunction functions fuel callee arguments span)
  test : ∀ test, Across reading (Expr.evalTest functions fuel test)
  exec : ∀ stmt, Across writing (Stmt.exec functions fuel stmt)
  execAll : ∀ body, Across writing (Stmt.execAll functions fuel body)

section Induction

variable {functions : Definitions (Function Ty)} {reading writing : Machine → Machine → Prop}
  {fuel : Nat}

theorem crosses_zero : Crosses functions reading writing 0 := by
  constructor
  all_goals
    intros
    simp only [Expr.eval, Expr.evalAll, callFunction, Expr.evalTest, Stmt.exec, Stmt.execAll]
    exact across_stuck

theorem Crosses.eval_succ (ih : Crosses functions reading writing fuel)
    (crossing : Crossing functions reading writing) (expr : Expr Ty) :
    Across reading (Expr.eval functions (fuel + 1) expr) := by
  cases expr with
  | literal value span =>
    rw [Expr.eval]
    exact across_pure crossing.refl value
  | var name span =>
    rw [Expr.eval]
    exact across_read crossing.refl name span
  | binary op tag lhs rhs span =>
    rw [Expr.eval]
    apply Across.bind crossing.reading_trans (ih.eval lhs)
    intro left
    apply Across.bind crossing.reading_trans (ih.eval rhs)
    intro right
    exact across_ofExcept crossing.refl span _
  | unary op tag operand span =>
    rw [Expr.eval]
    apply Across.bind crossing.reading_trans (ih.eval operand)
    intro inner
    exact across_ofExcept crossing.refl span _
  | call callee arguments callSpan span =>
    rw [Expr.eval]
    apply Across.bind crossing.reading_trans (ih.call callee arguments callSpan)
    intro result?
    cases result? with
    | some result => exact across_pure crossing.refl result
    | none => exact across_fail crossing.refl span _

theorem Crosses.evalAll_succ (ih : Crosses functions reading writing fuel)
    (crossing : Crossing functions reading writing) (exprs : List (Expr Ty)) :
    Across reading (Expr.evalAll functions (fuel + 1) exprs) := by
  cases exprs with
  | nil =>
    rw [Expr.evalAll]
    exact across_pure crossing.refl []
  | cons first rest =>
    rw [Expr.evalAll]
    apply Across.bind crossing.reading_trans (ih.eval first)
    intro value
    apply Across.bind crossing.reading_trans (ih.evalAll rest)
    intro values
    exact across_pure crossing.refl (value :: values)

theorem Crosses.inFrame (ih : Crosses functions reading writing fuel)
    (crossing : Crossing functions reading writing) {name : String} {function : Function Ty}
    (found : functions.get? name = some function) (values : List Value) (span : Span) :
    Across reading
      (Evaluation.inFrame function values span (Stmt.execAll functions fuel function.body)) := by
  intro machine lasts
  rw [inFrame_apply] at lasts ⊢
  by_cases room : machine.depth < Machine.maxDepth
  · rw [if_pos room] at lasts ⊢
    have bodyAcross := ih.execAll function.body (machine.push function values)
    cases ended : Stmt.execAll functions fuel function.body (machine.push function values) with
    | mk outcome final =>
      rw [ended] at lasts bodyAcross
      -- A body that fails is left by the same pop as one that gives a result.
      cases outcome with
      | done completion => exact crossing.call found ended nofun (bodyAcross nofun)
      | failed error => exact crossing.call found ended nofun (bodyAcross nofun)
      | outOfFuel => exact absurd rfl lasts
  · rw [if_neg room]
    exact crossing.refl machine

theorem Crosses.call_succ (ih : Crosses functions reading writing fuel)
    (crossing : Crossing functions reading writing) (callee : Ident) (arguments : List (Expr Ty))
    (span : Span) : Across reading (callFunction functions (fuel + 1) callee arguments span) := by
  rw [callFunction]
  cases found : functions.get? callee.name with
  | none => exact across_fail crossing.refl callee.span _
  | some function =>
    apply Across.bind crossing.reading_trans (ih.evalAll arguments)
    intro values
    exact ih.inFrame crossing found values span

theorem Crosses.test_succ (ih : Crosses functions reading writing fuel)
    (crossing : Crossing functions reading writing) (test : Expr Ty) :
    Across reading (Expr.evalTest functions (fuel + 1) test) := by
  rw [Expr.evalTest]
  apply Across.bind crossing.reading_trans (ih.eval test)
  intro value
  exact across_ofExcept crossing.refl test.span _

theorem Crossing.across_store (crossing : Crossing functions reading writing) (target : Ident)
    (stored : Value) : Across writing (store target stored) := by
  intro machine _
  rw [store_apply]
  cases assigned : machine.assign? target.name stored with
  | some after => exact crossing.assign assigned
  | none => exact crossing.writing_of_reading machine machine (crossing.refl machine)

theorem Crosses.exec_succ (ih : Crosses functions reading writing fuel)
    (crossing : Crossing functions reading writing) (stmt : Stmt Ty) :
    Across writing (Stmt.exec functions (fuel + 1) stmt) := by
  have refl : ∀ machine, writing machine machine := fun machine =>
    crossing.writing_of_reading machine machine (crossing.refl machine)
  cases stmt with
  | skip =>
    rw [Stmt.exec]
    exact across_pure refl Completion.normal
  | block body =>
    rw [Stmt.exec]
    exact ih.execAll body
  | assign target value =>
    rw [Stmt.exec]
    apply Across.bind crossing.writing_trans ((ih.eval value).mono crossing.writing_of_reading)
    intro stored
    apply Across.bind crossing.writing_trans (crossing.across_store target stored)
    intro _
    exact across_pure refl Completion.normal
  | conditional test thenBranch elseBranch =>
    rw [Stmt.exec]
    apply Across.bind crossing.writing_trans ((ih.test test).mono crossing.writing_of_reading)
    intro truth
    cases truth with
    | true => exact ih.exec thenBranch
    | false => exact ih.exec elseBranch
  | loop test body =>
    rw [Stmt.exec]
    apply Across.bind crossing.writing_trans ((ih.test test).mono crossing.writing_of_reading)
    intro truth
    cases truth with
    | true =>
      apply Across.bind crossing.writing_trans (ih.exec body)
      intro completion
      cases completion with
      | normal => exact ih.exec (.loop test body)
      | returned value => exact across_pure refl (Completion.returned value)
    | false => exact across_pure refl Completion.normal
  | call callee arguments span =>
    rw [Stmt.exec]
    apply Across.bind crossing.writing_trans
      ((ih.call callee arguments span).mono crossing.writing_of_reading)
    intro _
    exact across_pure refl Completion.normal
  | giveBack value span =>
    rw [Stmt.exec]
    apply Across.bind crossing.writing_trans ((ih.eval value).mono crossing.writing_of_reading)
    intro result
    exact across_pure refl (Completion.returned result)

theorem Crosses.execAll_succ (ih : Crosses functions reading writing fuel)
    (crossing : Crossing functions reading writing) (body : List (Stmt Ty)) :
    Across writing (Stmt.execAll functions (fuel + 1) body) := by
  have refl : ∀ machine, writing machine machine := fun machine =>
    crossing.writing_of_reading machine machine (crossing.refl machine)
  cases body with
  | nil =>
    rw [Stmt.execAll]
    exact across_pure refl Completion.normal
  | cons first rest =>
    rw [Stmt.execAll]
    apply Across.bind crossing.writing_trans (ih.exec first)
    intro completion
    cases completion with
    | normal => exact ih.execAll rest
    | returned value => exact across_pure refl (Completion.returned value)

theorem Crosses.mono {reading' writing' : Machine → Machine → Prop}
    (crosses : Crosses functions reading writing fuel)
    (ofReading : ∀ first second, reading first second → reading' first second)
    (ofWriting : ∀ first second, writing first second → writing' first second) :
    Crosses functions reading' writing' fuel where
  eval expr := (crosses.eval expr).mono ofReading
  evalAll exprs := (crosses.evalAll exprs).mono ofReading
  call callee arguments span := (crosses.call callee arguments span).mono ofReading
  test test := (crosses.test test).mono ofReading
  exec stmt := (crosses.exec stmt).mono ofWriting
  execAll body := (crosses.execAll body).mono ofWriting

/-- Whatever the fuel, evaluations keep to the relations of their program. -/
theorem Crossing.crosses (crossing : Crossing functions reading writing) (fuel : Nat) :
    Crosses functions reading writing fuel := by
  induction fuel with
  | zero => exact crosses_zero
  | succ fuel ih =>
    exact ⟨ih.eval_succ crossing, ih.evalAll_succ crossing, ih.call_succ crossing,
      ih.test_succ crossing, ih.exec_succ crossing, ih.execAll_succ crossing⟩

end Induction

end TypedImp
