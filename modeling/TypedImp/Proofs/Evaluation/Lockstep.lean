import Mathlib.Data.List.Forall2
import TypedImp.Evaluation.Run
import TypedImp.Proofs.Evaluation.Keeps

/-!
# Runs in lockstep

Two runs of the same syntax, on different machines, with different fuel or with different
functions, do the same as long as what they read agrees.  A comparison says which values
and machines agree and which ends of one run excuse the other one.  The level of an
agreement of machines counts the frames that were entered since the runs were compared.
-/

namespace TypedImp

/-- How an evaluation ended, without its result. -/
def Outcome.ending {α : Type} : Outcome α → Outcome Unit
  | .done _ => .done ()
  | .failed error => .failed error
  | .outOfFuel => .outOfFuel

/-- Completions of one form, with related values. -/
inductive Completion.Rel (values : Value → Value → Prop) : Completion → Completion → Prop where
  | normal : Rel values .normal .normal
  | returned {first second : Value} (related : values first second) :
      Rel values (.returned first) (.returned second)

theorem Completion.Rel.eq {first second : Completion} (related : Completion.Rel Eq first second) :
    first = second := by
  cases related with
  | normal => rfl
  | returned same => rw [same]

/-- Functions with the same name that begin with the same frame. -/
structure Function.SameFrame (first second : Function Ty) : Prop where
  name : first.name.name = second.name.name
  frame : ∀ values, first.frame values = second.frame values

theorem BinaryOperator.apply_undefined_left (op : BinaryOperator) {tag : Ty}
    (notVoid : tag ≠ .void) (ty : Ty) (right : Value) :
    op.apply tag (.undefined ty) right = .error (.value (.undefined ty)) := by
  cases tag with
  | void => exact absurd rfl notVoid
  | int | bool | char | float => rfl

/-- An undefined right operand is read, or the operation fails whatever it is. -/
theorem BinaryOperator.apply_undefined_right (op : BinaryOperator) (tag : Ty) (left : Value)
    (ty : Ty) :
    op.apply tag left (.undefined ty) = .error (.value (.undefined ty)) ∨
      ∀ right, op.apply tag left right = op.apply tag left (.undefined ty) := by
  cases tag <;> cases left <;> first | exact .inl rfl | exact .inr fun _ => rfl

theorem UnaryOperator.apply_undefined (op : UnaryOperator) (tag ty : Ty) :
    op.apply tag (.undefined ty) = .error (.value (.undefined ty)) ∨
      ∀ operand, op.apply tag operand = op.apply tag (.undefined ty) := by
  cases op <;> cases tag <;> first | exact .inl rfl | exact .inr fun _ => rfl

/-- A way to compare a first run with a second one.  What `excused` relates need not agree,
and a run that goes on cannot make it agree any more. -/
structure Comparison where
  values : Value → Value → Prop
  machines : (level : Nat) → Machine → Machine → Prop
  excused : Outcome Unit → Outcome Unit → Prop
  fuels : Nat → Nat → Prop
  not_excused_done : ¬ excused (.done ()) (.done ())
  excused_first {ending : Outcome Unit} :
    excused ending (.done ()) → ∀ other, excused ending other
  excused_second {ending : Outcome Unit} :
    excused (.done ()) ending → ∀ other, excused other ending
  fuels_pred {fuel fuel' : Nat} : fuels (fuel + 1) (fuel' + 1) → fuels fuel fuel'
  fuels_zero_succ {fuel' : Nat} : fuels 0 (fuel' + 1) → ∀ other, excused .outOfFuel other
  fuels_succ_zero {fuel : Nat} : fuels (fuel + 1) 0 → ∀ other, excused other .outOfFuel
  values_refl (value : Value) : values value value
  eq_or_undefined {first second : Value} : values first second → first = second ∨
    ∃ ty, first = .undefined ty ∧
      ∀ span other, excused (.failed ⟨span, .value (.undefined ty)⟩) other
  lookup {level : Nat} {first second : Machine} : machines level first second →
    ∀ name, Option.Rel values (first.lookup name) (second.lookup name)
  assign {level : Nat} {first second : Machine} {stored stored' : Value} :
    machines level first second → values stored stored' → ∀ name,
      Option.Rel (machines level) (first.assign? name stored) (second.assign? name stored')
  push {level : Nat} {first second : Machine} {function function' : Function Ty}
    {passed passed' : List Value} : machines level first second →
      function.SameFrame function' → List.Forall₂ values passed passed' →
      machines (level + 1) (first.push function passed) (second.push function' passed')
  pop {level : Nat} {first second : Machine} :
    machines (level + 1) first second → machines level first.pop second.pop
  room {level : Nat} {first second : Machine} : machines level first second →
    (first.depth < Machine.maxDepth ↔ second.depth < Machine.maxDepth) ∨
      (¬ first.depth < Machine.maxDepth ∧
        ∀ span other, excused (.failed ⟨span, .stackOverflow Machine.maxDepth⟩) other) ∨
      (¬ second.depth < Machine.maxDepth ∧
        ∀ span other, excused other (.failed ⟨span, .stackOverflow Machine.maxDepth⟩))

namespace Comparison

variable (comparison : Comparison)

/-- Two evaluations end alike, or the end of one of them excuses the other one. -/
inductive Ends {α β : Type} (level : Nat) (related : α → β → Prop) :
    Outcome α × Machine → Outcome β × Machine → Prop where
  | done {result : α} {result' : β} {first second : Machine}
      (machines : comparison.machines level first second) (results : related result result') :
      Ends level related (.done result, first) (.done result', second)
  | failed {error : Spanned RunError} {first second : Machine}
      (machines : comparison.machines level first second) :
      Ends level related (.failed error, first) (.failed error, second)
  | outOfFuel {first second : Machine} :
      Ends level related (.outOfFuel, first) (.outOfFuel, second)
  | excused {outcome : Outcome α} {outcome' : Outcome β} {first second : Machine}
      (excuse : comparison.excused outcome.ending outcome'.ending) :
      Ends level related (outcome, first) (outcome', second)

/-- From machines that agree on, two evaluations end alike. -/
def Agrees {α β : Type} (level : Nat) (related : α → β → Prop) (first : Evaluation α)
    (second : Evaluation β) : Prop :=
  ∀ machine machine', comparison.machines level machine machine' →
    comparison.Ends level related (first machine) (second machine')

section Rules

variable {comparison} {α β γ δ : Type} {level : Nat} {related : α → β → Prop}

theorem agrees_pure {result : α} {result' : β} (results : related result result') :
    comparison.Agrees level related (pure result) (pure result') :=
  fun _ _ machines => .done machines results

theorem agrees_stuck : comparison.Agrees level related .stuck .stuck :=
  fun _ _ _ => .outOfFuel

theorem agrees_fail (span : Span) (error : RunError) :
    comparison.Agrees level related (.fail span error) (.fail span error) :=
  fun _ _ machines => .failed machines

theorem Agrees.bind {final : γ → δ → Prop} {first : Evaluation α} {second : Evaluation β}
    {next : α → Evaluation γ} {next' : β → Evaluation δ}
    (agrees : comparison.Agrees level related first second)
    (nextAgrees : ∀ result result', related result result' →
      comparison.Agrees level final (next result) (next' result')) :
    comparison.Agrees level final (first >>= next) (second >>= next') := by
  intro machine machine' machines
  have ends := agrees machine machine' machines
  rw [Evaluation.bind_apply, Evaluation.bind_apply]
  generalize first machine = firstEnd, second machine' = secondEnd at ends
  cases ends with
  | done machines results => exact nextAgrees _ _ results _ _ machines
  | failed machines => exact .failed machines
  | outOfFuel => exact .outOfFuel
  | @excused outcome outcome' final final' excuse =>
    -- A run that has ended keeps its end, and the other one may still go on.
    cases outcome with
    | done result =>
      cases outcome' with
      | done => exact absurd excuse comparison.not_excused_done
      | failed => exact .excused (comparison.excused_second excuse _)
      | outOfFuel => exact .excused (comparison.excused_second excuse _)
    | failed error =>
      cases outcome' with
      | done => exact .excused (comparison.excused_first excuse _)
      | failed => exact .excused excuse
      | outOfFuel => exact .excused excuse
    | outOfFuel =>
      cases outcome' with
      | done => exact .excused (comparison.excused_first excuse _)
      | failed => exact .excused excuse
      | outOfFuel => exact .excused excuse

theorem agrees_read (name : Ident) (span : Span) :
    comparison.Agrees level comparison.values (.read name span) (.read name span) := by
  intro machine machine' machines
  have found := comparison.lookup machines name.name
  rw [Evaluation.read_apply, Evaluation.read_apply]
  generalize machine.lookup name.name = value, machine'.lookup name.name = value' at found
  cases found with
  | some values => exact .done machines values
  | none => exact .failed machines

theorem agrees_store (target : Ident) {stored stored' : Value}
    (values : comparison.values stored stored') :
    comparison.Agrees level (fun _ _ => True) (.store target stored)
      (.store target stored') := by
  intro machine machine' machines
  have assigned := comparison.assign machines values target.name
  rw [Evaluation.store_apply, Evaluation.store_apply]
  generalize machine.assign? target.name stored = final,
    machine'.assign? target.name stored' = final' at assigned
  cases assigned with
  | some machines => exact .done machines trivial
  | none => exact .failed machines

/-- Equal outcomes agree, and so do those of which the first one is excused. -/
theorem agrees_ofExcept (span : Span) {outcome outcome' : Except RunError α}
    (same : outcome = outcome' ∨ ∃ ty, outcome = .error (.value (.undefined ty)) ∧
      ∀ span other, comparison.excused (.failed ⟨span, .value (.undefined ty)⟩) other)
    {related : α → α → Prop} (refl : ∀ result, related result result) :
    comparison.Agrees level related (.ofExcept span outcome) (.ofExcept span outcome') := by
  rcases same with rfl | ⟨ty, rfl, excused⟩
  · cases outcome with
    | ok result => exact agrees_pure (refl result)
    | error error => exact agrees_fail span error
  · intro machine machine' _
    exact .excused (excused span _)

theorem agrees_inFrame {function function' : Function Ty} {passed passed' : List Value}
    {body body' : Evaluation Completion} (span : Span)
    (bodies : ∀ machine machine', comparison.machines level machine machine' →
      comparison.Ends (level + 1) (Completion.Rel comparison.values)
        (body (machine.push function passed)) (body' (machine'.push function' passed'))) :
    comparison.Agrees level (Option.Rel comparison.values)
      (.inFrame function passed span body) (.inFrame function' passed' span body') := by
  intro machine machine' machines
  rw [Evaluation.inFrame_apply, Evaluation.inFrame_apply]
  rcases comparison.room machines with same | ⟨full, excused⟩ | ⟨full, excused⟩
  · by_cases room : machine.depth < Machine.maxDepth
    · rw [if_pos room, if_pos (same.mp room)]
      have ends := bodies machine machine' machines
      generalize body (machine.push function passed) = final,
        body' (machine'.push function' passed') = final' at ends
      cases ends with
      | done machines completions =>
        refine .done (comparison.pop machines) ?_
        cases completions with
        | normal => exact .none
        | returned related => exact .some related
      | failed machines => exact .failed (comparison.pop machines)
      | outOfFuel => exact .outOfFuel
      | @excused outcome outcome' _ _ excuse =>
        cases outcome <;> cases outcome' <;> exact .excused excuse
    · rw [if_neg room, if_neg (same.not.mp room)]
      exact .failed machines
  · rw [if_neg full]
    exact .excused (excused span _)
  · rw [if_neg full]
    exact .excused (excused span _)

theorem agrees_binary (op : BinaryOperator) (tag : Ty) (span : Span)
    {left left' right right' : Value} (lefts : comparison.values left left')
    (rights : comparison.values right right') :
    comparison.Agrees level comparison.values (.ofExcept span (op.apply tag left right))
      (.ofExcept span (op.apply tag left' right')) := by
  apply agrees_ofExcept span _ comparison.values_refl
  rcases comparison.eq_or_undefined lefts with rfl | ⟨ty, rfl, excused⟩
  · rcases comparison.eq_or_undefined rights with rfl | ⟨ty, rfl, excused⟩
    · exact .inl rfl
    · rcases op.apply_undefined_right tag left ty with failed | same
      · exact .inr ⟨ty, failed, excused⟩
      · exact .inl (same right').symm
  · by_cases isVoid : tag = .void
    · subst isVoid
      exact .inl rfl
    · exact .inr ⟨ty, op.apply_undefined_left isVoid ty right, excused⟩

theorem agrees_unary (op : UnaryOperator) (tag : Ty) (span : Span) {operand operand' : Value}
    (operands : comparison.values operand operand') :
    comparison.Agrees level comparison.values (.ofExcept span (op.apply tag operand))
      (.ofExcept span (op.apply tag operand')) := by
  apply agrees_ofExcept span _ comparison.values_refl
  rcases comparison.eq_or_undefined operands with rfl | ⟨ty, rfl, excused⟩
  · exact .inl rfl
  · rcases op.apply_undefined tag ty with failed | same
    · exact .inr ⟨ty, failed, excused⟩
    · exact .inl (same operand').symm

theorem agrees_truth (span : Span) {value value' : Value}
    (values : comparison.values value value') :
    comparison.Agrees level Eq (.ofExcept span (content Value.asBool value))
      (.ofExcept span (content Value.asBool value')) := by
  apply agrees_ofExcept span _ fun _ => rfl
  rcases comparison.eq_or_undefined values with rfl | ⟨ty, rfl, excused⟩
  · exact .inl rfl
  · exact .inr ⟨ty, rfl, excused⟩

end Rules

/-- Functions that begin with the same frame and then have the same body, or bodies that
are known to agree with the fuel that a call leaves them. -/
structure Callees (functions functions' : Definitions (Function Ty))
    (function function' : Function Ty) : Prop where
  sameFrame : function.SameFrame function'
  bodies : function.body = function'.body ∨
    ∀ fuel fuel', comparison.fuels (fuel + 1) (fuel' + 1) →
      ∀ level machine machine' passed passed',
      comparison.machines level machine machine' →
      List.Forall₂ comparison.values passed passed' →
      comparison.Ends (level + 1) (Completion.Rel comparison.values)
        (Stmt.execAll functions fuel function.body (machine.push function passed))
        (Stmt.execAll functions' fuel' function'.body (machine'.push function' passed'))

/-- Under each name both programs have functions that agree, or none. -/
def Calls (functions functions' : Definitions (Function Ty)) : Prop :=
  ∀ name, Option.Rel (comparison.Callees functions functions') (functions.get? name)
    (functions'.get? name)

theorem calls_self (functions : Definitions (Function Ty)) :
    comparison.Calls functions functions := by
  intro name
  cases functions.get? name with
  | none => exact .none
  | some function => exact .some ⟨⟨rfl, fun _ => rfl⟩, .inl rfl⟩

/-- With some fuel each, the evaluations of the same syntax agree. -/
structure Lockstep (functions functions' : Definitions (Function Ty)) (fuel fuel' : Nat) :
    Prop where
  eval (level : Nat) (expr : Expr Ty) : comparison.Agrees level comparison.values
    (Expr.eval functions fuel expr) (Expr.eval functions' fuel' expr)
  evalAll (level : Nat) (arguments : List (Expr Ty)) :
    comparison.Agrees level (List.Forall₂ comparison.values)
      (Expr.evalAll functions fuel arguments) (Expr.evalAll functions' fuel' arguments)
  call (level : Nat) (callee : Ident) (arguments : List (Expr Ty)) (span : Span) :
    comparison.Agrees level (Option.Rel comparison.values)
      (callFunction functions fuel callee arguments span)
      (callFunction functions' fuel' callee arguments span)
  test (level : Nat) (test : Expr Ty) : comparison.Agrees level Eq
    (Expr.evalTest functions fuel test) (Expr.evalTest functions' fuel' test)
  exec (level : Nat) (stmt : Stmt Ty) :
    comparison.Agrees level (Completion.Rel comparison.values)
      (Stmt.exec functions fuel stmt) (Stmt.exec functions' fuel' stmt)
  execAll (level : Nat) (body : List (Stmt Ty)) :
    comparison.Agrees level (Completion.Rel comparison.values)
      (Stmt.execAll functions fuel body) (Stmt.execAll functions' fuel' body)

section Induction

variable {comparison} {functions functions' : Definitions (Function Ty)} {fuel fuel' : Nat}

theorem lockstep_zero : comparison.Lockstep functions functions' 0 0 := by
  constructor
  all_goals
    intros
    simp only [Expr.eval, Expr.evalAll, callFunction, Expr.evalTest, Stmt.exec, Stmt.execAll]
    exact agrees_stuck

theorem lockstep_zero_succ (excused : ∀ other, comparison.excused .outOfFuel other) :
    comparison.Lockstep functions functions' 0 fuel' := by
  constructor
  all_goals
    intros
    simp only [Expr.eval, Expr.evalAll, callFunction, Expr.evalTest, Stmt.exec, Stmt.execAll]
    exact fun _ _ _ => .excused (excused _)

theorem lockstep_succ_zero (excused : ∀ other, comparison.excused other .outOfFuel) :
    comparison.Lockstep functions functions' fuel 0 := by
  constructor
  all_goals
    intros
    simp only [Expr.eval, Expr.evalAll, callFunction, Expr.evalTest, Stmt.exec, Stmt.execAll]
    exact fun _ _ _ => .excused (excused _)

theorem Lockstep.eval_succ (ih : comparison.Lockstep functions functions' fuel fuel')
    (level : Nat) (expr : Expr Ty) :
    comparison.Agrees level comparison.values (Expr.eval functions (fuel + 1) expr)
      (Expr.eval functions' (fuel' + 1) expr) := by
  cases expr with
  | literal value span =>
    simp only [Expr.eval]
    exact agrees_pure (comparison.values_refl value)
  | var name span =>
    simp only [Expr.eval]
    exact agrees_read name span
  | binary op tag lhs rhs span =>
    simp only [Expr.eval]
    apply (ih.eval level lhs).bind
    intro left left' lefts
    apply (ih.eval level rhs).bind
    intro right right' rights
    exact agrees_binary op tag span lefts rights
  | unary op tag operand span =>
    simp only [Expr.eval]
    apply (ih.eval level operand).bind
    intro value value' values
    exact agrees_unary op tag span values
  | call callee arguments callSpan span =>
    simp only [Expr.eval]
    apply (ih.call level callee arguments callSpan).bind
    intro result result' results
    cases results with
    | some values => exact agrees_pure values
    | none => exact agrees_fail span _

theorem Lockstep.evalAll_succ (ih : comparison.Lockstep functions functions' fuel fuel')
    (level : Nat) (arguments : List (Expr Ty)) :
    comparison.Agrees level (List.Forall₂ comparison.values)
      (Expr.evalAll functions (fuel + 1) arguments)
      (Expr.evalAll functions' (fuel' + 1) arguments) := by
  cases arguments with
  | nil =>
    simp only [Expr.evalAll]
    exact agrees_pure .nil
  | cons first rest =>
    simp only [Expr.evalAll]
    apply (ih.eval level first).bind
    intro value value' values
    apply (ih.evalAll level rest).bind
    intro others others' othersRelated
    exact agrees_pure (.cons values othersRelated)

theorem Lockstep.call_succ (ih : comparison.Lockstep functions functions' fuel fuel')
    (calls : comparison.Calls functions functions')
    (fuels : comparison.fuels (fuel + 1) (fuel' + 1)) (level : Nat) (callee : Ident)
    (arguments : List (Expr Ty)) (span : Span) :
    comparison.Agrees level (Option.Rel comparison.values)
      (callFunction functions (fuel + 1) callee arguments span)
      (callFunction functions' (fuel' + 1) callee arguments span) := by
  simp only [callFunction]
  have found := calls callee.name
  generalize functions.get? callee.name = function?, functions'.get? callee.name = function'?
    at found
  cases found with
  | none => exact agrees_fail callee.span _
  | @some function function' callees =>
    apply (ih.evalAll level arguments).bind
    intro passed passed' values
    apply agrees_inFrame span
    intro machine machine' machines
    -- Bodies that differ are compared by assumption, not by this induction.
    rcases callees.bodies with sameBody | agree
    · rw [sameBody]
      exact ih.execAll (level + 1) function'.body _ _
        (comparison.push machines callees.sameFrame values)
    · exact agree fuel fuel' fuels level machine machine' passed passed' machines values

theorem Lockstep.test_succ (ih : comparison.Lockstep functions functions' fuel fuel')
    (level : Nat) (test : Expr Ty) :
    comparison.Agrees level Eq (Expr.evalTest functions (fuel + 1) test)
      (Expr.evalTest functions' (fuel' + 1) test) := by
  simp only [Expr.evalTest]
  apply (ih.eval level test).bind
  intro value value' values
  exact agrees_truth test.span values

theorem Lockstep.exec_succ (ih : comparison.Lockstep functions functions' fuel fuel')
    (level : Nat) (stmt : Stmt Ty) :
    comparison.Agrees level (Completion.Rel comparison.values)
      (Stmt.exec functions (fuel + 1) stmt) (Stmt.exec functions' (fuel' + 1) stmt) := by
  cases stmt with
  | skip =>
    simp only [Stmt.exec]
    exact agrees_pure .normal
  | block body =>
    simp only [Stmt.exec]
    exact ih.execAll level body
  | assign target value =>
    simp only [Stmt.exec]
    apply (ih.eval level value).bind
    intro stored stored' values
    apply (agrees_store target values).bind
    intro _ _ _
    exact agrees_pure .normal
  | conditional test thenBranch elseBranch =>
    simp only [Stmt.exec]
    apply (ih.test level test).bind
    rintro truth _ rfl
    cases truth with
    | true => exact ih.exec level thenBranch
    | false => exact ih.exec level elseBranch
  | loop test body =>
    simp only [Stmt.exec]
    apply (ih.test level test).bind
    rintro truth _ rfl
    cases truth with
    | true =>
      apply (ih.exec level body).bind
      intro completion completion' completions
      cases completions with
      | normal => exact ih.exec level (.loop test body)
      | returned values => exact agrees_pure (.returned values)
    | false => exact agrees_pure .normal
  | call callee arguments span =>
    simp only [Stmt.exec]
    apply (ih.call level callee arguments span).bind
    intro _ _ _
    exact agrees_pure .normal
  | giveBack value span =>
    simp only [Stmt.exec]
    apply (ih.eval level value).bind
    intro result result' values
    exact agrees_pure (.returned values)

theorem Lockstep.execAll_succ (ih : comparison.Lockstep functions functions' fuel fuel')
    (level : Nat) (body : List (Stmt Ty)) :
    comparison.Agrees level (Completion.Rel comparison.values)
      (Stmt.execAll functions (fuel + 1) body) (Stmt.execAll functions' (fuel' + 1) body) := by
  cases body with
  | nil =>
    simp only [Stmt.execAll]
    exact agrees_pure .normal
  | cons first rest =>
    simp only [Stmt.execAll]
    apply (ih.exec level first).bind
    intro completion completion' completions
    cases completions with
    | normal => exact ih.execAll level rest
    | returned values => exact agrees_pure (.returned values)

theorem lockstep_succ (calls : comparison.Calls functions functions')
    (fuels : comparison.fuels (fuel + 1) (fuel' + 1))
    (ih : comparison.Lockstep functions functions' fuel fuel') :
    comparison.Lockstep functions functions' (fuel + 1) (fuel' + 1) where
  eval := ih.eval_succ
  evalAll := ih.evalAll_succ
  call := ih.call_succ calls fuels
  test := ih.test_succ
  exec := ih.exec_succ
  execAll := ih.execAll_succ

/-- If the functions agree, so do all evaluations of the same syntax. -/
theorem lockstep (calls : comparison.Calls functions functions')
    (fuels : comparison.fuels fuel fuel') :
    comparison.Lockstep functions functions' fuel fuel' := by
  induction fuel generalizing fuel' with
  | zero =>
    cases fuel' with
    | zero => exact lockstep_zero
    | succ fuel' => exact lockstep_zero_succ (comparison.fuels_zero_succ fuels)
  | succ fuel ih =>
    cases fuel' with
    | zero => exact lockstep_succ_zero (comparison.fuels_succ_zero fuels)
    | succ fuel' =>
      exact lockstep_succ calls fuels (ih (comparison.fuels_pred fuels))

end Induction

end Comparison

end TypedImp
