import Mathlib.Logic.Function.Iterate
import TypedImp.Proofs.Compilation
import TypedImp.Proofs.Evaluation.CallLog
import TypedImp.Proofs.Evaluation.Frames

/-!
# Evaluations that halt at a failure

A failure takes off the frame of every call that it leaves.  The evaluation that halts is the
same one, except that a failure leaves these frames where they are: its machine is the one on
which the failure was raised.  `unwinds` compares the two along the whole evaluation, and
`wellBracketed_run` draws from it what the log of a run is, with the failure and without.
-/

namespace TypedImp

namespace Evaluation

/-- End a call. -/
def leave : Evaluation Unit :=
  fun machine => (.done (), machine.pop)

/-- Execute the body of a function in a frame of its own, which stays open if the body
fails. -/
def inOpenFrame {τ : Type} (function : Function τ) (values : List Value) (span : Span)
    (body : Evaluation Completion) : Evaluation (Option Value) := do
  enter function values span
  let completion ← body
  leave
  pure completion.value?

theorem inOpenFrame_apply {τ : Type} (function : Function τ) (values : List Value) (span : Span)
    (body : Evaluation Completion) (machine : Machine) :
    inOpenFrame function values span body machine =
      if machine.depth < Machine.maxDepth then
        match body (machine.push function values) with
        | (.done completion, final) => (.done completion.value?, final.pop)
        | (.failed error, final) => (.failed error, final)
        | (.outOfFuel, final) => (.outOfFuel, final)
      else (.failed ⟨span, .stackOverflow Machine.maxDepth⟩, machine) := by
  by_cases room : machine.depth < Machine.maxDepth
  · rw [if_pos room, inOpenFrame, bind_apply]
    simp only [enter, if_pos room, bind_apply]
    cases body (machine.push function values) with
    | mk outcome final => cases outcome <;> rfl
  · rw [if_neg room, inOpenFrame, bind_apply]
    simp only [enter, if_neg room]

end Evaluation

namespace Halting

section Evaluator

variable (functions : Definitions (Function Ty))

mutual

/-- Evaluate an expression. -/
def eval : (fuel : Nat) → Expr Ty → Evaluation Value
  | 0, _ => .stuck
  | _ + 1, .literal value _ => pure value
  | _ + 1, .var name span => .read name span
  | fuel + 1, .binary op tag lhs rhs span => do
    let left ← eval fuel lhs
    let right ← eval fuel rhs
    .ofExcept span (op.apply tag left right)
  | fuel + 1, .unary op tag operand span => do
    let inner ← eval fuel operand
    .ofExcept span (op.apply tag inner)
  | fuel + 1, .call callee arguments callSpan span => do
    let result? ← call fuel callee arguments callSpan
    match result? with
    | some result => pure result
    | none => .fail span (.missingReturnValue callee.name)

/-- Evaluate expressions from left to right. -/
def evalAll : (fuel : Nat) → List (Expr Ty) → Evaluation (List Value)
  | 0, _ => .stuck
  | _ + 1, [] => pure []
  | fuel + 1, first :: rest => do
    let value ← eval fuel first
    let values ← evalAll fuel rest
    pure (value :: values)

/-- Call a function.  If its body fails, its frame stays. -/
def call : (fuel : Nat) → (callee : Ident) → (arguments : List (Expr Ty)) → (span : Span) →
    Evaluation (Option Value)
  | 0, _, _, _ => .stuck
  | fuel + 1, callee, arguments, span =>
    match functions.get? callee.name with
    | none => .fail callee.span (.undefinedFunction callee.name)
    | some function => do
      let values ← evalAll fuel arguments
      Evaluation.inOpenFrame function values span (execAll fuel function.body)

/-- Evaluate a test, which has to give a truth value. -/
def evalTest : (fuel : Nat) → Expr Ty → Evaluation Bool
  | 0, _ => .stuck
  | fuel + 1, test => do
    let value ← eval fuel test
    .ofExcept test.span (content Value.asBool value)

/-- Execute a statement. -/
def exec : (fuel : Nat) → Stmt Ty → Evaluation Completion
  | 0, _ => .stuck
  | _ + 1, .skip => pure .normal
  | fuel + 1, .block body => execAll fuel body
  | fuel + 1, .assign target value => do
    let stored ← eval fuel value
    Evaluation.store target stored
    pure .normal
  | fuel + 1, .conditional test thenBranch elseBranch => do
    let truth ← evalTest fuel test
    if truth then exec fuel thenBranch else exec fuel elseBranch
  | fuel + 1, .loop test body => do
    let truth ← evalTest fuel test
    if truth then
      let completion ← exec fuel body
      match completion with
      | .returned value => pure (.returned value)
      | .normal => exec fuel (.loop test body)
    else
      pure .normal
  | fuel + 1, .call callee arguments span => do
    let _ ← call fuel callee arguments span
    pure .normal
  | fuel + 1, .giveBack value _ => do
    let result ← eval fuel value
    pure (.returned result)

/-- Execute statements until one gives back a value. -/
def execAll : (fuel : Nat) → List (Stmt Ty) → Evaluation Completion
  | 0, _ => .stuck
  | _ + 1, [] => pure .normal
  | fuel + 1, first :: rest => do
    let completion ← exec fuel first
    match completion with
    | .returned value => pure (.returned value)
    | .normal => execAll fuel rest

end

end Evaluator

end Halting

namespace Machine

/-- End calls until no more than a number of frames are open. -/
def popTo (machine : Machine) (depth : Nat) : Machine :=
  Machine.pop^[machine.depth - depth] machine

@[simp]
theorem depth_push {τ : Type} (machine : Machine) (function : Function τ)
    (values : List Value) : (machine.push function values).depth = machine.depth + 1 :=
  rfl

@[simp]
theorem depth_pop (machine : Machine) : machine.pop.depth = machine.depth - 1 :=
  List.length_tail

@[simp]
theorem popTo_depth (machine : Machine) : machine.popTo machine.depth = machine := by
  rw [popTo, Nat.sub_self]
  rfl

/-- The last of the calls can be ended apart. -/
theorem pop_popTo_succ {machine : Machine} {depth : Nat} (opened : depth < machine.depth) :
    (machine.popTo (depth + 1)).pop = machine.popTo depth := by
  have calls : machine.depth - depth = machine.depth - (depth + 1) + 1 := by omega
  rw [popTo, popTo, calls, Function.iterate_succ_apply']

/-- The ends of all open calls stand behind what was logged before. -/
theorem log_popTo_zero (machine : Machine) :
    (machine.popTo 0).log.reverse = machine.log.reverse ++ ends machine.depth := by
  rw [popTo, Nat.sub_zero]
  induction calls : machine.depth generalizing machine with
  | zero => exact (List.append_nil _).symm
  | succ depth ih =>
    have popped : machine.pop.depth = depth := by
      rw [depth_pop, calls]
      rfl
    rw [Function.iterate_succ_apply, ih machine.pop popped, pop, calls]
    simp [ends]

/-- A machine whose log says how many frames are open, and that has not left its main
function. -/
def OpenLog (machine : Machine) : Prop :=
  LogOpen machine.log machine.depth

namespace OpenLog

variable {machine : Machine}

theorem push {τ : Type} (isOpen : machine.OpenLog) (room : machine.depth < maxDepth)
    (function : Function τ) (values : List Value) : (machine.push function values).OpenLog :=
  .pushed isOpen room function.name.name

theorem pop (isOpen : machine.OpenLog) {depth : Nat} (calls : machine.depth = depth + 2) :
    machine.pop.OpenLog := by
  have popped : machine.pop.depth = depth + 1 := by
    rw [depth_pop, calls]
    rfl
  rw [OpenLog, calls] at isOpen
  rw [OpenLog, popped, Machine.pop, calls]
  exact .popped isOpen

/-- The log stays open until the end of the main function. -/
theorem popTo_succ (isOpen : machine.OpenLog) (depth : Nat) (le : depth + 1 ≤ machine.depth) :
    (machine.popTo (depth + 1)).depth = depth + 1 ∧ (machine.popTo (depth + 1)).OpenLog := by
  obtain ⟨inner, calls⟩ := Nat.exists_eq_add_of_le le
  induction inner generalizing depth with
  | zero =>
    rw [Nat.add_zero] at calls
    rw [← calls, machine.popTo_depth]
    exact ⟨rfl, isOpen⟩
  | succ inner ih =>
    obtain ⟨above, aboveOpen⟩ := ih (depth + 1) (by omega) (by omega)
    rw [← pop_popTo_succ (by omega : depth + 1 < machine.depth)]
    exact ⟨by rw [depth_pop, above, Nat.add_sub_cancel], aboveOpen.pop above⟩

theorem assign (isOpen : machine.OpenLog) {assigned : Machine} {name : String} {value : Value}
    (done : machine.assign? name value = some assigned) : assigned.OpenLog := by
  have stores := stores_assign? done
  rw [OpenLog, stores.log, stores.depth]
  exact isOpen

/-- The end of the main function closes the log. -/
theorem wellBracketed_pop (isOpen : machine.OpenLog) (atMain : machine.depth = 1) :
    WellBracketed machine.pop.log.reverse := by
  rw [OpenLog, atMain] at isOpen
  have closed : machine.pop.log = .popped 1 :: machine.log := by rw [Machine.pop, atMain]
  rw [closed]
  exact isOpen.wellBracketed

end OpenLog

end Machine

open Evaluation

/-- How an evaluation ends from a machine with a number of open frames, compared with the one
that halts.  A failure was raised with at least as many open frames, which are then taken off
up to that number; it is an overflow only if as many are open as there can be. -/
inductive EndsUnwound {α : Type} (depth : Nat) : Outcome α × Machine → Outcome α × Machine → Prop
    where
  | done {result : α} {final : Machine} (sameDepth : final.depth = depth)
      (isOpen : final.OpenLog) : EndsUnwound depth (.done result, final) (.done result, final)
  | failed {error : Spanned RunError} {raised : Machine} (deeper : depth ≤ raised.depth)
      (isOpen : raised.OpenLog)
      (overflow : ∀ limit, error.content = .stackOverflow limit →
        raised.depth = Machine.maxDepth) :
      EndsUnwound depth (.failed error, raised.popTo depth) (.failed error, raised)
  | outOfFuel {final halted : Machine} :
      EndsUnwound depth (.outOfFuel, final) (.outOfFuel, halted)

/-- An evaluation is that of another one which halts at its failure. -/
def Unwinds {α : Type} (evaluation halting : Evaluation α) : Prop :=
  ∀ machine : Machine, machine.OpenLog →
    EndsUnwound machine.depth (evaluation machine) (halting machine)

section Operators

/-- An outcome is not the overflow of the stack. -/
def NoOverflow {α : Type} (outcome : Except RunError α) : Prop :=
  ∀ limit, outcome ≠ .error (.stackOverflow limit)

theorem NoOverflow.bind {α β : Type} {first : Except RunError α} {next : α → Except RunError β}
    (firstFits : NoOverflow first) (nextFits : ∀ result, NoOverflow (next result)) :
    NoOverflow (first >>= next) := by
  cases first with
  | ok result => exact nextFits result
  | error error =>
    intro limit overflow
    cases overflow
    exact firstFits limit rfl

theorem noOverflow_content {α : Type} (read : Value → Except ValueError α) (value : Value) :
    NoOverflow (content read value) := by
  unfold content
  cases read value <;> exact nofun

theorem BinaryOperator.noOverflow_apply (op : BinaryOperator) (tag : Ty) (lhs rhs : Value) :
    NoOverflow (op.apply tag lhs rhs) := by
  have compares (tag : Ty) (order : Option Ordering) : NoOverflow (op.compareAs tag order) := by
    cases op <;> exact nofun
  cases tag with
  | int =>
    refine (noOverflow_content _ lhs).bind fun left => ?_
    refine (noOverflow_content _ rhs).bind fun right => ?_
    unfold applyInt
    split
    case h_4 => split <;> exact nofun
    case h_5 => exact compares _ _
    all_goals exact nofun
  | float =>
    refine (noOverflow_content _ lhs).bind fun left => ?_
    refine (noOverflow_content _ rhs).bind fun right => ?_
    unfold applyFloat
    split
    case h_5 => exact compares _ _
    all_goals exact nofun
  | char =>
    exact (noOverflow_content _ lhs).bind fun left => (noOverflow_content _ rhs).bind fun right =>
      compares _ _
  | bool =>
    refine (noOverflow_content _ lhs).bind fun left => ?_
    refine (noOverflow_content _ rhs).bind fun right => ?_
    cases op <;> exact nofun
  | void => exact nofun

theorem UnaryOperator.noOverflow_apply (op : UnaryOperator) (tag : Ty) (operand : Value) :
    NoOverflow (op.apply tag operand) := by
  unfold apply
  split
  case h_7 =>
    refine (noOverflow_content _ operand).bind fun code => ?_
    unfold charOfCode
    dsimp only
    split <;> exact nofun
  case h_8 => exact nofun
  all_goals exact (noOverflow_content _ operand).bind fun _ => nofun

end Operators

section Rules

variable {α β : Type}

theorem unwinds_pure (result : α) : Unwinds (pure result) (pure result) :=
  fun _ isOpen => .done rfl isOpen

theorem unwinds_stuck : Unwinds (stuck : Evaluation α) stuck :=
  fun _ _ => .outOfFuel

theorem endsUnwound_failed {machine : Machine} (isOpen : machine.OpenLog)
    {error : Spanned RunError}
    (overflow : ∀ limit, error.content = .stackOverflow limit →
      machine.depth = Machine.maxDepth) :
    EndsUnwound machine.depth ((.failed error, machine) : Outcome α × Machine)
      (.failed error, machine) := by
  have ended : EndsUnwound machine.depth
      ((.failed error, machine.popTo machine.depth) : Outcome α × Machine)
      (.failed error, machine) := .failed (Nat.le_refl _) isOpen overflow
  rwa [machine.popTo_depth] at ended

theorem unwinds_fail (span : Span) {error : RunError}
    (noOverflow : ∀ limit, error ≠ .stackOverflow limit) :
    Unwinds (fail span error : Evaluation α) (fail span error) :=
  fun _ isOpen => endsUnwound_failed isOpen fun limit overflow => absurd overflow (noOverflow limit)

theorem unwinds_ofExcept (span : Span) {outcome : Except RunError α}
    (noOverflow : NoOverflow outcome) :
    Unwinds (ofExcept span outcome) (ofExcept span outcome) := by
  cases outcome with
  | ok result => exact unwinds_pure result
  | error error =>
    exact unwinds_fail span fun limit overflow => noOverflow limit (congrArg _ overflow)

theorem unwinds_read (name : Ident) (span : Span) : Unwinds (read name span) (read name span) := by
  intro machine isOpen
  rw [read_apply]
  cases machine.lookup name.name with
  | some value => exact .done rfl isOpen
  | none => exact endsUnwound_failed isOpen nofun

theorem unwinds_store (target : Ident) (stored : Value) :
    Unwinds (store target stored) (store target stored) := by
  intro machine isOpen
  rw [store_apply]
  cases assigned : machine.assign? target.name stored with
  | some after => exact .done (Machine.stores_assign? assigned).depth (isOpen.assign assigned)
  | none => exact endsUnwound_failed isOpen nofun

theorem Unwinds.bind {first halting : Evaluation α} {next nextHalting : α → Evaluation β}
    (firstUnwinds : Unwinds first halting)
    (nextUnwinds : ∀ result, Unwinds (next result) (nextHalting result)) :
    Unwinds (first >>= next) (halting >>= nextHalting) := by
  intro machine isOpen
  have ended := firstUnwinds machine isOpen
  rw [bind_apply, bind_apply]
  generalize first machine = here, halting machine = there at ended
  cases ended with
  | @done result middle sameDepth middleOpen =>
    rw [← sameDepth]
    exact nextUnwinds result middle middleOpen
  | failed deeper raisedOpen overflow => exact .failed deeper raisedOpen overflow
  | outOfFuel => exact .outOfFuel

/-- The frame of a call is the last that is taken off behind a failure of its body. -/
theorem Unwinds.inFrame {body halting : Evaluation Completion}
    (bodyUnwinds : Unwinds body halting) (function : Function Ty) (values : List Value)
    (span : Span) :
    Unwinds (inFrame function values span body) (inOpenFrame function values span halting) := by
  intro machine isOpen
  rw [inFrame_apply, inOpenFrame_apply]
  by_cases room : machine.depth < Machine.maxDepth
  · rw [if_pos room, if_pos room]
    have ended := bodyUnwinds _ (isOpen.push room function values)
    rw [Machine.depth_push] at ended
    generalize body (machine.push function values) = here,
      halting (machine.push function values) = there at ended
    cases ended with
    | @done completion final sameDepth finalOpen =>
      have opened : machine.depth = machine.depth - 1 + 1 := by
        have := isOpen.pos
        omega
      refine .done ?_ (finalOpen.pop (sameDepth.trans (congrArg (· + 1) opened)))
      rw [Machine.depth_pop, sameDepth, Nat.add_sub_cancel]
    | @failed error raised deeper raisedOpen overflow =>
      dsimp only
      rw [Machine.pop_popTo_succ deeper]
      exact .failed (Nat.le_of_succ_le deeper) raisedOpen overflow
    | outOfFuel => exact .outOfFuel
  · rw [if_neg room, if_neg room]
    exact endsUnwound_failed isOpen fun _ _ =>
      Nat.le_antisymm isOpen.le_maxDepth (Nat.le_of_not_lt room)

end Rules

/-- With some fuel, each evaluation of a program is that of the evaluation which halts. -/
structure UnwindsAll (functions : Definitions (Function Ty)) (fuel : Nat) : Prop where
  eval : ∀ expr, Unwinds (Expr.eval functions fuel expr) (Halting.eval functions fuel expr)
  evalAll : ∀ exprs,
    Unwinds (Expr.evalAll functions fuel exprs) (Halting.evalAll functions fuel exprs)
  call : ∀ callee arguments span,
    Unwinds (callFunction functions fuel callee arguments span)
      (Halting.call functions fuel callee arguments span)
  test : ∀ test, Unwinds (Expr.evalTest functions fuel test) (Halting.evalTest functions fuel test)
  exec : ∀ stmt, Unwinds (Stmt.exec functions fuel stmt) (Halting.exec functions fuel stmt)
  execAll : ∀ body,
    Unwinds (Stmt.execAll functions fuel body) (Halting.execAll functions fuel body)

section Induction

variable {functions : Definitions (Function Ty)} {fuel : Nat}

theorem unwindsAll_zero : UnwindsAll functions 0 := by
  constructor
  all_goals
    intros
    simp only [Expr.eval, Expr.evalAll, callFunction, Expr.evalTest, Stmt.exec, Stmt.execAll,
      Halting.eval, Halting.evalAll, Halting.call, Halting.evalTest, Halting.exec,
      Halting.execAll]
    exact unwinds_stuck

theorem UnwindsAll.eval_succ (ih : UnwindsAll functions fuel) (expr : Expr Ty) :
    Unwinds (Expr.eval functions (fuel + 1) expr) (Halting.eval functions (fuel + 1) expr) := by
  cases expr with
  | literal value span =>
    rw [Expr.eval, Halting.eval]
    exact unwinds_pure value
  | var name span =>
    rw [Expr.eval, Halting.eval]
    exact unwinds_read name span
  | binary op tag lhs rhs span =>
    rw [Expr.eval, Halting.eval]
    apply Unwinds.bind (ih.eval lhs)
    intro left
    apply Unwinds.bind (ih.eval rhs)
    intro right
    exact unwinds_ofExcept span (op.noOverflow_apply tag left right)
  | unary op tag operand span =>
    rw [Expr.eval, Halting.eval]
    apply Unwinds.bind (ih.eval operand)
    intro inner
    exact unwinds_ofExcept span (op.noOverflow_apply tag inner)
  | call callee arguments callSpan span =>
    rw [Expr.eval, Halting.eval]
    apply Unwinds.bind (ih.call callee arguments callSpan)
    intro result?
    cases result? with
    | some result => exact unwinds_pure result
    | none => exact unwinds_fail span nofun

theorem UnwindsAll.evalAll_succ (ih : UnwindsAll functions fuel) (exprs : List (Expr Ty)) :
    Unwinds (Expr.evalAll functions (fuel + 1) exprs)
      (Halting.evalAll functions (fuel + 1) exprs) := by
  cases exprs with
  | nil =>
    rw [Expr.evalAll, Halting.evalAll]
    exact unwinds_pure []
  | cons first rest =>
    rw [Expr.evalAll, Halting.evalAll]
    apply Unwinds.bind (ih.eval first)
    intro value
    apply Unwinds.bind (ih.evalAll rest)
    intro values
    exact unwinds_pure (value :: values)

theorem UnwindsAll.call_succ (ih : UnwindsAll functions fuel) (callee : Ident)
    (arguments : List (Expr Ty)) (span : Span) :
    Unwinds (callFunction functions (fuel + 1) callee arguments span)
      (Halting.call functions (fuel + 1) callee arguments span) := by
  rw [callFunction, Halting.call]
  cases functions.get? callee.name with
  | none => exact unwinds_fail callee.span nofun
  | some function =>
    apply Unwinds.bind (ih.evalAll arguments)
    intro values
    exact (ih.execAll function.body).inFrame function values span

theorem UnwindsAll.test_succ (ih : UnwindsAll functions fuel) (test : Expr Ty) :
    Unwinds (Expr.evalTest functions (fuel + 1) test)
      (Halting.evalTest functions (fuel + 1) test) := by
  rw [Expr.evalTest, Halting.evalTest]
  apply Unwinds.bind (ih.eval test)
  intro value
  exact unwinds_ofExcept test.span (noOverflow_content _ value)

theorem UnwindsAll.exec_succ (ih : UnwindsAll functions fuel) (stmt : Stmt Ty) :
    Unwinds (Stmt.exec functions (fuel + 1) stmt) (Halting.exec functions (fuel + 1) stmt) := by
  cases stmt with
  | skip =>
    rw [Stmt.exec, Halting.exec]
    exact unwinds_pure Completion.normal
  | block body =>
    rw [Stmt.exec, Halting.exec]
    exact ih.execAll body
  | assign target value =>
    rw [Stmt.exec, Halting.exec]
    apply Unwinds.bind (ih.eval value)
    intro stored
    apply Unwinds.bind (unwinds_store target stored)
    intro _
    exact unwinds_pure Completion.normal
  | conditional test thenBranch elseBranch =>
    rw [Stmt.exec, Halting.exec]
    apply Unwinds.bind (ih.test test)
    intro truth
    cases truth with
    | true => exact ih.exec thenBranch
    | false => exact ih.exec elseBranch
  | loop test body =>
    rw [Stmt.exec, Halting.exec]
    apply Unwinds.bind (ih.test test)
    intro truth
    cases truth with
    | true =>
      apply Unwinds.bind (ih.exec body)
      intro completion
      cases completion with
      | normal => exact ih.exec (.loop test body)
      | returned value => exact unwinds_pure (Completion.returned value)
    | false => exact unwinds_pure Completion.normal
  | call callee arguments span =>
    rw [Stmt.exec, Halting.exec]
    apply Unwinds.bind (ih.call callee arguments span)
    intro _
    exact unwinds_pure Completion.normal
  | giveBack value span =>
    rw [Stmt.exec, Halting.exec]
    apply Unwinds.bind (ih.eval value)
    intro result
    exact unwinds_pure (Completion.returned result)

theorem UnwindsAll.execAll_succ (ih : UnwindsAll functions fuel) (body : List (Stmt Ty)) :
    Unwinds (Stmt.execAll functions (fuel + 1) body)
      (Halting.execAll functions (fuel + 1) body) := by
  cases body with
  | nil =>
    rw [Stmt.execAll, Halting.execAll]
    exact unwinds_pure Completion.normal
  | cons first rest =>
    rw [Stmt.execAll, Halting.execAll]
    apply Unwinds.bind (ih.exec first)
    intro completion
    cases completion with
    | normal => exact ih.execAll rest
    | returned value => exact unwinds_pure (Completion.returned value)

/-- Whatever the fuel, evaluations are those of the ones that halt. -/
theorem unwindsAll (functions : Definitions (Function Ty)) (fuel : Nat) :
    UnwindsAll functions fuel := by
  induction fuel with
  | zero => exact unwindsAll_zero
  | succ fuel ih =>
    exact ⟨ih.eval_succ, ih.evalAll_succ, ih.call_succ, ih.test_succ, ih.exec_succ,
      ih.execAll_succ⟩

end Induction

namespace Program

variable {program : Program Ty} {main : Function Ty} {fuel : Nat}

theorem openLog_entered (isMain : program.main? = some main) :
    (program.entered main).OpenLog := by
  have named : main.name.name = mainName := Definitions.name_of_get? isMain
  rw [Machine.OpenLog, entered, Machine.push, named]
  exact .main

/-- The log of a run that ends is well bracketed.  If the run fails, some calls are open when
the failure is raised, and what is logged behind it are the ends of these calls, from the
innermost on.  It fails with an overflow only if the most calls are open that there can be. -/
theorem wellBracketed_run (isMain : program.main? = some main)
    (lasts : (program.run fuel).outcome ≠ .outOfFuel) :
    WellBracketed (program.run fuel).log ∧
      ∀ error, (program.run fuel).outcome = .failed error →
        ∃ raised,
          Halting.execAll program.functions fuel main.body (program.entered main) =
            (.failed error, raised) ∧
          openFrames raised.log.reverse = raised.depth ∧
          (program.run fuel).log = raised.log.reverse ++ ends raised.depth ∧
          ∀ limit, error.content = .stackOverflow limit → raised.depth = Machine.maxDepth := by
  have ended := (unwindsAll program.functions fuel).execAll main.body _ (openLog_entered isMain)
  have begun : (program.entered main).depth = 1 := rfl
  rw [begun] at ended
  rw [run, isMain] at lasts ⊢
  dsimp only at lasts ⊢
  rw [← entered] at lasts ⊢
  generalize Stmt.execAll program.functions fuel main.body (program.entered main) = here,
    Halting.execAll program.functions fuel main.body (program.entered main) = there
    at ended lasts ⊢
  cases ended with
  | @done completion final sameDepth isOpen =>
    refine ⟨isOpen.wellBracketed_pop sameDepth, ?_⟩
    rintro _ ⟨⟩
  | @failed error raised deeper isOpen overflow =>
    obtain ⟨atMain, mainOpen⟩ := isOpen.popTo_succ 0 deeper
    refine ⟨mainOpen.wellBracketed_pop atMain, ?_⟩
    rintro _ ⟨⟩
    refine ⟨raised, rfl, ?_, ?_, overflow⟩
    · rw [openFrames_reverse]
      exact isOpen.openFrames_eq
    · dsimp only
      rw [Machine.pop_popTo_succ deeper, Machine.log_popTo_zero]
  | outOfFuel => exact absurd rfl lasts

/-- A division by zero in the second of two calls that are arguments. -/
theorem wellBracketed_run_of_division :
    ∃ compiled main,
      (compile .standard
        ("int f(int k) \x7b return 6 / k; \x7d int g(int a, int b) \x7b return a; \x7d " ++
          "int main() \x7b int x; x = g(f(3), f(0)); \x7d")).outcome = .ok compiled ∧
      compiled.specialized.main? = some main ∧
      (compiled.specialized.run 30).outcome ≠ .outOfFuel ∧
      (compiled.specialized.run 30).log =
        [.pushed "main" 1, .pushed "f" 2, .popped 2, .pushed "f" 2, .popped 2, .popped 1] ∧
      WellBracketed (compiled.specialized.run 30).log ∧
      ∀ error, (compiled.specialized.run 30).outcome = .failed error →
        ∃ raised,
          Halting.execAll compiled.specialized.functions 30 main.body
              (compiled.specialized.entered main) = (.failed error, raised) ∧
          openFrames raised.log.reverse = raised.depth ∧
          (compiled.specialized.run 30).log = raised.log.reverse ++ ends raised.depth ∧
          ∀ limit, error.content = .stackOverflow limit → raised.depth = Machine.maxDepth := by
  have tested : (compile .standard
      ("int f(int k) \x7b return 6 / k; \x7d int g(int a, int b) \x7b return a; \x7d " ++
        "int main() \x7b int x; x = g(f(3), f(0)); \x7d")).outcome.toOption.any (fun compiled =>
          compiled.specialized.main?.isSome ∧
            (compiled.specialized.run 30).outcome ≠ .outOfFuel ∧
            (compiled.specialized.run 30).log =
              [.pushed "main" 1, .pushed "f" 2, .popped 2, .pushed "f" 2, .popped 2,
                .popped 1]) = true := by
    decide +kernel
  obtain ⟨compiled, done, passes⟩ := exists_compiled tested
  obtain ⟨hasMain, lasts, logged⟩ := of_decide_eq_true passes
  obtain ⟨main, isMain⟩ := Option.isSome_iff_exists.mp hasMain
  exact ⟨compiled, main, done, isMain, lasts, logged, wellBracketed_run isMain lasts⟩

end Program

end TypedImp
