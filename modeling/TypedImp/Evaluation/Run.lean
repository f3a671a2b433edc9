import TypedImp.Evaluation.Basic
import TypedImp.Evaluation.Operation

/-!
# Running programs

Expressions are evaluated from left to right and completely; a statement finishes
normally or gives back a value, which ends the call.  The evaluation takes fuel, which
bounds how deeply its steps are nested.
-/

namespace TypedImp

section Evaluator

variable (functions : Definitions (Function Ty))

mutual

/-- Evaluate an expression. -/
def Expr.eval : (fuel : Nat) → Expr Ty → Evaluation Value
  | 0, _ => .stuck
  | _ + 1, .literal value _ => pure value
  | _ + 1, .var name span => .read name span
  | fuel + 1, .binary op tag lhs rhs span => do
    let left ← Expr.eval fuel lhs
    let right ← Expr.eval fuel rhs
    .ofExcept span (op.apply tag left right)
  | fuel + 1, .unary op tag operand span => do
    let inner ← Expr.eval fuel operand
    .ofExcept span (op.apply tag inner)
  | fuel + 1, .call callee arguments callSpan span => do
    let result? ← callFunction fuel callee arguments callSpan
    match result? with
    | some result => pure result
    | none => .fail span (.missingReturnValue callee.name)

/-- Evaluate expressions from left to right. -/
def Expr.evalAll : (fuel : Nat) → List (Expr Ty) → Evaluation (List Value)
  | 0, _ => .stuck
  | _ + 1, [] => pure []
  | fuel + 1, first :: rest => do
    let value ← Expr.eval fuel first
    let values ← Expr.evalAll fuel rest
    pure (value :: values)

/-- Call a function: find it, evaluate the arguments, and execute its body. -/
def callFunction : (fuel : Nat) → (callee : Ident) → (arguments : List (Expr Ty)) →
    (span : Span) → Evaluation (Option Value)
  | 0, _, _, _ => .stuck
  | fuel + 1, callee, arguments, span =>
    match functions.get? callee.name with
    | none => .fail callee.span (.undefinedFunction callee.name)
    | some function => do
      let values ← Expr.evalAll fuel arguments
      Evaluation.inFrame function values span (Stmt.execAll fuel function.body)

/-- Evaluate a test, which has to give a truth value. -/
def Expr.evalTest : (fuel : Nat) → Expr Ty → Evaluation Bool
  | 0, _ => .stuck
  | fuel + 1, test => do
    let value ← Expr.eval fuel test
    .ofExcept test.span (content Value.asBool value)

/-- Execute a statement. -/
def Stmt.exec : (fuel : Nat) → Stmt Ty → Evaluation Completion
  | 0, _ => .stuck
  | _ + 1, .skip => pure .normal
  | fuel + 1, .block body => Stmt.execAll fuel body
  | fuel + 1, .assign target value => do
    let stored ← Expr.eval fuel value
    Evaluation.store target stored
    pure .normal
  | fuel + 1, .conditional test thenBranch elseBranch => do
    let truth ← Expr.evalTest fuel test
    if truth then Stmt.exec fuel thenBranch else Stmt.exec fuel elseBranch
  | fuel + 1, .loop test body => do
    let truth ← Expr.evalTest fuel test
    if truth then
      let completion ← Stmt.exec fuel body
      match completion with
      | .returned value => pure (.returned value)
      | .normal => Stmt.exec fuel (.loop test body)
    else
      pure .normal
  | fuel + 1, .call callee arguments span => do
    let _ ← callFunction fuel callee arguments span
    pure .normal
  | fuel + 1, .giveBack value _ => do
    let result ← Expr.eval fuel value
    pure (.returned result)

/-- Execute statements until one gives back a value. -/
def Stmt.execAll : (fuel : Nat) → List (Stmt Ty) → Evaluation Completion
  | 0, _ => .stuck
  | _ + 1, [] => pure .normal
  | fuel + 1, first :: rest => do
    let completion ← Stmt.exec fuel first
    match completion with
    | .returned value => pure (.returned value)
    | .normal => Stmt.execAll fuel rest

end

end Evaluator

/-- How a run ends, and the calls that it made in their order. -/
structure Run where
  outcome : Outcome State
  log : List CallEvent
  deriving DecidableEq

namespace Program

/-- Run a program: call `main` without arguments.  The final state holds the global
variables and, on top of them, those of `main`. -/
def run (program : Program Ty) (fuel : Nat) : Run :=
  match program.main? with
  | none => ⟨.failed ⟨Span.emptyAt 0, .missingMain⟩, []⟩
  | some main =>
    match Stmt.execAll program.functions fuel main.body
        ((Machine.start program).push main []) with
    | (.done _, machine) =>
      ⟨.done (machine.globals.merge machine.innermost), machine.pop.log.reverse⟩
    | (.failed error, machine) => ⟨.failed error, machine.pop.log.reverse⟩
    | (.outOfFuel, machine) => ⟨.outOfFuel, machine.log.reverse⟩

end Program

end TypedImp
