import TypedImp.Evaluation.Run

/-!
# Evaluation without tags

A program can be run as it was read.  An operator is then chosen by the types of the
values of its operands, and an assignment converts its value to the type of the value
that the variable holds.  Nothing is known of the types beforehand.
-/

namespace TypedImp

/-- Convert a value to a type as assignments do.  A value of another type stays as it is. -/
def Value.convertTo (target : Ty) (value : Value) : Except RunError Value :=
  match target, value.ty with
  | .float, .int => do
    let number ← content Value.asInt value
    return .float (Binary32.ofInt32 number)
  | .int, .char => do
    let character ← content Value.asChar value
    return .int (Int32.ofNat character.toNat)
  | .int, .float => do
    let number ← content Value.asFloat value
    return .int (Binary32.toInt32 number)
  | _, _ => .ok value

/-- Apply an operator to values, by their types.  In arithmetic and in comparisons an
integer beside a float becomes a float. -/
def BinaryOperator.applyByTypes (op : BinaryOperator) (lhs rhs : Value) :
    Except RunError Value :=
  match op.isBoolean, lhs.ty, rhs.ty with
  | false, .int, .float => do
    let left ← lhs.convertTo .float
    op.apply .float left rhs
  | false, .float, .int => do
    let right ← rhs.convertTo .float
    op.apply .float lhs right
  | _, ty, _ => op.apply ty lhs rhs

/-- Convert a value to the type of what a variable holds, and store it there. -/
def Evaluation.assign (target : Ident) (value : Value) : Evaluation Unit := do
  let current ← read target target.span
  let stored ← ofExcept target.span (value.convertTo current.ty)
  store target stored

namespace Reference

section Evaluator

variable (functions : Definitions (Function Unit))

mutual

/-- Evaluate an expression. -/
def eval : (fuel : Nat) → Expr Unit → Evaluation Value
  | 0, _ => .stuck
  | _ + 1, .literal value _ => pure value
  | _ + 1, .var name span => .read name span
  | fuel + 1, .binary op () lhs rhs span => do
    let left ← eval fuel lhs
    let right ← eval fuel rhs
    .ofExcept span (op.applyByTypes left right)
  | fuel + 1, .unary op () operand span => do
    let inner ← eval fuel operand
    .ofExcept span (op.apply inner.ty inner)
  | fuel + 1, .call callee arguments callSpan span => do
    let result? ← call fuel callee arguments callSpan
    match result? with
    | some result => pure result
    | none => .fail span (.missingReturnValue callee.name)

/-- Evaluate expressions from left to right. -/
def evalAll : (fuel : Nat) → List (Expr Unit) → Evaluation (List Value)
  | 0, _ => .stuck
  | _ + 1, [] => pure []
  | fuel + 1, first :: rest => do
    let value ← eval fuel first
    let values ← evalAll fuel rest
    pure (value :: values)

def call : (fuel : Nat) → (callee : Ident) → (arguments : List (Expr Unit)) →
    (span : Span) → Evaluation (Option Value)
  | 0, _, _, _ => .stuck
  | fuel + 1, callee, arguments, span =>
    match functions.get? callee.name with
    | none => .fail callee.span (.undefinedFunction callee.name)
    | some function => do
      let values ← evalAll fuel arguments
      Evaluation.inFrame function values span (execAll fuel function.body)

def evalTest : (fuel : Nat) → Expr Unit → Evaluation Bool
  | 0, _ => .stuck
  | fuel + 1, test => do
    let value ← eval fuel test
    .ofExcept test.span (content Value.asBool value)

def exec : (fuel : Nat) → Stmt Unit → Evaluation Completion
  | 0, _ => .stuck
  | _ + 1, .skip => pure .normal
  | fuel + 1, .block body => execAll fuel body
  | fuel + 1, .assign target value => do
    let assigned ← eval fuel value
    Evaluation.assign target assigned
    pure .normal
  | fuel + 1, .conditional test thenBranch elseBranch => do
    let truth ← evalTest fuel test
    if truth then exec fuel thenBranch else exec fuel elseBranch
  | fuel + 1, .loop test body => do
    let truth ← evalTest fuel test
    if truth then
      let completion ← exec fuel body
      match completion with
      | .returned value => pure (.returned value)
      | .normal => exec fuel (.loop test body)
    else
      pure .normal
  | fuel + 1, .call callee arguments span => do
    let _ ← call fuel callee arguments span
    pure .normal
  | fuel + 1, .giveBack value _ => do
    let result ← eval fuel value
    pure (.returned result)

/-- Execute statements until one gives back a value. -/
def execAll : (fuel : Nat) → List (Stmt Unit) → Evaluation Completion
  | 0, _ => .stuck
  | _ + 1, [] => pure .normal
  | fuel + 1, first :: rest => do
    let completion ← exec fuel first
    match completion with
    | .returned value => pure (.returned value)
    | .normal => execAll fuel rest

end

end Evaluator

/-- Run a program as it was read. -/
def run (program : Program Unit) (fuel : Nat) : Run :=
  match program.main? with
  | none => ⟨.failed ⟨Span.emptyAt 0, .missingMain⟩, []⟩
  | some main =>
    match execAll program.functions fuel main.body
        ((Machine.start program).push main []) with
    | (.done _, machine) =>
      ⟨.done (machine.globals.merge machine.innermost), machine.pop.log.reverse⟩
    | (.failed error, machine) => ⟨.failed error, machine.pop.log.reverse⟩
    | (.outOfFuel, machine) => ⟨.outOfFuel, machine.log.reverse⟩

end Reference

end TypedImp
