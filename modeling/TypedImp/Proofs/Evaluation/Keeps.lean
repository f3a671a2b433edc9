import TypedImp.Evaluation.Basic
import TypedImp.Evaluation.Operation
import TypedImp.Typing.Checking

/-!
# What evaluations keep

An invariant of the machine with a property of the result and a property of the failures.
The rules follow the way in which evaluations are put together, and operators are shown to
give values of their type or to fail in one of the expected ways.
-/

namespace TypedImp

/-- The failures that a program which keeps the typing rules can end with. -/
inductive RunError.Expected : RunError → Prop where
  | undefined {ty : Ty} : Expected (.value (.undefined ty))
  | divisionByZero : Expected .divisionByZero
  | invalidCharCode {code : Int32} : Expected (.invalidCharCode code)
  | stackOverflow {depth : Nat} : Expected (.stackOverflow depth)

/-- A value of a type, or an expected failure. -/
def Delivers (ty : Ty) : Except RunError Value → Prop
  | .ok value => value.ty = ty
  | .error error => error.Expected

namespace Evaluation

variable {α β : Type} {invariant : Machine → Prop} {allowed : RunError → Prop}
  {result : α → Prop} {final : β → Prop}

/-- From a machine with the invariant on, an evaluation gives a machine with the invariant
and a result with a property, or it fails as allowed, or its fuel does not last. -/
def Keeps (invariant : Machine → Prop) (allowed : RunError → Prop) (result : α → Prop)
    (evaluation : Evaluation α) : Prop :=
  ∀ machine, invariant machine →
    match evaluation machine with
    | (.done value, machine) => invariant machine ∧ result value
    | (.failed error, _) => allowed error.content
    | (.outOfFuel, _) => True

theorem read_apply (name : Ident) (span : Span) (machine : Machine) :
    read name span machine =
      match machine.lookup name.name with
      | some value => (.done value, machine)
      | none => (.failed ⟨span, .unboundVariable name.name⟩, machine) :=
  rfl

theorem store_apply (target : Ident) (stored : Value) (machine : Machine) :
    store target stored machine =
      match machine.assign? target.name stored with
      | some machine => (.done (), machine)
      | none => (.failed ⟨target.span, .unboundVariable target.name⟩, machine) :=
  rfl

/-- A call is executed on the machine with its frame, which is taken off at its end. -/
theorem inFrame_apply {τ : Type} (function : Function τ) (values : List Value) (span : Span)
    (body : Evaluation Completion) (machine : Machine) :
    inFrame function values span body machine =
      if machine.depth < Machine.maxDepth then
        match body (machine.push function values) with
        | (.done completion, final) => (.done completion.value?, final.pop)
        | (.failed error, final) => (.failed error, final.pop)
        | (.outOfFuel, final) => (.outOfFuel, final)
      else (.failed ⟨span, .stackOverflow Machine.maxDepth⟩, machine) := by
  by_cases room : machine.depth < Machine.maxDepth
  · rw [if_pos room, inFrame, bind_apply]
    simp only [enter, if_pos room, bind_apply, leaving]
    cases body (machine.push function values) with
    | mk outcome final => cases outcome <;> rfl
  · rw [if_neg room, inFrame, bind_apply]
    simp only [enter, if_neg room]

theorem keeps_pure {value : α} (holds : result value) :
    Keeps invariant allowed result (pure value) :=
  fun _ kept => ⟨kept, holds⟩

theorem keeps_stuck : Keeps invariant allowed result stuck :=
  fun _ _ => trivial

theorem keeps_fail {error : RunError} (isAllowed : allowed error) (span : Span) :
    Keeps invariant allowed result (fail span error) :=
  fun _ _ => isAllowed

theorem Keeps.bind {first : Evaluation α} {next : α → Evaluation β}
    (firstKeeps : Keeps invariant allowed result first)
    (nextKeeps : ∀ value, result value → Keeps invariant allowed final (next value)) :
    Keeps invariant allowed final (first >>= next) := by
  intro machine kept
  have firstKept := firstKeeps machine kept
  rw [bind_apply]
  generalize first machine = ended at firstKept ⊢
  obtain ⟨outcome, middle⟩ := ended
  cases outcome with
  | done value => exact nextKeeps value firstKept.2 middle firstKept.1
  | failed error => exact firstKept
  | outOfFuel => trivial

theorem Keeps.mono {evaluation : Evaluation α} {weaker : α → Prop}
    (keeps : Keeps invariant allowed result evaluation)
    (implies : ∀ value, result value → weaker value) :
    Keeps invariant allowed weaker evaluation := by
  intro machine kept
  have holds := keeps machine kept
  split at holds
  · exact ⟨holds.1, implies _ holds.2⟩
  · exact holds
  · trivial

theorem keeps_ofExcept {ty : Ty} {outcome : Except RunError Value} {span : Span}
    (expected : ∀ error : RunError, error.Expected → allowed error)
    (delivers : Delivers ty outcome) :
    Keeps invariant allowed (fun value => value.ty = ty) (ofExcept span outcome) := by
  cases outcome with
  | ok value => exact keeps_pure delivers
  | error error => exact keeps_fail (expected error delivers) span

end Evaluation

section Operators

theorem Value.asInt_of_ty {value : Value} (isInt : value.ty = .int) :
    (∃ number, value.asInt = .ok number) ∨ value.asInt = .error (.undefined .int) := by
  cases value with
  | int number => exact .inl ⟨number, rfl⟩
  | undefined ty =>
    obtain rfl : ty = .int := isInt
    exact .inr rfl
  | bool | char | float => cases isInt

theorem Value.asBool_of_ty {value : Value} (isBool : value.ty = .bool) :
    (∃ truth, value.asBool = .ok truth) ∨ value.asBool = .error (.undefined .bool) := by
  cases value with
  | bool truth => exact .inl ⟨truth, rfl⟩
  | undefined ty =>
    obtain rfl : ty = .bool := isBool
    exact .inr rfl
  | int | char | float => cases isBool

theorem Value.asChar_of_ty {value : Value} (isChar : value.ty = .char) :
    (∃ character, value.asChar = .ok character) ∨
      value.asChar = .error (.undefined .char) := by
  cases value with
  | char character => exact .inl ⟨character, rfl⟩
  | undefined ty =>
    obtain rfl : ty = .char := isChar
    exact .inr rfl
  | int | bool | float => cases isChar

theorem Value.asFloat_of_ty {value : Value} (isFloat : value.ty = .float) :
    (∃ number, value.asFloat = .ok number) ∨ value.asFloat = .error (.undefined .float) := by
  cases value with
  | float number => exact .inl ⟨number, rfl⟩
  | undefined ty =>
    obtain rfl : ty = .float := isFloat
    exact .inr rfl
  | int | bool | char => cases isFloat

/-- Two contents are read and used: the result is delivered if each content can be read or
is undefined, and the use of them delivers. -/
theorem delivers_bind {α : Type} {read : Value → Except ValueError α} {value : Value}
    {ty expected : Ty} {next : α → Except RunError Value}
    (readable : (∃ found, read value = .ok found) ∨ read value = .error (.undefined ty))
    (delivers : ∀ found, Delivers expected (next found)) :
    Delivers expected (content read value >>= next) := by
  rcases readable with ⟨found, done⟩ | failed
  · rw [content_eq_ok_iff.mpr done]
    exact delivers found
  · rw [content, failed]
    exact .undefined

/-- On operands of its tag, an operator that accepts the tag gives a value of its result
type, or fails as expected. -/
theorem BinaryOperator.delivers_apply {op : BinaryOperator} {tag : Ty} {lhs rhs : Value}
    (accepted : op.accepts tag tag = true) (lhsTy : lhs.ty = tag) (rhsTy : rhs.ty = tag) :
    Delivers (op.resultType tag tag) (op.apply tag lhs rhs) := by
  cases tag with
  | int =>
    refine delivers_bind (Value.asInt_of_ty lhsTy) fun left =>
      delivers_bind (Value.asInt_of_ty rhsTy) fun right => ?_
    by_cases isDiv : op = .div
    · subst isDiv
      simp only [applyInt]
      split
      · exact RunError.Expected.divisionByZero
      · rfl
    · cases op <;> simp [accepts, isArithmetic, isRelational] at accepted isDiv <;>
        simp [applyInt, compareAs, relation?, Delivers, resultType, isArithmetic, Value.ty]
  | float =>
    refine delivers_bind (Value.asFloat_of_ty lhsTy) fun left =>
      delivers_bind (Value.asFloat_of_ty rhsTy) fun right => ?_
    cases op <;> simp [accepts, comparable, isArithmetic, isRelational] at accepted <;>
      simp [applyFloat, compareAs, relation?, Delivers, resultType, isArithmetic, Value.ty]
  | char =>
    refine delivers_bind (Value.asChar_of_ty lhsTy) fun left =>
      delivers_bind (Value.asChar_of_ty rhsTy) fun right => ?_
    cases op <;>
      simp [accepts, comparable, isArithmetic, isRelational, Ty.isNumeric] at accepted <;>
      simp [compareAs, relation?, Delivers, resultType, isArithmetic, Value.ty]
  | bool =>
    refine delivers_bind (Value.asBool_of_ty lhsTy) fun left =>
      delivers_bind (Value.asBool_of_ty rhsTy) fun right => ?_
    cases op <;>
      simp [accepts, comparable, isArithmetic, isRelational, Ty.isNumeric] at accepted <;>
      simp [applyBool, Delivers, resultType, isArithmetic, Value.ty]
  | void => cases op <;> cases accepted

theorem UnaryOperator.delivers_apply {op : UnaryOperator} {tag : Ty} {operand : Value}
    (accepted : op.accepts tag = true) (operandTy : operand.ty = tag) :
    Delivers (op.resultType tag) (op.apply tag operand) := by
  cases op <;> cases tag <;> simp [accepts, Ty.isNumeric] at accepted
  case not.bool => exact delivers_bind (Value.asBool_of_ty operandTy) fun _ => rfl
  case neg.int => exact delivers_bind (Value.asInt_of_ty operandTy) fun _ => rfl
  case neg.float => exact delivers_bind (Value.asFloat_of_ty operandTy) fun _ => rfl
  case intCast.char => exact delivers_bind (Value.asChar_of_ty operandTy) fun _ => rfl
  case intCast.float => exact delivers_bind (Value.asFloat_of_ty operandTy) fun _ => rfl
  case floatCast.int => exact delivers_bind (Value.asInt_of_ty operandTy) fun _ => rfl
  case charCast.int =>
    refine delivers_bind (Value.asInt_of_ty operandTy) fun code => ?_
    unfold charOfCode
    dsimp only
    split
    · rfl
    · exact .invalidCharCode

end Operators

end TypedImp
