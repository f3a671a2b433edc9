import TypedImp.Evaluation.Run
import TypedImp.Proofs.Evaluation.Keeps
import TypedImp.Proofs.Typing.WellTyped

/-!
# Types at run time

The machine of a well-typed program holds values of the declared types, in the global
variables and in the innermost frame.  A call works on a frame of its own and leaves the
frames below as they are, so the invariant names these frames.
-/

namespace TypedImp

/-- The variables of a frame have the declared types of the parameters and local
variables of a function. -/
def FrameTyped (function : Function Ty) (frame : State) : Prop :=
  ∀ name, (frame.get? name).map Value.ty =
    ((function.params.get? name).map Declaration.ty).or
      ((function.locals.get? name).map Declaration.ty)

/-- The global variables and the innermost frame, which is that of a function, have the
declared types, and the other frames are the given ones. -/
structure MachineTyped (program : Program Ty) (function : Function Ty) (below : List State)
    (machine : Machine) : Prop where
  globals : ∀ name, (machine.globals.get? name).map Value.ty =
    (program.globals.get? name).map Declaration.ty
  frame : ∃ frame, machine.frames = frame :: below ∧ FrameTyped function frame

theorem ty_replace {state : State} {name : String} {value : Value}
    (sameTy : ∀ old, state.get? name = some old → old.ty = value.ty) (other : String) :
    ((state.replace name value).get? other).map Value.ty =
      (state.get? other).map Value.ty := by
  rw [NameMap.get?_replace]
  split
  case isTrue same =>
    subst same
    cases found : state.get? other with
    | none => rfl
    | some old => simp [sameTy old found]
  case isFalse => rfl

/-- Arguments of the types of the parameters make a frame of the declared types. -/
theorem frameTyped_frame {function : Function Ty} {values : List Value}
    (fits : List.Forall₂ (fun param value => value.ty = param.ty) function.params.toList values) :
    FrameTyped function (function.frame values) := by
  intro name
  have passed : (function.argument? values name).map Value.ty =
      (function.params.get? name).map Declaration.ty := by
    unfold Function.argument? Definitions.get?
    revert fits
    generalize function.params.toList = params
    intro fits
    induction fits with
    | nil => rfl
    | @cons param value params values sameTy _ ih =>
      rw [List.zip_cons_cons, List.find?_cons, List.find?_cons]
      simp only [Named.ident]
      cases decide (param.name.name = name) with
      | true => simp [sameTy]
      | false => exact ih
  rw [Function.get?_frame, Option.map_or, passed, State.get?_undefined, Option.map_map]
  rfl

namespace MachineTyped

variable {program : Program Ty} {function : Function Ty} {below : List State}
  {machine : Machine}

theorem innermost (typed : MachineTyped program function below machine) :
    FrameTyped function machine.innermost := by
  obtain ⟨frame, frames, frameTyped⟩ := typed.frame
  rw [Machine.innermost, frames]
  exact frameTyped

theorem ty_lookup (typed : MachineTyped program function below machine)
    (disjoint : ∀ name, function.params.get? name = none ∨ function.locals.get? name = none)
    (name : String) :
    (machine.lookup name).map Value.ty =
      (Scope.inFunction program function).types.get? name := by
  rw [Machine.lookup, Option.map_or, typed.innermost name, typed.globals name, get?_inFunction]
  rcases disjoint name with absent | absent
  · rw [absent]
    simp
  · rw [absent]
    simp

theorem assign (typed : MachineTyped program function below machine)
    (disjoint : ∀ name, function.params.get? name = none ∨ function.locals.get? name = none)
    {name : String} {value : Value}
    (declared : (Scope.inFunction program function).types.get? name = some value.ty) :
    ∃ assigned, machine.assign? name value = some assigned ∧
      MachineTyped program function below assigned := by
  have lookupTy := (typed.ty_lookup disjoint name).trans declared
  obtain ⟨globalsTyped, frame, framesEq, frameTyped⟩ := typed
  obtain ⟨globals, frames, log⟩ := machine
  obtain rfl : frames = frame :: below := framesEq
  simp only [Machine.lookup, Machine.innermost, List.headD_cons] at lookupTy
  simp only [Machine.assign?]
  cases inFrame : frame.get? name with
  | some old =>
    have sameTy : ∀ other, frame.get? name = some other → other.ty = value.ty := by
      intro other found
      rw [found] at lookupTy
      simpa using lookupTy
    have bound : frame.contains name = true := by simp [NameMap.contains, inFrame]
    refine ⟨_, if_pos bound, globalsTyped, _, rfl, fun other => ?_⟩
    rw [ty_replace sameTy, frameTyped other]
  | none =>
    rw [inFrame, Option.none_or] at lookupTy
    obtain ⟨old, found, oldTy⟩ := Option.map_eq_some_iff.mp lookupTy
    have sameTy : ∀ other, globals.get? name = some other → other.ty = value.ty := by
      intro other foundOther
      rw [found] at foundOther
      cases foundOther
      exact oldTy
    have unbound : ¬ frame.contains name = true := by simp [NameMap.contains, inFrame]
    have bound : globals.contains name = true := by simp [NameMap.contains, found]
    refine ⟨⟨globals.replace name value, frame :: below, log⟩, ?_, fun other => ?_, _, rfl,
      frameTyped⟩
    · rw [if_neg unbound, Machine.assignGlobal?, if_pos bound]
    · exact (ty_replace sameTy other).trans (globalsTyped other)

theorem push {callee : Function Ty} {values : List Value} {frames : List State}
    (globals : ∀ name, (machine.globals.get? name).map Value.ty =
      (program.globals.get? name).map Declaration.ty)
    (framesEq : machine.frames = frames)
    (fits : List.Forall₂ (fun param value => value.ty = param.ty) callee.params.toList values) :
    MachineTyped program callee frames (machine.push callee values) := by
  refine ⟨globals, _, ?_, frameTyped_frame fits⟩
  rw [Machine.frames_push, framesEq]

end MachineTyped

/-- The machine on which the main function of a program begins. -/
def Program.entered {τ : Type} (program : Program τ) (main : Function τ) : Machine :=
  (Machine.start program).push main []

theorem Program.run_eq_done_iff {program : Program Ty} {main : Function Ty}
    (isMain : program.main? = some main) {fuel : Nat} {state : State} :
    (program.run fuel).outcome = .done state ↔
      ∃ completion machine,
        Stmt.execAll program.functions fuel main.body (program.entered main) =
          (.done completion, machine) ∧ machine.globals.merge machine.innermost = state := by
  rw [run, isMain]
  unfold entered
  dsimp only
  generalize Stmt.execAll program.functions fuel main.body _ = ended
  obtain ⟨outcome, machine⟩ := ended
  cases outcome <;> simp

theorem machineTyped_entered (program : Program Ty) {main : Function Ty}
    (noParams : main.params.isEmpty = true) :
    MachineTyped program main [] (program.entered main) := by
  refine MachineTyped.push (fun name => ?_) rfl ?_
  · rw [Machine.start, State.get?_undefined, Option.map_map]
    rfl
  · rw [List.isEmpty_iff.mp noParams]
    exact .nil

open Evaluation

section Steps

variable {program : Program Ty} {function : Function Ty} {below : List State}
  {allowed : RunError → Prop}

theorem keeps_read
    (disjoint : ∀ name, function.params.get? name = none ∨ function.locals.get? name = none)
    {name : Ident} {ty : Ty} (span : Span)
    (declared : (Scope.inFunction program function).types.get? name.name = some ty) :
    Keeps (MachineTyped program function below) allowed (fun value => value.ty = ty)
      (read name span) := by
  intro machine typed
  have lookupTy := typed.ty_lookup disjoint name.name
  rw [declared] at lookupTy
  obtain ⟨value, found, valueTy⟩ := Option.map_eq_some_iff.mp lookupTy
  rw [read_apply, found]
  exact ⟨typed, valueTy⟩

theorem keeps_store
    (disjoint : ∀ name, function.params.get? name = none ∨ function.locals.get? name = none)
    {target : Ident} {value : Value}
    (declared : (Scope.inFunction program function).types.get? target.name = some value.ty) :
    Keeps (MachineTyped program function below) allowed (fun _ => True)
      (store target value) := by
  intro machine typed
  obtain ⟨assigned, done, assignedTyped⟩ := typed.assign disjoint declared
  rw [store_apply, done]
  exact ⟨assignedTyped, trivial⟩

/-- A call keeps the types of its caller if its body keeps its own. -/
theorem keeps_inFrame {callee : Function Ty} {values : List Value}
    {result : Completion → Prop} {body : Evaluation Completion} (span : Span)
    (overflow : allowed (.stackOverflow Machine.maxDepth))
    (fits : List.Forall₂ (fun param value => value.ty = param.ty) callee.params.toList values)
    (bodyKeeps : ∀ frame,
      Keeps (MachineTyped program callee (frame :: below)) allowed result body) :
    Keeps (MachineTyped program function below) allowed
      (fun value? => ∃ completion, result completion ∧ completion.value? = value?)
      (inFrame callee values span body) := by
  intro machine typed
  obtain ⟨globalsTyped, frame, framesEq, frameTyped⟩ := typed
  rw [inFrame_apply]
  by_cases room : machine.depth < Machine.maxDepth
  · have kept := bodyKeeps frame _ (MachineTyped.push globalsTyped framesEq fits)
    rw [if_pos room]
    split at kept
    case _ completion final done =>
      rw [done]
      obtain ⟨⟨finalGlobals, _, finalFrames, _⟩, holds⟩ := kept
      refine ⟨⟨finalGlobals, frame, ?_, frameTyped⟩, completion, holds, rfl⟩
      rw [Machine.frames_pop, finalFrames]
      rfl
    case _ error final failed =>
      rw [failed]
      exact kept
    case _ final exhausted =>
      rw [exhausted]
      trivial
  · rw [if_neg room]
    exact overflow

end Steps

/-- What a completion gives back has a type. -/
def Completion.GivesBack (returnTy : Ty) : Completion → Prop
  | .normal => True
  | .returned value => value.ty = returnTy

/-- A call of a function never finishes without giving back a value. -/
def NeverFalls (program : Program Ty) (function : Function Ty) : Prop :=
  ∀ fuel below machine final, MachineTyped program function below machine →
    Stmt.execAll program.functions fuel function.body machine ≠ (.done .normal, final)

/-- The failures of a program: the expected ones, and a missing value of each function that
may finish without one. -/
structure Allows (program : Program Ty) (allowed : RunError → Prop) : Prop where
  expected : ∀ error : RunError, error.Expected → allowed error
  missing : ∀ name function, program.functions.get? name = some function →
    function.returnTy ≠ .void →
    allowed (.missingReturnValue name) ∨ NeverFalls program function

/-- With some fuel, well-typed syntax keeps the types of the machine and gives values of
its type. -/
structure KeepsTypes (program : Program Ty) (allowed : RunError → Prop) (fuel : Nat) :
    Prop where
  eval {function : Function Ty} {below : List State} {expr : Expr Ty} {ty : Ty}
    (member : function ∈ program.functions.toList)
    (typed : HasType (.inFunction program function) expr ty) :
    Keeps (MachineTyped program function below) allowed (fun value => value.ty = ty)
      (Expr.eval program.functions fuel expr)
  evalAll {function : Function Ty} {below : List State} {arguments : List (Expr Ty)}
    {params : List Declaration} (member : function ∈ program.functions.toList)
    (typed : HaveTypes (.inFunction program function) arguments params) :
    Keeps (MachineTyped program function below) allowed
      (List.Forall₂ (fun param value => value.ty = param.ty) params)
      (Expr.evalAll program.functions fuel arguments)
  call {function callee : Function Ty} {below : List State} {name : Ident}
    {arguments : List (Expr Ty)} (span : Span)
    (member : function ∈ program.functions.toList)
    (found : program.functions.get? name.name = some callee)
    (typed : HaveTypes (.inFunction program function) arguments callee.params.toList) :
    Keeps (MachineTyped program function below) allowed
      (fun value? => (∀ value, value? = some value → value.ty = callee.returnTy) ∧
        (value? = none → callee.returnTy = .void ∨ allowed (.missingReturnValue name.name)))
      (callFunction program.functions fuel name arguments span)
  test {function : Function Ty} {below : List State} {test : Expr Ty}
    (member : function ∈ program.functions.toList)
    (typed : HasType (.inFunction program function) test .bool) :
    Keeps (MachineTyped program function below) allowed (fun _ => True)
      (Expr.evalTest program.functions fuel test)
  exec {function : Function Ty} {below : List State} {stmt : Stmt Ty}
    (member : function ∈ program.functions.toList)
    (typed : StmtTyped (.inFunction program function) function.returnTy stmt) :
    Keeps (MachineTyped program function below) allowed
      (Completion.GivesBack function.returnTy) (Stmt.exec program.functions fuel stmt)
  execAll {function : Function Ty} {below : List State} {body : List (Stmt Ty)}
    (member : function ∈ program.functions.toList)
    (typed : StmtsTyped (.inFunction program function) function.returnTy body) :
    Keeps (MachineTyped program function below) allowed
      (Completion.GivesBack function.returnTy) (Stmt.execAll program.functions fuel body)

section Induction

variable {program : Program Ty} {allowed : RunError → Prop} {fuel : Nat}

theorem keepsTypes_zero : KeepsTypes program allowed 0 := by
  constructor
  all_goals
    intros
    simp only [Expr.eval, Expr.evalAll, callFunction, Expr.evalTest, Stmt.exec, Stmt.execAll]
    exact keeps_stuck

theorem keeps_called (allows : Allows program allowed) (ih : KeepsTypes program allowed fuel)
    (typed : ProgramTyped program) {name : String} {callee : Function Ty}
    (found : program.functions.get? name = some callee) {below : List State} :
    Keeps (MachineTyped program callee below) allowed
      (fun completion => completion.GivesBack callee.returnTy ∧
        (completion = .normal →
          callee.returnTy = .void ∨ allowed (.missingReturnValue name)))
      (Stmt.execAll program.functions fuel callee.body) := by
  have member := Definitions.mem_of_get? found
  intro machine machineTyped
  have kept := ih.execAll member (typed.body callee member) machine machineTyped
  split at kept
  case _ completion final done =>
    refine ⟨kept.1, kept.2, ?_⟩
    rintro rfl
    by_cases isVoid : callee.returnTy = .void
    · exact .inl isVoid
    · rcases allows.missing name callee found isVoid with isAllowed | never
      · exact .inr isAllowed
      · exact absurd done (never fuel below machine final machineTyped)
  case _ => exact kept
  case _ => trivial

theorem KeepsTypes.eval_succ (ih : KeepsTypes program allowed fuel)
    (typed : ProgramTyped program) (allows : Allows program allowed) {function : Function Ty}
    {below : List State} {expr : Expr Ty} {ty : Ty}
    (member : function ∈ program.functions.toList)
    (exprTyped : HasType (.inFunction program function) expr ty) :
    Keeps (MachineTyped program function below) allowed (fun value => value.ty = ty)
      (Expr.eval program.functions (fuel + 1) expr) := by
  cases exprTyped with
  | literal =>
    rw [Expr.eval]
    exact keeps_pure rfl
  | var declared =>
    rw [Expr.eval]
    exact keeps_read (typed.disjoint function member) _ declared
  | binary first second accepted =>
    rw [Expr.eval]
    apply Keeps.bind (ih.eval member first)
    intro left leftTy
    apply Keeps.bind (ih.eval member second)
    intro right rightTy
    exact keeps_ofExcept allows.expected
      (BinaryOperator.delivers_apply accepted leftTy rightTy)
  | unary first accepted =>
    rw [Expr.eval]
    apply Keeps.bind (ih.eval member first)
    intro operand operandTy
    exact keeps_ofExcept allows.expected (UnaryOperator.delivers_apply accepted operandTy)
  | call found notVoid passed =>
    rw [Expr.eval]
    apply Keeps.bind (ih.call _ member found passed)
    rintro (_ | value) ⟨valueTy, missing⟩
    · rcases missing rfl with isVoid | isAllowed
      · exact absurd isVoid notVoid
      · exact keeps_fail isAllowed _
    · exact keeps_pure (valueTy value rfl)

theorem KeepsTypes.evalAll_succ (ih : KeepsTypes program allowed fuel)
    {function : Function Ty} {below : List State} {arguments : List (Expr Ty)}
    {params : List Declaration} (member : function ∈ program.functions.toList)
    (argumentsTyped : HaveTypes (.inFunction program function) arguments params) :
    Keeps (MachineTyped program function below) allowed
      (List.Forall₂ (fun param value => value.ty = param.ty) params)
      (Expr.evalAll program.functions (fuel + 1) arguments) := by
  cases argumentsTyped with
  | nil =>
    rw [Expr.evalAll]
    exact keeps_pure .nil
  | cons first rest =>
    rw [Expr.evalAll]
    apply Keeps.bind (ih.eval member first)
    intro value valueTy
    apply Keeps.bind (ih.evalAll member rest)
    intro values valuesTy
    exact keeps_pure (.cons valueTy valuesTy)

theorem KeepsTypes.call_succ (ih : KeepsTypes program allowed fuel)
    (typed : ProgramTyped program) (allows : Allows program allowed)
    {function callee : Function Ty} {below : List State} {name : Ident}
    {arguments : List (Expr Ty)} (span : Span)
    (member : function ∈ program.functions.toList)
    (found : program.functions.get? name.name = some callee)
    (argumentsTyped :
      HaveTypes (.inFunction program function) arguments callee.params.toList) :
    Keeps (MachineTyped program function below) allowed
      (fun value? => (∀ value, value? = some value → value.ty = callee.returnTy) ∧
        (value? = none → callee.returnTy = .void ∨ allowed (.missingReturnValue name.name)))
      (callFunction program.functions (fuel + 1) name arguments span) := by
  simp only [callFunction, found]
  apply Keeps.bind (ih.evalAll member argumentsTyped)
  intro values fits
  -- The body works on a frame of its own, above those of the caller.
  have overflow := allows.expected (.stackOverflow Machine.maxDepth) .stackOverflow
  apply (keeps_inFrame span overflow fits fun _ => keeps_called allows ih typed found).mono
  rintro _ ⟨completion, ⟨givesBack, falls⟩, rfl⟩
  cases completion with
  | normal =>
    refine ⟨?_, fun _ => falls rfl⟩
    rintro _ ⟨⟩
  | returned value =>
    constructor
    · rintro _ ⟨⟩
      exact givesBack
    · rintro ⟨⟩

theorem KeepsTypes.test_succ (ih : KeepsTypes program allowed fuel)
    (allows : Allows program allowed) {function : Function Ty} {below : List State}
    {test : Expr Ty} (member : function ∈ program.functions.toList)
    (testTyped : HasType (.inFunction program function) test .bool) :
    Keeps (MachineTyped program function below) allowed (fun _ => True)
      (Expr.evalTest program.functions (fuel + 1) test) := by
  rw [Expr.evalTest]
  apply Keeps.bind (ih.eval member testTyped)
  intro value valueTy
  rcases Value.asBool_of_ty valueTy with ⟨truth, readable⟩ | failed
  · rw [content_eq_ok_iff.mpr readable]
    exact keeps_pure trivial
  · rw [content, failed]
    exact keeps_fail (allows.expected _ .undefined) _

theorem KeepsTypes.exec_succ (ih : KeepsTypes program allowed fuel)
    (typed : ProgramTyped program) {function : Function Ty} {below : List State}
    {stmt : Stmt Ty} (member : function ∈ program.functions.toList)
    (stmtTyped : StmtTyped (.inFunction program function) function.returnTy stmt) :
    Keeps (MachineTyped program function below) allowed
      (Completion.GivesBack function.returnTy)
      (Stmt.exec program.functions (fuel + 1) stmt) := by
  cases stmtTyped with
  | skip =>
    rw [Stmt.exec]
    exact keeps_pure trivial
  | block bodyTyped =>
    rw [Stmt.exec]
    exact ih.execAll member bodyTyped
  | assign declared valueTyped =>
    rw [Stmt.exec]
    apply Keeps.bind (ih.eval member valueTyped)
    rintro value rfl
    apply Keeps.bind (keeps_store (typed.disjoint function member) declared)
    intro _ _
    exact keeps_pure trivial
  | conditional tested chosen rejected =>
    rw [Stmt.exec]
    apply Keeps.bind (ih.test member tested)
    intro truth _
    cases truth with
    | true => exact ih.exec member chosen
    | false => exact ih.exec member rejected
  | loop tested repeated =>
    rw [Stmt.exec]
    apply Keeps.bind (ih.test member tested)
    intro truth _
    cases truth with
    | true =>
      apply Keeps.bind (ih.exec member repeated)
      intro completion givesBack
      cases completion with
      | normal => exact ih.exec member (.loop tested repeated)
      | returned value => exact keeps_pure givesBack
    | false => exact keeps_pure trivial
  | call found passed =>
    rw [Stmt.exec]
    apply Keeps.bind (ih.call _ member found passed)
    intro _ _
    exact keeps_pure trivial
  | giveBack given =>
    rw [Stmt.exec]
    apply Keeps.bind (ih.eval member given)
    intro value valueTy
    exact keeps_pure valueTy

theorem KeepsTypes.execAll_succ (ih : KeepsTypes program allowed fuel)
    {function : Function Ty} {below : List State} {body : List (Stmt Ty)}
    (member : function ∈ program.functions.toList)
    (bodyTyped : StmtsTyped (.inFunction program function) function.returnTy body) :
    Keeps (MachineTyped program function below) allowed
      (Completion.GivesBack function.returnTy)
      (Stmt.execAll program.functions (fuel + 1) body) := by
  cases bodyTyped with
  | nil =>
    rw [Stmt.execAll]
    exact keeps_pure trivial
  | cons head following =>
    rw [Stmt.execAll]
    apply Keeps.bind (ih.exec member head)
    intro completion givesBack
    cases completion with
    | normal => exact ih.execAll member following
    | returned value => exact keeps_pure givesBack

theorem keepsTypes_succ (typed : ProgramTyped program) (allows : Allows program allowed)
    (ih : KeepsTypes program allowed fuel) : KeepsTypes program allowed (fuel + 1) where
  eval := ih.eval_succ typed allows
  evalAll := ih.evalAll_succ
  call := ih.call_succ typed allows
  test := ih.test_succ allows
  exec := ih.exec_succ typed
  execAll := ih.execAll_succ

/-- Well-typed syntax keeps the types of the machine, whatever the fuel. -/
theorem keepsTypes (typed : ProgramTyped program) (allows : Allows program allowed)
    (fuel : Nat) : KeepsTypes program allowed fuel := by
  induction fuel with
  | zero => exact keepsTypes_zero
  | succ fuel ih => exact keepsTypes_succ typed allows ih

end Induction

end TypedImp
