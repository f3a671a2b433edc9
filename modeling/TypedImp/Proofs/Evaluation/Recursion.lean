import TypedImp.Proofs.Compilation
import TypedImp.Proofs.Evaluation.Frames
import TypedImp.Proofs.Evaluation.FuelComparison
import TypedImp.Proofs.Evaluation.Preservation
import TypedImp.Proofs.Program.Nodes

/-!
# Recursion without loops

A program without loops comes to an end, whatever its functions call.  The fuel that its
steps take is bounded by how deeply the syntax is nested, as long as no function is called.
A call leads to a body that may be larger than the call, but it takes one of the frames that
are left.
-/

namespace TypedImp

section Nesting

variable {τ : Type}

mutual

/-- How deeply an evaluation nests the steps in an expression, those of the functions that it
calls apart. -/
def Expr.nesting : Expr τ → Nat
  | .literal _ _ | .var _ _ => 1
  | .binary _ _ lhs rhs _ => max lhs.nesting rhs.nesting + 1
  | .unary _ _ operand _ => operand.nesting + 1
  | .call _ arguments _ _ => Expr.nestingAll arguments + 2

/-- How deeply an evaluation nests the steps in some expressions. -/
def Expr.nestingAll : List (Expr τ) → Nat
  | [] => 1
  | first :: rest => max first.nesting (Expr.nestingAll rest) + 1

end

mutual

/-- How deeply an execution nests the steps in a statement, those of the functions that it
calls and the rounds of its loops apart. -/
def Stmt.nesting : Stmt τ → Nat
  | .skip => 1
  | .block body => Stmt.nestingAll body + 1
  | .assign _ value => value.nesting + 1
  | .conditional test thenBranch elseBranch =>
    max (test.nesting + 1) (max thenBranch.nesting elseBranch.nesting) + 1
  | .loop test body => max (test.nesting + 1) body.nesting + 1
  | .call _ arguments _ => Expr.nestingAll arguments + 2
  | .giveBack value _ => value.nesting + 1

/-- How deeply an execution nests the steps in some statements. -/
def Stmt.nestingAll : List (Stmt τ) → Nat
  | [] => 1
  | first :: rest => max first.nesting (Stmt.nestingAll rest) + 1

end

/-- Whether a statement is itself a loop. -/
def Stmt.isLoop : Stmt τ → Bool
  | .loop _ _ => true
  | _ => false

/-- No loop stands in the body of a function, at any depth. -/
def NoLoops (functions : Definitions (Function τ)) : Prop :=
  ∀ function ∈ functions.toList,
    Stmt.ThroughoutAll (fun stmt => stmt.isLoop = false) function.body

instance (functions : Definitions (Function τ)) : Decidable (NoLoops functions) :=
  inferInstanceAs (Decidable (∀ function ∈ functions.toList, _))

/-- The deepest nesting in the body of a function. -/
def deepestBody (functions : Definitions (Function τ)) : Nat :=
  functions.toList.foldr (fun function deepest => max (Stmt.nestingAll function.body) deepest) 0

theorem nestingAll_le_deepestBody {functions : Definitions (Function τ)} {function : Function τ}
    (member : function ∈ functions.toList) :
    Stmt.nestingAll function.body ≤ deepestBody functions := by
  unfold deepestBody
  generalize functions.toList = definitions at member ⊢
  induction definitions with
  | nil => cases member
  | cons first rest ih =>
    rw [List.foldr_cons]
    rcases List.mem_cons.mp member with rfl | later
    · exact Nat.le_max_left _ _
    · exact Nat.le_trans (ih later) (Nat.le_max_right _ _)

end Nesting

namespace Machine

/-- The frames that are left for calls on a machine with a number of frames. -/
def room (depth : Nat) : Nat :=
  maxDepth - depth

theorem room_eq_succ {depth : Nat} (below : depth < maxDepth) :
    room depth = room (depth + 1) + 1 := by
  unfold room
  omega

end Machine

/-- The machines have the same number of frames. -/
def Machine.SameDepth (before after : Machine) : Prop :=
  after.depth = before.depth

/-- Evaluations leave as many frames as there were. -/
theorem crosses_sameDepth (functions : Definitions (Function Ty)) (fuel : Nat) :
    Crosses functions Machine.SameDepth Machine.SameDepth fuel :=
  ((crossing_frames functions).crosses fuel).mono (fun _ _ kept => kept.keepsCallers.depth)
    (fun _ _ kept => kept.depth)

open Evaluation

namespace Evaluation

variable {α β : Type} {depth : Nat}

/-- From every machine with a number of frames, an evaluation comes to an end. -/
def Lasts (depth : Nat) (evaluation : Evaluation α) : Prop :=
  ∀ machine : Machine, machine.depth = depth → (evaluation machine).1 ≠ .outOfFuel

theorem lasts_pure (value : α) : Lasts depth (pure value) :=
  fun _ _ => nofun

theorem lasts_fail (span : Span) (error : RunError) :
    Lasts depth (fail span error : Evaluation α) :=
  fun _ _ => nofun

theorem lasts_ofExcept (span : Span) (outcome : Except RunError α) :
    Lasts depth (ofExcept span outcome) := by
  cases outcome with
  | ok value => exact lasts_pure value
  | error error => exact lasts_fail span error

theorem lasts_read (name : Ident) (span : Span) : Lasts depth (read name span) := by
  intro machine _
  rw [read_apply]
  cases machine.lookup name.name <;> nofun

theorem lasts_store (target : Ident) (stored : Value) : Lasts depth (store target stored) := by
  intro machine _
  rw [store_apply]
  cases machine.assign? target.name stored <;> nofun

theorem Lasts.bind {first : Evaluation α} {next : α → Evaluation β}
    (firstLasts : Lasts depth first)
    (level : Across Machine.SameDepth first)
    (nextLasts : ∀ value, Lasts depth (next value)) : Lasts depth (first >>= next) := by
  intro machine atDepth
  have lasts := firstLasts machine atDepth
  have sameDepth := level machine lasts
  rw [bind_apply]
  generalize first machine = ended at lasts sameDepth ⊢
  obtain ⟨outcome, middle⟩ := ended
  cases outcome with
  | done value => exact nextLasts value middle (sameDepth.trans atDepth)
  | failed error => nofun
  | outOfFuel => exact absurd rfl lasts

/-- A call comes to an end if its body does on one more frame, as long as one is left. -/
theorem lasts_inFrame {function : Function Ty} {values : List Value} {span : Span}
    {body : Evaluation Completion} (bodyLasts : depth < Machine.maxDepth → Lasts (depth + 1) body) :
    Lasts depth (inFrame function values span body) := by
  intro machine atDepth
  rw [inFrame_apply]
  split
  case isTrue below =>
    have lasts := bodyLasts (atDepth ▸ below) (machine.push function values)
      (congrArg (· + 1) atDepth)
    generalize body (machine.push function values) = ended at lasts
    obtain ⟨outcome, final⟩ := ended
    cases outcome with
    | done completion => nofun
    | failed error => nofun
    | outOfFuel => exact absurd rfl lasts
  case isFalse => nofun

end Evaluation

/-- The fuel for steps that are nested to some extent and may call functions: each frame that
is left stands for one more body. -/
def fuelFor (functions : Definitions (Function Ty)) (depth nesting : Nat) : Nat :=
  nesting + Machine.room depth * (deepestBody functions + 1)

/-- With some fuel, the evaluations of syntax for which it suffices come to an end. -/
structure Suffices (functions : Definitions (Function Ty)) (fuel : Nat) : Prop where
  eval : ∀ depth expr, fuelFor functions depth (Expr.nesting expr) ≤ fuel →
    Lasts depth (Expr.eval functions fuel expr)
  evalAll : ∀ depth exprs, fuelFor functions depth (Expr.nestingAll exprs) ≤ fuel →
    Lasts depth (Expr.evalAll functions fuel exprs)
  call : ∀ depth callee arguments span,
    fuelFor functions depth (Expr.nestingAll arguments + 1) ≤ fuel →
    Lasts depth (callFunction functions fuel callee arguments span)
  test : ∀ depth test, fuelFor functions depth (Expr.nesting test + 1) ≤ fuel →
    Lasts depth (Expr.evalTest functions fuel test)
  exec : ∀ depth stmt, Stmt.Throughout (fun stmt => stmt.isLoop = false) stmt →
    fuelFor functions depth stmt.nesting ≤ fuel → Lasts depth (Stmt.exec functions fuel stmt)
  execAll : ∀ depth body, Stmt.ThroughoutAll (fun stmt => stmt.isLoop = false) body →
    fuelFor functions depth (Stmt.nestingAll body) ≤ fuel →
    Lasts depth (Stmt.execAll functions fuel body)

section Induction

variable {functions : Definitions (Function Ty)} {fuel depth : Nat}

theorem fuelFor_of_succ_le {inner outer : Nat}
    (enough : fuelFor functions depth outer ≤ fuel + 1) (nested : inner + 1 ≤ outer) :
    fuelFor functions depth inner ≤ fuel := by
  unfold fuelFor at *
  omega

/-- What is left behind the arguments of a call suffices for its body on one more frame. -/
theorem fuelFor_body {function : Function Ty} (member : function ∈ functions.toList)
    (below : depth < Machine.maxDepth) {nesting : Nat}
    (enough : fuelFor functions depth (nesting + 1) ≤ fuel + 1) :
    fuelFor functions (depth + 1) (Stmt.nestingAll function.body) ≤ fuel := by
  have bounded := nestingAll_le_deepestBody member
  unfold fuelFor at *
  rw [Machine.room_eq_succ below, Nat.succ_mul] at enough
  omega

theorem suffices_zero : Suffices functions 0 where
  eval depth expr enough := by cases expr <;> simp [fuelFor, Expr.nesting] at enough
  evalAll depth exprs enough := by cases exprs <;> simp [fuelFor, Expr.nestingAll] at enough
  call depth callee arguments span enough := by simp [fuelFor] at enough
  test depth test enough := by simp [fuelFor] at enough
  exec depth stmt _ enough := by cases stmt <;> simp [fuelFor, Stmt.nesting] at enough
  execAll depth body _ enough := by cases body <;> simp [fuelFor, Stmt.nestingAll] at enough

theorem Suffices.eval_succ (ih : Suffices functions fuel) (expr : Expr Ty)
    (enough : fuelFor functions depth expr.nesting ≤ fuel + 1) :
    Lasts depth (Expr.eval functions (fuel + 1) expr) := by
  have level := crosses_sameDepth functions fuel
  cases expr with
  | literal value span =>
    rw [Expr.eval]
    exact lasts_pure value
  | var name span =>
    rw [Expr.eval]
    exact lasts_read name span
  | binary op tag lhs rhs span =>
    rw [Expr.eval]
    rw [Expr.nesting] at enough
    apply (ih.eval depth lhs (fuelFor_of_succ_le enough (by omega))).bind (level.eval lhs)
    intro left
    apply (ih.eval depth rhs (fuelFor_of_succ_le enough (by omega))).bind (level.eval rhs)
    intro right
    exact lasts_ofExcept span _
  | unary op tag operand span =>
    rw [Expr.eval]
    rw [Expr.nesting] at enough
    apply (ih.eval depth operand (fuelFor_of_succ_le enough (by omega))).bind (level.eval operand)
    intro inner
    exact lasts_ofExcept span _
  | call callee arguments callSpan span =>
    rw [Expr.eval]
    rw [Expr.nesting] at enough
    apply (ih.call depth callee arguments callSpan
      (fuelFor_of_succ_le enough (by omega))).bind (level.call callee arguments callSpan)
    intro result?
    cases result? with
    | some result => exact lasts_pure result
    | none => exact lasts_fail span _

theorem Suffices.evalAll_succ (ih : Suffices functions fuel) (exprs : List (Expr Ty))
    (enough : fuelFor functions depth (Expr.nestingAll exprs) ≤ fuel + 1) :
    Lasts depth (Expr.evalAll functions (fuel + 1) exprs) := by
  have level := crosses_sameDepth functions fuel
  cases exprs with
  | nil =>
    rw [Expr.evalAll]
    exact lasts_pure []
  | cons first rest =>
    rw [Expr.evalAll]
    rw [Expr.nestingAll] at enough
    apply (ih.eval depth first (fuelFor_of_succ_le enough (by omega))).bind (level.eval first)
    intro value
    apply (ih.evalAll depth rest (fuelFor_of_succ_le enough (by omega))).bind
      (level.evalAll rest)
    intro values
    exact lasts_pure (value :: values)

theorem Suffices.call_succ (ih : Suffices functions fuel) (noLoops : NoLoops functions)
    (callee : Ident) (arguments : List (Expr Ty)) (span : Span)
    (enough : fuelFor functions depth (Expr.nestingAll arguments + 1) ≤ fuel + 1) :
    Lasts depth (callFunction functions (fuel + 1) callee arguments span) := by
  have level := crosses_sameDepth functions fuel
  rw [callFunction]
  cases found : functions.get? callee.name with
  | none => exact lasts_fail callee.span _
  | some function =>
    have member := Definitions.mem_of_get? found
    apply (ih.evalAll depth arguments (fuelFor_of_succ_le enough (Nat.le_refl _))).bind
      (level.evalAll arguments)
    intro values
    apply lasts_inFrame
    intro below
    exact ih.execAll (depth + 1) function.body (noLoops function member)
      (fuelFor_body member below enough)

theorem Suffices.test_succ (ih : Suffices functions fuel) (test : Expr Ty)
    (enough : fuelFor functions depth (test.nesting + 1) ≤ fuel + 1) :
    Lasts depth (Expr.evalTest functions (fuel + 1) test) := by
  have level := crosses_sameDepth functions fuel
  rw [Expr.evalTest]
  apply (ih.eval depth test (fuelFor_of_succ_le enough (Nat.le_refl _))).bind (level.eval test)
  intro value
  exact lasts_ofExcept test.span _

theorem Suffices.exec_succ (ih : Suffices functions fuel) (stmt : Stmt Ty)
    (noLoop : stmt.Throughout (fun stmt => stmt.isLoop = false))
    (enough : fuelFor functions depth stmt.nesting ≤ fuel + 1) :
    Lasts depth (Stmt.exec functions (fuel + 1) stmt) := by
  have level := crosses_sameDepth functions fuel
  cases stmt with
  | skip =>
    rw [Stmt.exec]
    exact lasts_pure Completion.normal
  | block body =>
    rw [Stmt.exec]
    rw [Stmt.nesting] at enough
    exact ih.execAll depth body noLoop.1 (fuelFor_of_succ_le enough (Nat.le_refl _))
  | assign target value =>
    rw [Stmt.exec]
    rw [Stmt.nesting] at enough
    apply (ih.eval depth value (fuelFor_of_succ_le enough (by omega))).bind (level.eval value)
    intro stored
    have storeLevel : Across Machine.SameDepth (store target stored) :=
      ((crossing_frames functions).across_store target stored).mono fun _ _ kept => kept.depth
    apply (lasts_store target stored).bind storeLevel
    intro _
    exact lasts_pure Completion.normal
  | conditional test thenBranch elseBranch =>
    rw [Stmt.exec]
    rw [Stmt.nesting] at enough
    apply (ih.test depth test (fuelFor_of_succ_le enough (by omega))).bind (level.test test)
    intro truth
    cases truth with
    | true => exact ih.exec depth thenBranch noLoop.1 (fuelFor_of_succ_le enough (by omega))
    | false => exact ih.exec depth elseBranch noLoop.2.1 (fuelFor_of_succ_le enough (by omega))
  | loop test body => exact nomatch noLoop.2
  | call callee arguments span =>
    rw [Stmt.exec]
    rw [Stmt.nesting] at enough
    apply (ih.call depth callee arguments span
      (fuelFor_of_succ_le enough (by omega))).bind (level.call callee arguments span)
    intro _
    exact lasts_pure Completion.normal
  | giveBack value span =>
    rw [Stmt.exec]
    rw [Stmt.nesting] at enough
    apply (ih.eval depth value (fuelFor_of_succ_le enough (by omega))).bind (level.eval value)
    intro result
    exact lasts_pure (Completion.returned result)

theorem Suffices.execAll_succ (ih : Suffices functions fuel) (body : List (Stmt Ty))
    (noLoop : Stmt.ThroughoutAll (fun stmt => stmt.isLoop = false) body)
    (enough : fuelFor functions depth (Stmt.nestingAll body) ≤ fuel + 1) :
    Lasts depth (Stmt.execAll functions (fuel + 1) body) := by
  have level := crosses_sameDepth functions fuel
  cases body with
  | nil =>
    rw [Stmt.execAll]
    exact lasts_pure Completion.normal
  | cons first rest =>
    rw [Stmt.execAll]
    rw [Stmt.nestingAll] at enough
    apply (ih.exec depth first noLoop.1 (fuelFor_of_succ_le enough (by omega))).bind
      (level.exec first)
    intro completion
    cases completion with
    | normal => exact ih.execAll depth rest noLoop.2 (fuelFor_of_succ_le enough (by omega))
    | returned value => exact lasts_pure (Completion.returned value)

/-- Without loops, the fuel for a piece of syntax brings its evaluation to an end. -/
theorem suffices_of_noLoops (noLoops : NoLoops functions) (fuel : Nat) :
    Suffices functions fuel := by
  induction fuel with
  | zero => exact suffices_zero
  | succ fuel ih =>
    exact {
      eval := fun _ => ih.eval_succ
      evalAll := fun _ => ih.evalAll_succ
      call := fun _ => ih.call_succ noLoops
      test := fun _ => ih.test_succ
      exec := fun _ => ih.exec_succ
      execAll := fun _ => ih.execAll_succ }

end Induction

namespace Program

variable {program : Program Ty}

/-- Fuel for the deepest body in each of the frames. -/
def recursionFuel (program : Program Ty) : Nat :=
  Machine.maxDepth * (deepestBody program.functions + 1)

/-- Without loops, a run with this fuel comes to an end. -/
theorem run_lasts (noLoops : NoLoops program.functions) :
    (program.run program.recursionFuel).outcome ≠ .outOfFuel := by
  unfold run
  cases isMain : program.main? with
  | none => nofun
  | some main =>
    have member : main ∈ program.functions.toList := Definitions.mem_of_get? isMain
    have enough : fuelFor program.functions 1 (Stmt.nestingAll main.body) ≤
        program.recursionFuel := by
      have bounded := nestingAll_le_deepestBody member
      unfold fuelFor Machine.room recursionFuel Machine.maxDepth
      omega
    have lasts := (suffices_of_noLoops noLoops program.recursionFuel).execAll 1 main.body
      (noLoops main member) enough (program.entered main) rfl
    unfold entered at lasts
    dsimp only
    generalize Stmt.execAll program.functions program.recursionFuel main.body _ = ended at lasts ⊢
    obtain ⟨outcome, final⟩ := ended
    cases outcome with
    | done completion => nofun
    | failed error => nofun
    | outOfFuel => exact absurd rfl lasts

/-- A program without loops has a run that ends, with a state or with a failure, and that is
its run with all fuel from some amount on: the number of frames bounds it. -/
theorem run_ends_of_noLoops (noLoops : NoLoops program.functions) :
    ∃ ended : Run,
      ((∃ state, ended.outcome = .done state) ∨ ∃ error, ended.outcome = .failed error) ∧
      ∀ fuel, program.recursionFuel ≤ fuel → program.run fuel = ended := by
  have lasts := run_lasts noLoops
  refine ⟨program.run program.recursionFuel, ?_, fun fuel le => program.run_of_le le lasts⟩
  cases outcome : (program.run program.recursionFuel).outcome with
  | done state => exact .inl ⟨state, rfl⟩
  | failed error => exact .inr ⟨error, rfl⟩
  | outOfFuel => exact absurd outcome lasts

/-- Two functions that call each other until no frame is left. -/
theorem run_ends_of_mutual_recursion :
    ∃ compiled,
      (compile .standard
        ("bool even(int k) \x7b bool b; b = odd(k + 1); return b; \x7d " ++
          "bool odd(int k) \x7b bool b; b = even(k + 1); return b; \x7d " ++
          "int main() \x7b bool b; b = even(0); \x7d")).outcome = .ok compiled ∧
      NoLoops compiled.specialized.functions ∧
      ∃ ended : Run,
        ended.outcome = .failed ⟨Span.ofBounds 31 41, .stackOverflow Machine.maxDepth⟩ ∧
        ((∃ state, ended.outcome = .done state) ∨ ∃ error, ended.outcome = .failed error) ∧
        ∀ fuel, compiled.specialized.recursionFuel ≤ fuel →
          compiled.specialized.run fuel = ended := by
  have tested : (compile .standard
      ("bool even(int k) \x7b bool b; b = odd(k + 1); return b; \x7d " ++
        "bool odd(int k) \x7b bool b; b = even(k + 1); return b; \x7d " ++
        "int main() \x7b bool b; b = even(0); \x7d")).outcome.toOption.any (fun compiled =>
          NoLoops compiled.specialized.functions ∧
            (compiled.specialized.run compiled.specialized.recursionFuel).outcome =
              .failed ⟨Span.ofBounds 31 41, .stackOverflow Machine.maxDepth⟩) = true := by
    decide +kernel
  obtain ⟨compiled, done, passes⟩ := exists_compiled tested
  obtain ⟨noLoops, overflows⟩ := of_decide_eq_true passes
  obtain ⟨ended, ends, lasting⟩ := run_ends_of_noLoops noLoops
  rw [lasting _ (Nat.le_refl _)] at overflows
  exact ⟨compiled, done, noLoops, ended, overflows, ends, lasting⟩

end Program

end TypedImp
