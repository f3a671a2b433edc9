import Mathlib.Data.List.Forall2
import TypedImp.Proofs.Evaluation.Across
import TypedImp.Proofs.Program.Nodes

/-!
# Frames

What an evaluation leaves as it was, whether it ends with a result or with a failure.
Expressions and calls change no frame, and of the global variables they change the values
only.  Statements write into the innermost frame as well, and no evaluation changes which
names are bound.  `frameDiscipline` says this together with what an assignment changes.
-/

namespace TypedImp

/-- The same names are bound. -/
def State.SameNames (first second : State) : Prop :=
  ∀ name, first.contains name = second.contains name

namespace State.SameNames

variable {first second third : State}

theorem refl (state : State) : State.SameNames state state :=
  fun _ => rfl

theorem trans (before : State.SameNames first second) (after : State.SameNames second third) :
    State.SameNames first third :=
  fun name => (before name).trans (after name)

theorem replace (state : State) (name : String) (value : Value) :
    State.SameNames state (state.replace name value) := by
  intro other
  rw [NameMap.contains, NameMap.contains, NameMap.get?_replace]
  split
  case isTrue => rw [Option.isSome_map]
  case isFalse => rfl

end State.SameNames

namespace Machine

/-- All frames are as before, and the same global names are bound. -/
structure KeepsFrames (before after : Machine) : Prop where
  frames : after.frames = before.frames
  globals : before.globals.SameNames after.globals

/-- The frames below the innermost one are as before, and the same names are bound, global
ones and those of each frame. -/
structure KeepsCallers (before after : Machine) : Prop where
  below : after.frames.tail = before.frames.tail
  frames : List.Forall₂ State.SameNames before.frames after.frames
  globals : before.globals.SameNames after.globals

/-- A value was stored in the variable of a name: in that of the innermost frame if there is
one, and else in the global one.  Everything else is as before. -/
structure Stores (name : String) (stored : Value) (before after : Machine) : Prop where
  innermost : ∀ other, after.innermost.get? other =
    if other = name ∧ before.innermost.contains name then some stored
    else before.innermost.get? other
  globals : ∀ other, after.globals.get? other =
    if other = name ∧ ¬ before.innermost.contains name then some stored
    else before.globals.get? other
  below : after.frames.tail = before.frames.tail
  depth : after.depth = before.depth
  log : after.log = before.log

theorem forall₂_sameNames_refl (frames : List State) :
    List.Forall₂ State.SameNames frames frames :=
  List.forall₂_same.mpr fun frame _ => .refl frame

theorem forall₂_sameNames_trans {first second third : List State}
    (before : List.Forall₂ State.SameNames first second)
    (after : List.Forall₂ State.SameNames second third) :
    List.Forall₂ State.SameNames first third := by
  induction before generalizing third with
  | nil => exact after
  | cons names _ ih =>
    cases after with
    | cons names' rest => exact .cons (names.trans names') (ih rest)

namespace KeepsFrames

variable {first second third : Machine}

theorem refl (machine : Machine) : KeepsFrames machine machine :=
  ⟨rfl, .refl _⟩

theorem trans (before : KeepsFrames first second) (after : KeepsFrames second third) :
    KeepsFrames first third :=
  ⟨after.frames.trans before.frames, before.globals.trans after.globals⟩

theorem keepsCallers (kept : KeepsFrames first second) : KeepsCallers first second where
  below := congrArg List.tail kept.frames
  frames := kept.frames ▸ forall₂_sameNames_refl first.frames
  globals := kept.globals

end KeepsFrames

namespace KeepsCallers

variable {first second third : Machine}

theorem trans (before : KeepsCallers first second) (after : KeepsCallers second third) :
    KeepsCallers first third where
  below := after.below.trans before.below
  frames := forall₂_sameNames_trans before.frames after.frames
  globals := before.globals.trans after.globals

theorem depth (kept : KeepsCallers first second) : second.depth = first.depth :=
  kept.frames.length_eq.symm

/-- Behind a body that keeps the frames below its own, a call has changed no frame. -/
theorem pop {machine final : Machine} {function : Function Ty} {values : List Value}
    (kept : KeepsCallers (machine.push function values) final) :
    KeepsFrames machine final.pop where
  frames := kept.below
  globals := kept.globals

end KeepsCallers

section Assignments

variable {machine assigned : Machine} {name : String} {value : Value}

theorem innermost_cons_tail (bound : machine.innermost.contains name = true) :
    machine.innermost :: machine.frames.tail = machine.frames := by
  unfold innermost at bound ⊢
  cases frames : machine.frames with
  | nil =>
    rw [frames] at bound
    cases bound
  | cons frame below => rfl

/-- An assignment replaces a value in the innermost frame or, if the name is not bound
there, in the global variables. -/
theorem assign?_eq_ite (machine : Machine) (name : String) (value : Value) :
    machine.assign? name value =
      if machine.innermost.contains name then
        some { machine with
          frames := machine.innermost.replace name value :: machine.frames.tail }
      else machine.assignGlobal? name value := by
  unfold assign? innermost
  split
  case h_1 frame below frames => rw [frames, List.headD_cons, List.tail_cons]
  case h_2 frames =>
    rw [frames]
    rfl

/-- Two assignments to a name that is bound at the same place of two machines leave related
machines behind if the replacements at both places do. -/
theorem rel_assign? {related : Machine → Machine → Prop} {first second : Machine}
    {stored stored' : Value}
    (sameFrame : first.innermost.contains name = second.innermost.contains name)
    (sameGlobal : first.globals.contains name = second.globals.contains name)
    (inFrame : first.innermost.contains name = true → second.innermost.contains name = true →
      related { first with frames := first.innermost.replace name stored :: first.frames.tail }
        { second with frames := second.innermost.replace name stored' :: second.frames.tail })
    (inGlobals : related { first with globals := first.globals.replace name stored }
      { second with globals := second.globals.replace name stored' }) :
    Option.Rel related (first.assign? name stored) (second.assign? name stored') := by
  rw [assign?_eq_ite, assign?_eq_ite, assignGlobal?, assignGlobal?, ← sameFrame, ← sameGlobal]
  split
  case isTrue bound => exact .some (inFrame bound (sameFrame.symm.trans bound))
  case isFalse =>
    split
    case isTrue => exact .some inGlobals
    case isFalse => exact .none

theorem cases_of_assign? (done : machine.assign? name value = some assigned) :
    (machine.innermost.contains name = true ∧
      assigned =
        { machine with frames := machine.innermost.replace name value :: machine.frames.tail }) ∨
    (machine.innermost.contains name = false ∧ machine.globals.contains name = true ∧
      assigned = { machine with globals := machine.globals.replace name value }) := by
  rw [assign?_eq_ite] at done
  split at done
  case isTrue bound => exact .inl ⟨bound, (Option.some.inj done).symm⟩
  case isFalse hidden =>
    unfold assignGlobal? at done
    split at done
    case isTrue bound =>
      exact .inr ⟨Bool.eq_false_iff.mpr hidden, bound, (Option.some.inj done).symm⟩
    case isFalse => cases done

theorem keepsCallers_assign? (done : machine.assign? name value = some assigned) :
    KeepsCallers machine assigned := by
  rcases cases_of_assign? done with ⟨bound, rfl⟩ | ⟨_, _, rfl⟩
  · refine ⟨rfl, ?_, .refl _⟩
    rw [← innermost_cons_tail bound]
    exact .cons (.replace _ name value) (forall₂_sameNames_refl _)
  · exact ⟨rfl, forall₂_sameNames_refl _, .replace _ name value⟩

theorem stores_assign? (done : machine.assign? name value = some assigned) :
    machine.Stores name value assigned := by
  have depth := (keepsCallers_assign? done).depth
  rcases cases_of_assign? done with ⟨bound, rfl⟩ | ⟨hidden, bound, rfl⟩
  · obtain ⟨old, found⟩ := Option.isSome_iff_exists.mp bound
    refine ⟨fun other => ?_, fun other => ?_, rfl, depth, rfl⟩
    · change (machine.innermost.replace name value).get? other = _
      rw [NameMap.get?_replace]
      by_cases same : other = name
      · simp [same, bound, found]
      · simp [same]
    · simp [bound]
  · obtain ⟨old, found⟩ := Option.isSome_iff_exists.mp bound
    refine ⟨fun other => ?_, fun other => ?_, rfl, depth, rfl⟩
    · change machine.innermost.get? other = _
      simp [hidden]
    · rw [NameMap.get?_replace]
      by_cases same : other = name
      · simp [same, hidden, found]
      · simp [same]

end Assignments

end Machine

/-- Expressions and calls change no frame, and statements none below the innermost one. -/
theorem crossing_frames (functions : Definitions (Function Ty)) :
    Crossing functions Machine.KeepsFrames Machine.KeepsCallers where
  refl := .refl
  reading_trans _ _ _ := .trans
  writing_trans _ _ _ := .trans
  writing_of_reading _ _ kept := kept.keepsCallers
  assign := Machine.keepsCallers_assign?
  call _ _ _ kept := kept.pop

/-- Whether an expression is itself a call. -/
def Expr.isCall {τ : Type} : Expr τ → Bool
  | .call .. => true
  | _ => false

open Evaluation

/-- Without calls, an expression only reads the machine. -/
theorem across_eval_of_noCall (functions : Definitions (Function Ty)) (fuel : Nat)
    {expr : Expr Ty} (noCall : expr.Every (fun node => node.isCall = false)) :
    Across Eq (Expr.eval functions fuel expr) := by
  have refl (machine : Machine) : machine = machine := rfl
  have trans (first second third : Machine) (before : first = second) (after : second = third) :
      first = third := before.trans after
  induction fuel generalizing expr with
  | zero =>
    rw [Expr.eval]
    exact across_stuck
  | succ fuel ih =>
    cases expr with
    | literal value span =>
      rw [Expr.eval]
      exact across_pure refl value
    | var name span =>
      rw [Expr.eval]
      exact across_read refl name span
    | binary op tag lhs rhs span =>
      rw [Expr.eval]
      apply Across.bind trans (ih noCall.1)
      intro left
      apply Across.bind trans (ih noCall.2.1)
      intro right
      exact across_ofExcept refl span _
    | unary op tag operand span =>
      rw [Expr.eval]
      apply Across.bind trans (ih noCall.1)
      intro inner
      exact across_ofExcept refl span _
    | call callee arguments callSpan span => exact nomatch noCall.2

/-- How an assignment ends behind the evaluation of its value.  A failure of the value is
that of the assignment, and a name that is not bound makes it fail on the same machine. -/
inductive AssignmentEnds (target : Ident) :
    Outcome Value × Machine → Outcome Completion × Machine → Prop where
  | stored {value : Value} {middle final : Machine} (bound : middle.lookup target.name ≠ none)
      (stores : middle.Stores target.name value final) :
      AssignmentEnds target (.done value, middle) (.done .normal, final)
  | unbound {value : Value} {middle : Machine} (unbound : middle.lookup target.name = none) :
      AssignmentEnds target (.done value, middle)
        (.failed ⟨target.span, .unboundVariable target.name⟩, middle)
  | failed {error : Spanned RunError} {middle : Machine} :
      AssignmentEnds target (.failed error, middle) (.failed error, middle)
  | outOfFuel {middle : Machine} :
      AssignmentEnds target (.outOfFuel, middle) (.outOfFuel, middle)

theorem assignmentEnds_exec (functions : Definitions (Function Ty)) (fuel : Nat)
    (target : Ident) (value : Expr Ty) (machine : Machine) :
    AssignmentEnds target (Expr.eval functions fuel value machine)
      (Stmt.exec functions (fuel + 1) (.assign target value) machine) := by
  rw [Stmt.exec, bind_apply]
  generalize Expr.eval functions fuel value machine = ended
  obtain ⟨outcome, middle⟩ := ended
  cases outcome with
  | done stored =>
    change AssignmentEnds target _ ((store target stored >>= fun _ => pure .normal) middle)
    rw [bind_apply, store_apply]
    cases assigned : middle.assign? target.name stored with
    | none => exact .unbound ((middle.assign?_eq_none_iff _ _).mp assigned)
    | some final =>
      refine .stored (fun unbound => ?_) (Machine.stores_assign? assigned)
      rw [(middle.assign?_eq_none_iff _ stored).mpr unbound] at assigned
      cases assigned
  | failed error => exact .failed
  | outOfFuel => exact .outOfFuel

/-- What evaluations leave as it was.  Unless it runs out of fuel, an evaluation keeps to
these rules whether it gives a result or fails. -/
structure FrameDiscipline (functions : Definitions (Function Ty)) (fuel : Nat) : Prop where
  eval : ∀ expr, Across Machine.KeepsFrames (Expr.eval functions fuel expr)
  arguments : ∀ exprs, Across Machine.KeepsFrames (Expr.evalAll functions fuel exprs)
  test : ∀ test, Across Machine.KeepsFrames (Expr.evalTest functions fuel test)
  call : ∀ callee arguments span,
    Across Machine.KeepsFrames (callFunction functions fuel callee arguments span)
  exec : ∀ stmt, Across Machine.KeepsCallers (Stmt.exec functions fuel stmt)
  execAll : ∀ body, Across Machine.KeepsCallers (Stmt.execAll functions fuel body)
  noCall : ∀ expr : Expr Ty, expr.Every (fun node => node.isCall = false) →
    Across Eq (Expr.eval functions fuel expr)
  assignment : ∀ target value machine,
    AssignmentEnds target (Expr.eval functions fuel value machine)
      (Stmt.exec functions (fuel + 1) (.assign target value) machine)

/-- Every evaluation keeps to the frame discipline, from every machine. -/
theorem frameDiscipline (functions : Definitions (Function Ty)) (fuel : Nat) :
    FrameDiscipline functions fuel := by
  have crosses := (crossing_frames functions).crosses fuel
  exact {
    eval := crosses.eval
    arguments := crosses.evalAll
    test := crosses.test
    call := crosses.call
    exec := crosses.exec
    execAll := crosses.execAll
    noCall := fun _ noCall => across_eval_of_noCall functions fuel noCall
    assignment := assignmentEnds_exec functions fuel }

end TypedImp
