import TypedImp.Proofs.Compilation
import TypedImp.Proofs.Evaluation.Frames
import TypedImp.Proofs.Evaluation.LessDefined
import TypedImp.Proofs.Evaluation.Preservation

/-!
# Runs on more defined variables

As long as a run does not use a variable without content, it does not matter which content
the variable would have had.  Undefined values may be copied, passed and given back, and so
the results of the two runs and their machines differ in definedness only.
-/

namespace TypedImp

/-- The same names, globally and in each of the same number of frames, with less defined
values. -/
structure Machine.FramewiseLess (first second : Machine) : Prop where
  globals : State.LessDefined first.globals second.globals
  frames : List.Forall₂ State.LessDefined first.frames second.frames

namespace Machine.FramewiseLess

variable {first second : Machine}

theorem depth (related : first.FramewiseLess second) : first.depth = second.depth :=
  related.frames.length_eq

theorem innermost (related : first.FramewiseLess second) :
    State.LessDefined first.innermost second.innermost := by
  have frames := related.frames
  unfold Machine.innermost
  generalize first.frames = entered, second.frames = entered' at frames
  cases frames with
  | nil => exact fun _ => .none
  | cons frame _ => exact frame

theorem tail (related : first.FramewiseLess second) :
    List.Forall₂ State.LessDefined first.frames.tail second.frames.tail := by
  have frames := related.frames
  generalize first.frames = entered, second.frames = entered' at frames
  cases frames with
  | nil => exact .nil
  | cons _ rest => exact rest

theorem lookup (related : first.FramewiseLess second) (name : String) :
    Option.Rel Value.LessDefined (first.lookup name) (second.lookup name) :=
  Machine.rel_lookup related.innermost related.globals name

end Machine.FramewiseLess

/-- Two logs begin with the same events, and go on with the given ones. -/
def SameEvents (earlier earlier' log log' : List CallEvent) : Prop :=
  ∃ events, log = events ++ earlier ∧ log' = events ++ earlier'

theorem SameEvents.cons {earlier earlier' log log' : List CallEvent}
    (same : SameEvents earlier earlier' log log') (event : CallEvent) :
    SameEvents earlier earlier' (event :: log) (event :: log') := by
  obtain ⟨events, rfl, rfl⟩ := same
  exact ⟨event :: events, rfl, rfl⟩

/-- The comparison of a run with one on more defined variables, which has made the same calls
since the two logs. -/
def monotoneComparison (earlier earlier' : List CallEvent) : Comparison where
  values := Value.LessDefined
  machines := fun _ first second =>
    first.FramewiseLess second ∧ SameEvents earlier earlier' first.log second.log
  excused := fun ending _ => ∃ span ty, ending = .failed ⟨span, .value (.undefined ty)⟩
  fuels := Eq
  not_excused_done := nofun
  excused_first := fun excuse _ => excuse
  excused_second := nofun
  fuels_pred := Nat.succ.inj
  fuels_zero_succ := nofun
  fuels_succ_zero := nofun
  values_refl := Value.LessDefined.refl
  eq_or_undefined := by
    rintro first second (same | ⟨ty, isUndefined⟩)
    · exact .inl same
    · exact .inr ⟨ty, isUndefined, fun span _ => ⟨span, ty, rfl⟩⟩
  lookup := fun related => related.1.lookup
  assign := by
    rintro _ first second stored stored' ⟨related, events⟩ values name
    apply Machine.rel_assign? (related.innermost.contains_eq name)
      (related.globals.contains_eq name)
    · intro _ _
      exact ⟨⟨related.globals, .cons (related.innermost.replace values name) related.tail⟩, events⟩
    · exact ⟨⟨related.globals.replace values name, related.frames⟩, events⟩
  push := by
    rintro _ first second function function' passed passed' ⟨related, events⟩ sameFrame values
    refine ⟨⟨related.globals, .cons ?_ related.frames⟩, ?_⟩
    · rw [sameFrame.frame]
      exact .frame function' values
    · simp only [Machine.push, sameFrame.name, related.depth]
      exact events.cons _
  pop := by
    rintro _ first second ⟨related, events⟩
    refine ⟨⟨related.globals, related.tail⟩, ?_⟩
    simp only [Machine.pop, related.depth]
    exact events.cons _
  room := fun related => .inl (by rw [related.1.depth])

/-- The same end: one failure at one place, or results that are related. -/
inductive Outcome.Rel {α : Type} (results : α → α → Prop) : Outcome α → Outcome α → Prop where
  | done {result result' : α} (related : results result result') :
      Rel results (.done result) (.done result')
  | failed (error : Spanned RunError) : Rel results (.failed error) (.failed error)

/-- An evaluation has come to an end, and not by the use of a variable without content. -/
structure Outcome.EndsDefined {α : Type} (outcome : Outcome α) : Prop where
  lasts : outcome ≠ .outOfFuel
  defined : ∀ span ty, outcome ≠ .failed ⟨span, .value (.undefined ty)⟩

/-- From two machines an evaluation takes the same course: it ends in the same way, with
related results, the machines behind it differ in definedness only, and it has made the same
calls. -/
structure SameCourse {α : Type} (results : α → α → Prop) (evaluation : Evaluation α)
    (first second : Machine) : Prop where
  outcome : Outcome.Rel results (evaluation first).1 (evaluation second).1
  machines : (evaluation first).2.FramewiseLess (evaluation second).2
  calls : SameEvents first.log second.log (evaluation first).2.log (evaluation second).2.log

theorem sameCourse_of_agrees {α : Type} {results : α → α → Prop} {evaluation : Evaluation α}
    {first second : Machine} (related : first.FramewiseLess second)
    (agrees : (monotoneComparison first.log second.log).Agrees 0 results evaluation evaluation)
    (defined : (evaluation first).1.EndsDefined) :
    SameCourse results evaluation first second := by
  have ends := agrees first second ⟨related, [], rfl, rfl⟩
  have course : Outcome.Rel results (evaluation first).1 (evaluation second).1 ∧
      (evaluation first).2.FramewiseLess (evaluation second).2 ∧
      SameEvents first.log second.log (evaluation first).2.log (evaluation second).2.log := by
    generalize evaluation first = firstEnd, evaluation second = secondEnd at ends defined
    cases ends with
    | done machines related => exact ⟨.done related, machines⟩
    | failed machines => exact ⟨.failed _, machines⟩
    | outOfFuel => exact absurd rfl defined.lasts
    | @excused outcome _ _ _ excuse =>
      obtain ⟨span, ty, reads⟩ := excuse
      cases outcome with
      | done => cases reads
      | failed error =>
        cases reads
        exact absurd rfl (defined.defined span ty)
      | outOfFuel => cases reads
  exact ⟨course.1, course.2.1, course.2.2⟩

/-- If a statement, or the statements of a block, come to an end without the use of a variable
that has no content, they take the same course on more defined variables. -/
theorem sameCourse_of_framewiseLess (functions : Definitions (Function Ty)) (fuel : Nat)
    {first second : Machine} (related : first.FramewiseLess second) :
    (∀ stmt, (Stmt.exec functions fuel stmt first).1.EndsDefined →
      SameCourse (Completion.Rel Value.LessDefined) (Stmt.exec functions fuel stmt)
        first second) ∧
    ∀ body, (Stmt.execAll functions fuel body first).1.EndsDefined →
      SameCourse (Completion.Rel Value.LessDefined) (Stmt.execAll functions fuel body)
        first second := by
  have lockstep := Comparison.lockstep
    ((monotoneComparison first.log second.log).calls_self functions) (Eq.refl fuel)
  exact ⟨fun stmt => sameCourse_of_agrees related (lockstep.exec 0 stmt),
    fun body => sameCourse_of_agrees related (lockstep.execAll 0 body)⟩

/-- A value for a global variable makes the machine that a run starts with more defined. -/
theorem Program.framewiseLess_entered (program : Program Ty) (main : Function Ty)
    (name : String) (value : Value) :
    (program.entered main).FramewiseLess
      { program.entered main with
        globals := (program.entered main).globals.replace name value } where
  globals := by
    apply State.LessDefined.undefined
    intro other
    have names := State.SameNames.replace (State.undefined program.globals) name value other
    exact names.symm.trans (by simp [NameMap.contains])
  frames := List.forall₂_same.mpr fun frame _ => .refl frame

/-- A run that passes a global variable without content to a function and copies what it gives
back, beside the same run on a variable with content. -/
theorem sameCourse_of_copied_global :
    ∃ compiled main,
      (compile .standard
        ("int n; int copy(int m) \x7b return m; \x7d " ++
          "int main() \x7b int a; a = copy(n); if (true) n = a; \x7d")).outcome =
        .ok compiled ∧
      compiled.specialized.main? = some main ∧
      let first := compiled.specialized.entered main
      let second := { first with globals := first.globals.replace "n" (.int 3) }
      let run := Stmt.execAll compiled.specialized.functions 20 main.body
      first.lookup "n" = some (.undefined .int) ∧ second.lookup "n" = some (.int 3) ∧
        first.FramewiseLess second ∧ (run first).1.EndsDefined ∧
        SameCourse (Completion.Rel Value.LessDefined) run first second := by
  have tested : (compile .standard
      ("int n; int copy(int m) \x7b return m; \x7d " ++
        "int main() \x7b int a; a = copy(n); if (true) n = a; \x7d")).outcome.toOption.any
      (fun compiled => compiled.specialized.main?.any fun main =>
        let first := compiled.specialized.entered main
        let second := { first with globals := first.globals.replace "n" (.int 3) }
        first.lookup "n" = some (.undefined .int) ∧ second.lookup "n" = some (.int 3) ∧
          (Stmt.execAll compiled.specialized.functions 20 main.body first).1 =
            .done .normal) = true := by
    decide +kernel
  obtain ⟨compiled, done, found⟩ := exists_compiled tested
  obtain ⟨main, isMain, passes⟩ := (Option.any_eq_true _ _).mp found
  obtain ⟨before, after, ends⟩ := of_decide_eq_true passes
  have related := compiled.specialized.framewiseLess_entered main "n" (.int 3)
  have defined : (Stmt.execAll compiled.specialized.functions 20 main.body
      (compiled.specialized.entered main)).1.EndsDefined := by
    rw [ends]
    exact ⟨nofun, nofun⟩
  exact ⟨compiled, main, done, isMain, before, after, related, defined,
    (sameCourse_of_framewiseLess _ 20 related).2 main.body defined⟩

end TypedImp
