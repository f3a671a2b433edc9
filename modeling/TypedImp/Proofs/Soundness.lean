import TypedImp.Proofs.Evaluation.Soundness

/-!
# Soundness of the whole

What can come of running a source, whatever it is.
-/

namespace TypedImp

/-- A state has the global variables and the local variables of a function, each with a
value of its type.  A local variable hides a global one. -/
def State.Declared (program : Program Unit) (function : Function Unit) (state : State) : Prop :=
  ∀ name, (state.get? name).map Value.ty =
    ((function.locals.get? name).or (program.globals.get? name)).map Declaration.ty

/-- The ends of a run that the typing rules leave. -/
inductive SoundEnd (config : Config) (source : String) : Except Interruption Artifacts → Prop where
  | parsing {error : Spanned SyntaxError} :
      SoundEnd config source (.error (.failure (.parsing error)))
  | typing {error : Spanned TypeError} :
      SoundEnd config source (.error (.failure (.typing error)))
  | running {error : Spanned RunError} (expected : error.content.Expected) :
      SoundEnd config source (.error (.failure (.running error)))
  | done {artifacts : Artifacts} {main : Function Unit}
      (compiled : (compile config source).outcome = .ok artifacts.compiled)
      (isMain : artifacts.compiled.program.main? = some main)
      (declared : artifacts.state.Declared artifacts.compiled.program main) :
      SoundEnd config source (.ok artifacts)
  | outOfFuel {compiled : Compiled} (done : (compile config source).outcome = .ok compiled) :
      SoundEnd config source (.error .outOfFuel)

theorem declared_merge {program : Program Unit} {specialized : Program Ty}
    (sameGlobals : specialized.globals = program.globals) {main : Function Unit}
    {body : List (Stmt Ty)} (noParams : main.params.isEmpty = true) {machine : Machine}
    (typed : MachineTyped specialized (main.withBody body) [] machine) :
    State.Declared program main (machine.globals.merge machine.innermost) := by
  intro name
  have noParam : (main.withBody body).params.get? name = none :=
    Definitions.get?_of_isEmpty noParams name
  rw [NameMap.get?_merge, Option.map_or, typed.innermost name, typed.globals name, noParam,
    sameGlobals, Option.map_or]
  rfl

/-- A compiled program that ends gives a state with the declared variables, or fails as
expected. -/
theorem outcome_of_run {program : Program Unit} {specialized : Program Ty}
    (admissible : program.tree.Admissible)
    (elaborates : ProgramElaborates program specialized) (fuel : Nat) :
    match (specialized.run fuel).outcome with
    | .done state => ∃ main, program.main? = some main ∧ state.Declared program main
    | .failed error => error.content.Expected
    | .outOfFuel => True := by
  obtain ⟨main, isMain, noParams⟩ := elaborates.main
  obtain ⟨body, isMain', related⟩ := elaborates.exists_specialized isMain
  have ends := endsTyped_main admissible elaborates isMain' noParams fuel
  unfold Program.run
  rw [Program.main?, isMain']
  dsimp only
  change EndsTyped specialized (main.withBody body) (Stmt.execAll _ _ _
    ((Machine.start specialized).push (main.withBody body) [])) at ends
  generalize Stmt.execAll _ _ _ _ = final at ends
  obtain ⟨outcome, final⟩ := final
  cases outcome with
  | done completion => exact ⟨main, isMain, declared_merge elaborates.globals noParams ends⟩
  | failed error => exact ends
  | outOfFuel => trivial

/-- Once a source is compiled, its run ends like that of the compiled program. -/
theorem outcome_of_compile {config : Config} {source : String} {compiled : Compiled}
    (compilation : (compile config source).outcome = .ok compiled) (fuel : Nat) :
    (run config fuel source).outcome =
      match (compiled.specialized.run fuel).outcome with
      | .done state => .ok ⟨compiled, state⟩
      | .failed error => .error (.failure (.running error))
      | .outOfFuel => .error .outOfFuel := by
  rw [run]
  generalize compile config source = computation at compilation
  obtain ⟨events, outcome⟩ := computation
  obtain rfl : outcome = .ok compiled := compilation
  simp only [Recorded.mapError, Except.mapError, Recorded.mk_ok_bind, Program.evaluate]
  cases (compiled.specialized.run fuel).outcome <;> rfl

/-- Whatever the source and the configuration, a run that ends gives a syntax error, a
typing error, one of four failures, or a state with the declared variables. -/
theorem run_sound (config : Config) (fuel : Nat) (source : String) :
    SoundEnd config source (run config fuel source).outcome := by
  cases compilation : (compile config source).outcome with
  | error failure =>
    have failed : (run config fuel source).outcome = .error (.failure failure) := by
      rw [run, Recorded.bind_outcome_eq_error_iff, Recorded.outcome_mapError_eq_error_iff]
      exact .inl ⟨failure, compilation, rfl⟩
    rw [failed]
    rcases failure_of_compile compilation with ⟨error, rfl⟩ | ⟨error, rfl⟩
    · exact .parsing
    · exact .typing
  | ok compiled =>
    obtain ⟨_, admissible, elaborates⟩ := elaborates_of_compile compilation
    have ends := outcome_of_run admissible elaborates fuel
    rw [outcome_of_compile compilation]
    cases ended : (compiled.specialized.run fuel).outcome with
    | done state =>
      rw [ended] at ends
      obtain ⟨main, isMain, declared⟩ := ends
      exact .done compilation isMain declared
    | failed error =>
      rw [ended] at ends
      exact .running ends
    | outOfFuel => exact .outOfFuel compilation

end TypedImp
