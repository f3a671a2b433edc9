import TypedImp.Pipeline
import TypedImp.Proofs.Grammar.ProgramReading
import TypedImp.Proofs.Specialization.Elaboration

/-!
# Compiling sources

What the stages of a compilation that succeeds say together, and which of them can fail.
-/

namespace TypedImp

namespace Recorded

variable {ω ω' ε ε' α : Type}

@[simp]
theorem outcome_mapEvents (f : ω → ω') (computation : Recorded ω ε α) :
    (computation.mapEvents f).outcome = computation.outcome :=
  rfl

@[simp]
theorem outcome_mapError_eq_ok_iff {f : ε → ε'} {computation : Recorded ω ε α} {result : α} :
    (computation.mapError f).outcome = .ok result ↔ computation.outcome = .ok result := by
  obtain ⟨events, outcome⟩ := computation
  cases outcome <;> simp [mapError, Except.mapError]

@[simp]
theorem outcome_mapError_eq_error_iff {f : ε → ε'} {computation : Recorded ω ε α}
    {error : ε'} :
    (computation.mapError f).outcome = .error error ↔
      ∃ inner, computation.outcome = .error inner ∧ f inner = error := by
  obtain ⟨events, outcome⟩ := computation
  cases outcome <;> simp [mapError, Except.mapError]

theorem bind_outcome_eq_error_iff {β : Type} {first : Recorded ω ε α}
    {next : α → Recorded ω ε β} {error : ε} :
    (first >>= next).outcome = .error error ↔
      first.outcome = .error error ∨
        ∃ middle, first.outcome = .ok middle ∧ (next middle).outcome = .error error := by
  obtain ⟨events, outcome⟩ := first
  cases outcome <;> simp

end Recorded

/-- A result that passes a test is there. -/
theorem exists_of_any {ε α : Type} {outcome : Except ε α} {passes : α → Bool}
    (tested : outcome.toOption.any passes = true) :
    ∃ result, outcome = .ok result ∧ passes result = true := by
  cases outcome with
  | error error => cases tested
  | ok result => exact ⟨result, rfl, tested⟩

/-- A source of which the compiled program passes a test is compiled. -/
theorem exists_compiled {config : Config} {source : String} {passes : Compiled → Bool}
    (tested : (compile config source).outcome.toOption.any passes = true) :
    ∃ compiled, (compile config source).outcome = .ok compiled ∧ passes compiled = true :=
  exists_of_any tested

/-- A source is compiled if it is read, checked and specialized. -/
theorem compile_eq_ok_iff {config : Config} {source : String} {compiled : Compiled} :
    (compile config source).outcome = .ok compiled ↔
      compiled.tokens = (Lexed.ofSource source).all ∧
      (Program.ofLexed (.ofSource source)).outcome = .ok compiled.program ∧
      (compiled.program.check config).outcome = .ok () ∧
      compiled.types = .ofDeclarations compiled.program.globals ∧
      (compiled.program.specialize compiled.types).outcome = .ok compiled.specialized := by
  obtain ⟨tokens, program, types, specialized⟩ := compiled
  simp only [compile, Recorded.bind_outcome_eq_ok_iff, Recorded.outcome_mapError_eq_ok_iff,
    Recorded.outcome_mapEvents, Recorded.record, Recorded.pure_eq, Except.ok.injEq,
    Compiled.mk.injEq]
  constructor
  · rintro ⟨_, read, _, _, _, checked, _, _, _, done, rfl, rfl, rfl, rfl⟩
    exact ⟨rfl, read, checked, rfl, done⟩
  · rintro ⟨rfl, read, checked, rfl, done⟩
    exact ⟨program, read, (), trivial, (), checked, (), trivial, specialized, done, rfl, rfl,
      rfl, rfl⟩

/-- A compiled program keeps the rules of the grammar and of typing. -/
theorem elaborates_of_compile {config : Config} {source : String} {compiled : Compiled}
    (done : (compile config source).outcome = .ok compiled) :
    Grammar.Sentence (Lexed.ofSource source).tokens compiled.program.tree ∧
      compiled.program.tree.Admissible ∧
      ProgramElaborates compiled.program compiled.specialized := by
  obtain ⟨_, read, checked, typesEq, specialized⟩ := compile_eq_ok_iff.mp done
  obtain ⟨_, sentence, _, admissible⟩ := Grammar.ofLexed_eq_ok_iff.mp read
  obtain ⟨program, programDone, elaborates⟩ := Program.elaborates_of_check checked
  rw [typesEq, programDone] at specialized
  cases specialized
  exact ⟨sentence, admissible, elaborates⟩

/-- A source that cannot be compiled is refused when it is read or when it is checked. -/
theorem error_of_compile {config : Config} {source : String} {failure : Failure}
    (failed : (compile config source).outcome = .error failure) :
    (∃ error, (Program.ofLexed (.ofSource source)).outcome = .error error ∧
        failure = .parsing error) ∨
      ∃ program error, (Program.ofLexed (.ofSource source)).outcome = .ok program ∧
        (program.check config).outcome = .error error ∧ failure = .typing error := by
  simp only [compile, Recorded.bind_outcome_eq_error_iff, Recorded.outcome_mapError_eq_ok_iff,
    Recorded.outcome_mapError_eq_error_iff, Recorded.outcome_mapEvents, Recorded.record,
    Recorded.pure_eq, reduceCtorEq, and_false, exists_false, false_or, or_false] at failed
  rcases failed with ⟨error, refused, rfl⟩ | ⟨program, read, _, _, ⟨error, refused, rfl⟩ |
    ⟨_, checked, _, _, error, failed, rfl⟩⟩
  · exact .inl ⟨error, refused, rfl⟩
  · exact .inr ⟨program, error, read, refused, rfl⟩
  · obtain ⟨specialized, done, _⟩ := Program.elaborates_of_check checked
    rw [done] at failed
    cases failed

/-- A source that cannot be compiled breaks the rules of the syntax or of typing. -/
theorem failure_of_compile {config : Config} {source : String} {failure : Failure}
    (failed : (compile config source).outcome = .error failure) :
    (∃ error, failure = .parsing error) ∨ ∃ error, failure = .typing error := by
  rcases error_of_compile failed with ⟨error, _, rfl⟩ | ⟨_, error, _, _, rfl⟩
  · exact .inl ⟨error, rfl⟩
  · exact .inr ⟨error, rfl⟩

end TypedImp
