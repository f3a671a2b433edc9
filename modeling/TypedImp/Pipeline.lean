import TypedImp.Diagnostic
import TypedImp.Evaluation.Run
import TypedImp.Event
import TypedImp.Specialization.Program

/-!
# From the source to the final state

A source is scanned, read, checked and specialized; the specialized program is run.  The
first stage that fails ends the whole, and the events up to there remain.
-/

namespace TypedImp

/-- What is known of a source that can be run. -/
structure Compiled where
  tokens : List Token
  program : Program Unit
  types : TypeMap
  specialized : Program Ty

/-- Scan, read, check and specialize a source. -/
def compile (config : Config) (source : String) : Recorded Event Failure Compiled := do
  let lexed := Lexed.ofSource source
  let program ← ((Program.ofLexed lexed).mapEvents .registered).mapError .parsing
  Recorded.record (.parsed lexed.all.length)
  ((program.check config).mapEvents .checking).mapError .typing
  let types := TypeMap.ofDeclarations program.globals
  Recorded.record (.checked types.size)
  let specialized ← ((program.specialize types).mapEvents .specialized).mapError .specialization
  return ⟨lexed.all, program, types, specialized⟩

/-- Why there is no final state. -/
inductive Interruption where
  | failure (failure : Failure)
  | outOfFuel
  deriving DecidableEq

/-- Run a specialized program. -/
def Program.evaluate (program : Program Ty) (fuel : Nat) :
    Recorded Event Interruption State :=
  let run := program.run fuel
  ⟨run.log.map .call,
    match run.outcome with
    | .done state => .ok state
    | .failed error => .error (.failure (.running error))
    | .outOfFuel => .error .outOfFuel⟩

/-- What is known of a source that was run. -/
structure Artifacts where
  compiled : Compiled
  state : State

/-- Compile a source and run it. -/
def run (config : Config) (fuel : Nat) (source : String) :
    Recorded Event Interruption Artifacts := do
  let compiled ← (compile config source).mapError .failure
  let state ← compiled.specialized.evaluate fuel
  Recorded.record (.finished state.size)
  return ⟨compiled, state⟩

end TypedImp
