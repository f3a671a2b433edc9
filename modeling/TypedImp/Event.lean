import TypedImp.Evaluation.Machine
import TypedImp.Program.Parser.Definition
import TypedImp.Specialization.Basic
import TypedImp.Typing.Checking

/-!
# Events

What the stages record, from the first function that is read to the final state, and how
an event is written in a log.
-/

namespace TypedImp

/-- An event of a run from the source to the final state. -/
inductive Event where
  | registered (registration : Registration)
  | parsed (tokens : Nat)
  | checking (function : FunctionCheck)
  | checked (globals : Nat)
  | specialized (event : SpecializationEvent)
  | call (event : CallEvent)
  | finished (bindings : Nat)
  deriving DecidableEq

/-- How detailed a log has to be to hold an event. -/
inductive LogLevel where
  | debug
  | trace
  deriving DecidableEq

namespace LogLevel

/-- The word for a level. -/
def name : LogLevel → String
  | debug => "DEBUG"
  | trace => "TRACE"

/-- Whether a log of one level holds the events of another. -/
def includes : LogLevel → LogLevel → Bool
  | debug, debug | trace, _ => true
  | debug, trace => false

end LogLevel

namespace Event

/-- The level of an event: specialization is the only detail. -/
def level : Event → LogLevel
  | specialized _ => .trace
  | _ => .debug

/-- The part of the program that an event belongs to. -/
def target : Event → String
  | registered _ => "clite::parser"
  | checking _ => "clite::type_checker"
  | specialized _ => "clite::transformer"
  | call _ => "clite::interpreter"
  | parsed _ | checked _ | finished _ => "clite"

/-- What happened. -/
def message : Event → String
  | registered ⟨name, params, locals⟩ =>
    s!"registered function name={name} params={params} locals={locals}"
  | parsed tokens => s!"parsed program tokens={tokens}"
  | checking ⟨name, returnTy⟩ => s!"validating function name={name} ty={returnTy.name}"
  | checked globals => s!"validated program globals={globals}"
  | specialized (.binary op tag) =>
    s!"specialized binary operator op={op.symbol} ty={tag.name}"
  | specialized (.unary op tag) => s!"specialized unary operator op={op.symbol} ty={tag.name}"
  | specialized .floatCast => "inserted float cast"
  | specialized (.intCast source) => s!"inserted int cast from={source.name}"
  | call (.pushed function depth) => s!"pushed call frame function={function} depth={depth}"
  | call (.popped depth) => s!"popped call frame depth={depth}"
  | finished bindings => s!"finished run variables={bindings}"

/-- The line of an event in a log. -/
def line (event : Event) : String :=
  s!"{event.level.name} {event.target}: {event.message}"

end Event

end TypedImp
