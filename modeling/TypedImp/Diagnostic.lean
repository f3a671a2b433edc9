import TypedImp.Evaluation.RunError
import TypedImp.Program.SyntaxError
import TypedImp.Source.Position
import TypedImp.Specialization.Basic
import TypedImp.Typing.TypeError

/-!
# Diagnostics

A failure of any stage has a span and a message.  It is shown with the line of the source
in which the span begins; carets mark the part of the span that lies on that line.
-/

namespace TypedImp

/-- Why a source has no final state. -/
inductive Failure where
  | parsing (error : Spanned SyntaxError)
  | typing (error : Spanned TypeError)
  | specialization (error : Spanned SpecializationError)
  | running (error : Spanned RunError)
  deriving DecidableEq

namespace Failure

/-- Where a failure lies. -/
def span : Failure → Span
  | parsing error => error.span
  | typing error => error.span
  | specialization error => error.span
  | running error => error.span

/-- Say what is wrong. -/
def message : Failure → String
  | parsing error => error.content.message
  | typing error => error.content.message
  | specialization error => error.content.message
  | running error => error.content.message

end Failure

/-- Write a message behind its place. -/
def Span.describe (span : Span) (message : String) : String :=
  s!"{span.text}: {message}"

namespace Diagnostic

/-- The line of the source in which a span begins. -/
def lineOf (source : List Char) (span : Span) : List Char :=
  Source.lastLine (Source.before span.lo source) ++
    Source.firstLine (Source.after span.lo source)

/-- The characters of a span on the line in which it begins. -/
def marked (source : List Char) (span : Span) : List Char :=
  Source.before span.length (Source.firstLine (Source.after span.lo source))

/-- Blanks up to the begin of a span, and a caret for each marked character, but at least
one. -/
def underline (source : List Char) (span : Span) : List Char :=
  List.replicate ((Position.ofOffset span.lo source).column - 1) ' ' ++
    List.replicate (max (marked source span).length 1) '^'

/-- Show a message with its place in a file. -/
def render (source path : String) (span : Span) (message : String) : String :=
  let text := source.toList
  let position := Position.ofOffset span.lo text
  s!"{path}:{position.text}: {message}\n" ++ String.ofList (lineOf text span) ++ "\n" ++
    String.ofList (underline text span) ++ "\n"

end Diagnostic

/-- Show a failure with its place in a file. -/
def Failure.render (failure : Failure) (source path : String) : String :=
  Diagnostic.render source path failure.span failure.message

end TypedImp
