import TypedImp.Token.Lexer
import TypedImp.Value

/-!
# Syntax errors

A source is refused for a character that starts no token, for the first token that
cannot continue a program, and for definitions and literals that the grammar allows and
the language does not.
-/

namespace TypedImp

/-- Why a source is no program. -/
inductive SyntaxError where
  | lexical (error : LexError)
  | unexpectedInExpression (actual : TokenKind)
  | unexpectedInStatement (actual : TokenKind)
  | unexpected (actual expected : TokenKind)
  | expectedType (actual : TokenKind)
  | duplicateDeclaration (name : String) (earlier : Span)
  | duplicateFunction (name : String) (earlier : Span)
  | voidVariable (name : String)
  | invalidCast (ty : Ty)
  | intOutOfRange
  deriving DecidableEq

/-- Say what is wrong. -/
def SyntaxError.message : SyntaxError → String
  | .lexical error => error.message
  | .unexpectedInExpression actual => s!"unexpected token {actual.name} in expression"
  | .unexpectedInStatement actual => s!"unexpected token {actual.name} in statement"
  | .unexpected actual expected =>
    s!"expected token {expected.name}, but got {actual.name}"
  | .expectedType actual => s!"expected a type, but got {actual.name}"
  | .duplicateDeclaration name earlier =>
    s!"variable {name} already declared at {earlier.text}"
  | .duplicateFunction name earlier => s!"function {name} already defined at {earlier.text}"
  | .voidVariable name => s!"variable {name} can't have type void"
  | .invalidCast ty => s!"can't cast to type {ty.name}"
  | .intOutOfRange => "parse int error, out of bounds"

end TypedImp
