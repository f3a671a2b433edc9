import TypedImp.Source.Span
import TypedImp.Ty

/-!
# Tokens

A token is a piece of source text together with its kind and its place.  The end of the
source counts as a token too: it is empty and stands behind the last character.
-/

namespace TypedImp

/-- What a token is. -/
inductive TokenKind where
  | typeName (ty : Ty)
  | ifWord
  | elseWord
  | whileWord
  | returnWord
  | trueWord
  | falseWord
  | plus
  | minus
  | star
  | slash
  | not
  | and
  | or
  | less
  | lessEq
  | greater
  | greaterEq
  | eqEq
  | notEq
  | assign
  | semicolon
  | comma
  | leftParen
  | rightParen
  | leftBrace
  | rightBrace
  | identifier
  | intLiteral
  | floatLiteral
  | charLiteral
  | endOfInput
  deriving DecidableEq, Inhabited

namespace TokenKind

/-- The name of a kind in messages and token lists. -/
def name : TokenKind → String
  | .typeName .int => "Int"
  | .typeName .bool => "Bool"
  | .typeName .char => "Char"
  | .typeName .float => "Float"
  | .typeName .void => "Void"
  | .ifWord => "If"
  | .elseWord => "Else"
  | .whileWord => "While"
  | .returnWord => "Return"
  | .trueWord => "True"
  | .falseWord => "False"
  | .plus => "Plus"
  | .minus => "Minus"
  | .star => "Star"
  | .slash => "Slash"
  | .not => "Not"
  | .and => "And"
  | .or => "Or"
  | .less => "Less"
  | .lessEq => "LessEq"
  | .greater => "Greater"
  | .greaterEq => "GreaterEq"
  | .eqEq => "EqEq"
  | .notEq => "NotEq"
  | .assign => "Assign"
  | .semicolon => "Semicolon"
  | .comma => "Comma"
  | .leftParen => "LParen"
  | .rightParen => "RParen"
  | .leftBrace => "LBrace"
  | .rightBrace => "RBrace"
  | .identifier => "Identifier"
  | .intLiteral => "IntLiteral"
  | .floatLiteral => "FloatLiteral"
  | .charLiteral => "CharLiteral"
  | .endOfInput => "Eof"

/-- Whether a kind is the name of a type. -/
def isType : TokenKind → Bool
  | .typeName _ => true
  | _ => false

/-- The reserved words; `boolean` is a second word for the type `bool`. -/
def keywords : List (String × TokenKind) :=
  [("int", .typeName .int), ("bool", .typeName .bool), ("boolean", .typeName .bool),
    ("char", .typeName .char), ("float", .typeName .float), ("void", .typeName .void),
    ("if", .ifWord), ("else", .elseWord), ("while", .whileWord), ("return", .returnWord),
    ("true", .trueWord), ("false", .falseWord)]

/-- The kind of a reserved word, in exactly this spelling. -/
def keyword? (word : String) : Option TokenKind :=
  keywords.lookup word

/-- The operators and delimiters of one character. -/
def symbol? : Char → Option TokenKind
  | '+' => some .plus
  | '-' => some .minus
  | '*' => some .star
  | '/' => some .slash
  | '!' => some .not
  | '<' => some .less
  | '>' => some .greater
  | '=' => some .assign
  | ';' => some .semicolon
  | ',' => some .comma
  | '(' => some .leftParen
  | ')' => some .rightParen
  | '{' => some .leftBrace
  | '}' => some .rightBrace
  | _ => none

/-- The operators of two characters. -/
def doubleSymbol? : Char → Char → Option TokenKind
  | '&', '&' => some .and
  | '|', '|' => some .or
  | '<', '=' => some .lessEq
  | '>', '=' => some .greaterEq
  | '=', '=' => some .eqEq
  | '!', '=' => some .notEq
  | _, _ => none

end TokenKind

/-- A piece of source text with its kind and its place. -/
structure Token where
  kind : TokenKind
  span : Span
  text : String
  deriving DecidableEq, Inhabited

namespace Token

/-- The token for the end of a source of the given length. -/
def endAt (offset : Nat) : Token :=
  ⟨.endOfInput, Span.emptyAt offset, ""⟩

end Token

end TypedImp
