import TypedImp.Binary32.Reading
import TypedImp.Text.Digits
import TypedImp.Token.Basic
import TypedImp.Value

/-!
# The values of literals

A literal is read from the text of its token.  Of integers only those that fit into 32
bits with a sign can be read; every number with a point is the nearest float.
-/

namespace TypedImp

/-- Why a literal has no value. -/
inductive LiteralError where
  | intTooLarge
  deriving DecidableEq

/-- Say what is wrong. -/
def LiteralError.message : LiteralError → String
  | .intTooLarge => "number too large to fit in target type"

namespace Token

/-- The largest integer that a literal can write. -/
def largestInt : Nat :=
  2147483647

/-- The integer that a text of digits writes. -/
def intValue (text : String) : Except LiteralError Int32 :=
  let value := Text.digitsValue text.toList
  if value ≤ largestInt then .ok (Int32.ofNat value) else .error .intTooLarge

/-- The float that digits with a point write. -/
def floatValue (text : String) : Float32 :=
  let digits := text.toList
  Binary32.ofDigits (digits.takeWhile Char.isDigit) ((digits.dropWhile Char.isDigit).drop 1)

/-- The character between two quotes. -/
def charValue (text : String) : Char :=
  (text.toList.drop 1).headD '\x00'

/-- The value that a token writes, if it is a literal of a type with its own form. -/
def literal? (token : Token) : Option (Except LiteralError Value) :=
  match token.kind with
  | .intLiteral => some ((intValue token.text).map Value.int)
  | .floatLiteral => some (.ok (.float (floatValue token.text)))
  | .charLiteral => some (.ok (.char (charValue token.text)))
  | .trueWord => some (.ok (.bool true))
  | .falseWord => some (.ok (.bool false))
  | _ => none

end Token

end TypedImp
