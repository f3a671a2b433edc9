import TypedImp.Text.Digits

/-!
# Reading a float

A decimal text is read as the nearest float; one that is too large is infinite.  The
texts of infinity and of what is not a number are read as well.
-/

namespace TypedImp.Binary32

open Text (digitsValue)

/-- The float nearest to `digits · 10^exponent`. -/
def ofDecimal (digits : Nat) (exponent : Int) : Float32 :=
  Float32.ofScientific digits (exponent < 0) exponent.natAbs

/-- The float that the digits before and behind a point write. -/
def ofDigits (whole fraction : List Char) : Float32 :=
  ofDecimal (digitsValue (whole ++ fraction)) (-(fraction.length : Int))

/-- Split a text at the first character that is one of the given ones. -/
def splitAtFirst (separators text : List Char) : List Char × Option (List Char) :=
  match text.dropWhile (!separators.contains ·) with
  | [] => (text, none)
  | _ :: rest => (text.takeWhile (!separators.contains ·), some rest)

/-- Read digits with a sign before them. -/
def exponentValue? : List Char → Option Int
  | '-' :: digits => if digits.all Char.isDigit then some (-(digitsValue digits : Int)) else none
  | '+' :: digits => if digits.all Char.isDigit then some (digitsValue digits) else none
  | digits => if digits.all Char.isDigit then some (digitsValue digits) else none

/-- Read a decimal without a sign. -/
def magnitude? (text : List Char) : Option Float32 := do
  if text = "NaN".toList then return Float32.ofScientific 0 false 0 / Float32.ofScientific 0 false 0
  if text = "inf".toList then return Float32.ofScientific 1 false 0 / Float32.ofScientific 0 false 0
  let (decimal, exponentText?) := splitAtFirst ['e', 'E'] text
  let (whole, fraction?) := splitAtFirst ['.'] decimal
  let fraction := fraction?.getD []
  let exponent ← exponentValue? (exponentText?.getD ['0'])
  if (whole ++ fraction).all Char.isDigit && !(whole ++ fraction).isEmpty then
    return ofDecimal (digitsValue (whole ++ fraction)) (exponent - fraction.length)
  else
    none

/-- Read a float with or without a sign. -/
def ofText? (text : String) : Option Float32 :=
  match text.toList with
  | '-' :: rest => (magnitude? rest).map Float32.neg
  | rest => magnitude? rest

end TypedImp.Binary32
