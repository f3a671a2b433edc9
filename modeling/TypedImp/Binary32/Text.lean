import TypedImp.Binary32.Shortest

/-!
# The text of a float

A float is written with the fewest digits that read back as the same float, with a point
and at least one digit behind it.  Very large and very small numbers are written with an
exponent instead, and then without a point if there is only one digit.
-/

namespace TypedImp.Binary32

/-- The smallest positive number that is written without an exponent. -/
def positionalFrom : Float32 :=
  Float32.ofScientific 1 true 4

/-- The smallest number above that is written with an exponent again. -/
def positionalBelow : Float32 :=
  Float32.ofScientific 1 false 16

namespace Decimal

/-- Write with a point and at least one digit behind it. -/
def positional (decimal : Decimal) : List Char :=
  let digits := Nat.toDigits 10 decimal.digits
  let whole := digits.length + decimal.exponent
  if 0 ≤ decimal.exponent then
    digits ++ List.replicate decimal.exponent.toNat '0' ++ ['.', '0']
  else if 0 < whole then
    digits.take whole.toNat ++ ['.'] ++ digits.drop whole.toNat
  else
    ['0', '.'] ++ List.replicate (-whole).toNat '0' ++ digits

/-- Write with one digit before the point and an exponent. -/
def scientific (decimal : Decimal) : List Char :=
  let digits := Nat.toDigits 10 decimal.digits
  let exponent := decimal.exponent + digits.length - 1
  let fraction := if digits.length ≤ 1 then [] else '.' :: digits.drop 1
  digits.take 1 ++ fraction ++ ['e'] ++ (toString exponent).toList

end Decimal

/-- The sign that is written. -/
def signText : Float.Model.UnpackedFloat.Sign → List Char
  | .positive => []
  | .negative => ['-']

/-- Write a float. -/
def text (number : Float32) : String :=
  String.ofList <|
    match number.toModel.unpack with
    | .notANumber => "NaN".toList
    | .infinity sign => signText sign ++ "inf".toList
    | .zero sign => signText sign ++ "0.0".toList
    | .finite sign mantissa exponent _ =>
      let decimal := Decimal.shortest mantissa exponent
      let magnitude := number.abs
      if positionalFrom ≤ magnitude ∧ magnitude < positionalBelow then
        signText sign ++ decimal.positional
      else
        signText sign ++ decimal.scientific

end TypedImp.Binary32
