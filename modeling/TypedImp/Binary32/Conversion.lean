/-!
# Conversions between integers and floats

An integer becomes the nearest float, and the even one of two that are equally near.  A
float becomes its integer part, or the nearest bound if that is out of range; what is not
a number becomes zero.
-/

namespace TypedImp.Binary32

open Float.Model

/-- The float nearest to an integer. -/
def ofInt32 (number : Int32) : Float32 :=
  Float32.ofModel
    (Float32.Model.pack (UnpackedFloat.normalize Format.binary32 number.toInt 0 .positive))

/-- The integer part of `mantissa · 2^exponent`. -/
def integerPart (mantissa : Nat) (exponent : Int) : Nat :=
  if 0 ≤ exponent then mantissa <<< exponent.toNat else mantissa >>> (-exponent).toNat

/-- The integer part of a float, kept in the range of integers. -/
def toInt32 (number : Float32) : Int32 :=
  match number.toModel.unpack with
  | .notANumber | .zero _ => 0
  | .infinity .positive => Int32.maxValue
  | .infinity .negative => Int32.minValue
  | .finite .positive mantissa exponent _ =>
    Int32.ofIntClamp (integerPart mantissa exponent)
  | .finite .negative mantissa exponent _ =>
    Int32.ofIntClamp (-(integerPart mantissa exponent : Int))

end TypedImp.Binary32
