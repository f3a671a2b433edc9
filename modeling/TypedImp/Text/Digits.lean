/-!
# Decimal digits

The number that a list of decimal digits writes, most significant digit first.
-/

namespace TypedImp.Text

/-- The number that a decimal digit stands for. -/
def digitValue (digit : Char) : Nat :=
  digit.toNat - '0'.toNat

/-- The number that decimal digits write. -/
def digitsValue (digits : List Char) : Nat :=
  digits.foldl (fun value digit => 10 * value + digitValue digit) 0

end TypedImp.Text
