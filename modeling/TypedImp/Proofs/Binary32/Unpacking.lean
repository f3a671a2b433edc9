import TypedImp.Binary32.Text
import TypedImp.Proofs.Binary32.Intervals

/-!
# The parts of a float

A float of 32 bits is unpacked into a sign, a mantissa and an exponent, which are those of one float
only (`unpack_injective`).  A finite float has a canonical mantissa and exponent.
-/

namespace TypedImp.Binary32

open Float.Model Float.Model.UnpackedFloat

section Fields

variable {bits others : BitVec Format.binary32.numBits}

theorem toNat_unpackSign (bits : BitVec Format.binary32.numBits) :
    (unpackSign bits).toNat = bits.toNat / 2 ^ 31 % 2 := by
  change (bits.extractLsb' 31 1).toNat = _
  rw [BitVec.extractLsb'_toNat, Nat.shiftRight_eq_div_pow]

theorem toNat_unpackExponent (bits : BitVec Format.binary32.numBits) :
    (unpackExponent bits).toNat = bits.toNat / 2 ^ 23 % 2 ^ 8 := by
  simp [unpackExponent, Nat.shiftRight_eq_div_pow]

theorem toNat_unpackMantissa (bits : BitVec Format.binary32.numBits) :
    (unpackMantissa bits).toNat = bits.toNat % 2 ^ 23 := by
  simp [unpackMantissa]

/-- The bits of a float are its sign, its exponent and its mantissa. -/
theorem eq_of_fields (signs : unpackSign bits = unpackSign others)
    (exponents : (unpackExponent bits).toNat = (unpackExponent others).toNat)
    (mantissas : (unpackMantissa bits).toNat = (unpackMantissa others).toNat) : bits = others := by
  have sign := congrArg BitVec.toNat signs
  rw [toNat_unpackSign, toNat_unpackSign] at sign
  rw [toNat_unpackExponent, toNat_unpackExponent] at exponents
  rw [toNat_unpackMantissa, toNat_unpackMantissa] at mantissas
  have bitsLt : bits.toNat < 2 ^ 32 := bits.isLt
  have othersLt : others.toNat < 2 ^ 32 := others.isLt
  apply BitVec.eq_of_toNat_eq
  omega

theorem ofBitVec_injective {first second : BitVec 1}
    (same : Sign.ofBitVec first = Sign.ofBitVec second) : first = second := by
  obtain rfl | rfl := BitVec.eq_zero_or_eq_one first <;>
    obtain rfl | rfl := BitVec.eq_zero_or_eq_one second <;> trivial

/-- The mantissa of a normal number has a bit more than is stored. -/
theorem toNat_implicit_append (mantissa : BitVec 23) :
    (1#1 ++ mantissa).toNat = Decimal.smallestNormalMantissa + mantissa.toNat := by
  rw [BitVec.toNat_append, Nat.shiftLeft_eq]
  exact (Nat.two_pow_add_eq_or_of_lt mantissa.isLt 1).symm

/-- What a float is unpacked into, by its exponent and its mantissa as they are stored. -/
inductive Unpacks (bits : BitVec Format.binary32.numBits) : UnpackedFloat → Prop where
  | infinity (allOnes : unpackExponent bits = -1#8) (noMantissa : unpackMantissa bits = 0#23) :
      Unpacks bits (.infinity (.ofBitVec (unpackSign bits)))
  | notANumber (allOnes : unpackExponent bits = -1#8)
      (someMantissa : unpackMantissa bits ≠ 0#23) : Unpacks bits .notANumber
  | zero (noExponent : unpackExponent bits = 0#8) (noMantissa : unpackMantissa bits = 0#23) :
      Unpacks bits (.zero (.ofBitVec (unpackSign bits)))
  | subnormal (noExponent : unpackExponent bits = 0#8)
      (positive : 0 < (unpackMantissa bits).toNat) :
      Unpacks bits (.finite (.ofBitVec (unpackSign bits)) (unpackMantissa bits).toNat
        Decimal.smallestExponent positive)
  | normal {mantissa : Nat} {exponent : Int} (notAllOnes : unpackExponent bits ≠ -1#8)
      (someExponent : unpackExponent bits ≠ 0#8)
      (isMantissa : mantissa = Decimal.smallestNormalMantissa + (unpackMantissa bits).toNat)
      (isExponent : exponent = (unpackExponent bits).toNat - 150) (positive : 0 < mantissa) :
      Unpacks bits (.finite (.ofBitVec (unpackSign bits)) mantissa exponent positive)

theorem unpacks (bits : BitVec Format.binary32.numBits) :
    Unpacks bits (unpack Format.binary32 bits) := by
  unfold UnpackedFloat.unpack
  dsimp only
  by_cases allOnes : unpackExponent bits = -1#8
  · rw [if_pos allOnes]
    by_cases noMantissa : unpackMantissa bits = 0#23
    · rw [if_pos noMantissa]
      exact .infinity allOnes noMantissa
    · rw [if_neg noMantissa]
      exact .notANumber allOnes noMantissa
  rw [if_neg allOnes]
  by_cases noExponent : unpackExponent bits = 0#8
  · rw [if_pos noExponent]
    by_cases noMantissa : unpackMantissa bits = 0#23
    · rw [dif_pos noMantissa]
      exact .zero noExponent noMantissa
    · have positive : 0 < (unpackMantissa bits).toNat :=
        Nat.pos_of_ne_zero fun none => noMantissa (BitVec.eq_of_toNat_eq none)
      rw [dif_neg noMantissa, noExponent]
      exact .subnormal noExponent positive
  · rw [if_neg noExponent]
    exact .normal allOnes noExponent (toNat_implicit_append _) rfl _

/-- The sign, the exponent and the mantissa that an unpacked float was stored with. -/
def fields : UnpackedFloat → UnpackedFloat.Sign × Nat × Nat
  | .notANumber => (.positive, 255, 2 ^ 22)
  | .infinity sign => (sign, 255, 0)
  | .zero sign => (sign, 0, 0)
  | .finite sign mantissa exponent _ =>
    if mantissa < Decimal.smallestNormalMantissa then (sign, 0, mantissa)
    else (sign, (exponent + 150).toNat, mantissa - Decimal.smallestNormalMantissa)

theorem fields_infinity (sign : UnpackedFloat.Sign) : fields (.infinity sign) = (sign, 255, 0) :=
  rfl

theorem fields_zero (sign : UnpackedFloat.Sign) : fields (.zero sign) = (sign, 0, 0) :=
  rfl

theorem fields_finite (sign : UnpackedFloat.Sign) {mantissa : Nat} (exponent : Int)
    (positive : 0 < mantissa) :
    fields (.finite sign mantissa exponent positive) =
      if mantissa < Decimal.smallestNormalMantissa then (sign, 0, mantissa)
      else (sign, (exponent + 150).toNat, mantissa - Decimal.smallestNormalMantissa) :=
  rfl

theorem toNat_unpackMantissa_lt (bits : BitVec Format.binary32.numBits) :
    (unpackMantissa bits).toNat < Decimal.smallestNormalMantissa :=
  (unpackMantissa bits).isLt

/-- The parts of a float tell how it was stored. -/
theorem fields_unpack (valid : Format.binary32.Valid bits) :
    fields (unpack Format.binary32 bits) =
      (Sign.ofBitVec (unpackSign bits), (unpackExponent bits).toNat,
        (unpackMantissa bits).toNat) := by
  have shape := unpacks bits
  generalize unpack Format.binary32 bits = unpacked at shape
  cases shape with
  | infinity allOnes noMantissa => simp [fields_infinity, allOnes, noMantissa]
  | notANumber allOnes someMantissa =>
    obtain rfl := valid.eq_packedNaN allOnes someMantissa
    rfl
  | zero noExponent noMantissa => simp [fields_zero, noExponent, noMantissa]
  | subnormal noExponent positive =>
    rw [fields_finite, if_pos (toNat_unpackMantissa_lt bits), noExponent]
    rfl
  | normal notAllOnes someExponent isMantissa isExponent positive =>
    rw [fields_finite, if_neg (by omega), isMantissa, isExponent, Nat.add_sub_cancel_left,
      Int.sub_add_cancel, Int.toNat_natCast]

/-- The mantissa and the exponent of a finite float are canonical. -/
theorem canonical_of_unpack {sign : UnpackedFloat.Sign} {mantissa : Nat} {exponent : Int}
    {positive : 0 < mantissa}
    (unpacked : unpack Format.binary32 bits = .finite sign mantissa exponent positive) :
    Decimal.Canonical mantissa exponent := by
  have small := toNat_unpackMantissa_lt bits
  have shape := unpacks bits
  rw [unpacked] at shape
  cases shape with
  | subnormal noExponent positive =>
    exact ⟨positive, by omega, le_rfl, fun above => absurd above (lt_irrefl _)⟩
  | normal notAllOnes someExponent isMantissa isExponent positive =>
    have someBits : (unpackExponent bits).toNat ≠ 0 := fun none =>
      someExponent (BitVec.eq_of_toNat_eq none)
    refine ⟨positive, by omega, ?_, fun _ => by omega⟩
    rw [Decimal.smallestExponent]
    omega

end Fields

/-- Two floats that are unpacked into the same parts are equal. -/
theorem unpack_injective {first second : Float32}
    (same : first.toModel.unpack = second.toModel.unpack) : first = second := by
  have parts := congrArg fields same
  rw [Float32.Model.unpack, Float32.Model.unpack, fields_unpack first.toModel.valid,
    fields_unpack second.toModel.valid] at parts
  simp only [Prod.mk.injEq] at parts
  obtain ⟨signs, exponents, mantissas⟩ := parts
  have bits := eq_of_fields (ofBitVec_injective signs) exponents mantissas
  obtain ⟨⟨⟨first⟩, _⟩⟩ := first
  obtain ⟨⟨⟨second⟩, _⟩⟩ := second
  obtain rfl : first = second := bits
  rfl

end TypedImp.Binary32
