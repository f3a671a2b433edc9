import TypedImp.Proofs.Binary32.Unpacking
import TypedImp.Proofs.Text.Cutting

/-!
# The float that a text writes

The text of a float gives back the float.  Behind its sign stands a word, the digits of the shortest
decimal around a point, or these digits with an exponent (`Form`), and a text has one such form.
-/

namespace TypedImp.Binary32

open Float.Model (UnpackedFloat)
open Text (append_inj_of_stop toDigits_injective toString_int_injective)

theorem isDigit_of_mem_decimal {c : Char} {number : Nat} (member : c ∈ Nat.toDigits 10 number) :
    c.isDigit = true :=
  Nat.isDigit_of_mem_toDigits (by decide) (by decide) member

theorem ne_of_isDigit {c other : Char} (isDigit : c.isDigit = true)
    (noDigit : other.isDigit = false) : c ≠ other := by
  rintro rfl
  rw [noDigit] at isDigit
  cases isDigit

/-- Digits before and behind a point, and the number that they write. -/
structure PointForm (number : ℚ) (whole fraction : List Char) : Prop where
  nonempty : whole ≠ []
  digits : ∀ c ∈ whole ++ fraction, c.isDigit = true
  writes : (Nat.ofDigitChars 10 (whole ++ fraction) 0 : ℚ) = number * 10 ^ fraction.length

/-- A text writes a number by digits before and behind a point. -/
def WritesPoint (number : ℚ) (text : List Char) : Prop :=
  ∃ whole fraction, text = whole ++ '.' :: fraction ∧ PointForm number whole fraction

theorem WritesPoint.number_eq {first second : ℚ} {text : List Char}
    (writes : WritesPoint first text) (others : WritesPoint second text) : first = second := by
  obtain ⟨whole, fraction, rfl, _, digits, value⟩ := writes
  obtain ⟨whole', fraction', same, _, digits', value'⟩ := others
  have noPoint {digits : List Char} (all : ∀ c ∈ digits, c.isDigit = true) :
      ∀ c ∈ digits, c ≠ '.' := fun c member => ne_of_isDigit (all c member) rfl
  obtain ⟨rfl, behind⟩ := append_inj_of_stop
    (noPoint fun c member => digits c (List.mem_append_left _ member))
    (noPoint fun c member => digits' c (List.mem_append_left _ member)) (by simp) (by simp) same
  obtain ⟨_, rfl⟩ := List.cons.inj behind
  rw [value] at value'
  exact mul_right_cancel₀ (by positivity) value'

namespace Decimal

theorem isDigit_of_mem_zeros {c : Char} (count : Nat) (member : c ∈ List.replicate count '0') :
    c.isDigit = true := by
  obtain rfl := List.eq_of_mem_replicate member
  rfl

/-- The digits of a whole number are all before the point, with zeros behind them. -/
theorem pointForm_of_whole {number : Nat} {exponent : Int} (isWhole : 0 ≤ exponent) :
    PointForm (number * 10 ^ exponent)
      (Nat.toDigits 10 number ++ List.replicate exponent.toNat '0') ['0'] where
  nonempty := by simp
  digits c member := by
    rcases List.mem_append.mp member with inWhole | inFraction
    · rcases List.mem_append.mp inWhole with inDigits | inZeros
      · exact isDigit_of_mem_decimal inDigits
      · exact isDigit_of_mem_zeros _ inZeros
    · exact isDigit_of_mem_zeros 1 inFraction
  writes := by
    have power := zpow_mul_pow_neg 10 (by norm_num) exponent
    rw [show (-exponent).toNat = 0 by omega, pow_zero, mul_one] at power
    rw [power, Nat.ofDigitChars_append, Nat.ofDigitChars_append, Nat.ofDigitChars_ten_toDigits,
      Nat.ofDigitChars_replicate_zero, Nat.ofDigitChars_cons, Nat.ofDigitChars_nil]
    push_cast
    simp
    ring

/-- The point stands among the digits. -/
theorem pointForm_of_inside {number : Nat} {exponent : Int} {before : Nat}
    (isFraction : exponent < 0) (position : (Nat.toDigits 10 number).length + exponent = before)
    (inside : 0 < before) :
    PointForm (number * 10 ^ exponent) ((Nat.toDigits 10 number).take before)
      ((Nat.toDigits 10 number).drop before) where
  nonempty := by
    have nonempty : Nat.toDigits 10 number ≠ [] := Nat.toDigits_ne_nil
    rw [Ne, List.take_eq_nil_iff]
    simp only [nonempty, or_false]
    omega
  digits c member := by
    rw [List.take_append_drop] at member
    exact isDigit_of_mem_decimal member
  writes := by
    have power := zpow_mul_pow_neg 10 (by norm_num) exponent
    rw [show exponent.toNat = 0 by omega, pow_zero] at power
    rw [List.take_append_drop, Nat.ofDigitChars_ten_toDigits, List.length_drop,
      show (Nat.toDigits 10 number).length - before = (-exponent).toNat by omega, mul_assoc, power,
      mul_one]

/-- The point stands before all digits, with zeros between them. -/
theorem pointForm_of_outside {number : Nat} {exponent : Int} {between : Nat}
    (position : (Nat.toDigits 10 number).length + exponent = -between) :
    PointForm (number * 10 ^ exponent) ['0']
      (List.replicate between '0' ++ Nat.toDigits 10 number) where
  nonempty := by simp
  digits c member := by
    rcases List.mem_append.mp member with inWhole | inFraction
    · exact isDigit_of_mem_zeros 1 inWhole
    · rcases List.mem_append.mp inFraction with inZeros | inDigits
      · exact isDigit_of_mem_zeros _ inZeros
      · exact isDigit_of_mem_decimal inDigits
  writes := by
    have power := zpow_mul_pow_neg 10 (by norm_num) exponent
    rw [show exponent.toNat = 0 by omega, pow_zero] at power
    rw [List.length_append, List.length_replicate,
      show between + (Nat.toDigits 10 number).length = (-exponent).toNat by omega, mul_assoc, power,
      mul_one, List.cons_append, List.nil_append, Nat.ofDigitChars_cons, Nat.ofDigitChars_append,
      Nat.ofDigitChars_replicate_zero]
    simp

theorem writesPoint_positional (decimal : Decimal) :
    WritesPoint decimal.value decimal.positional := by
  obtain ⟨number, exponent⟩ := decimal
  unfold positional value
  dsimp only
  split
  case isTrue isWhole => exact ⟨_, _, rfl, pointForm_of_whole isWhole⟩
  case isFalse isFraction =>
    split
    case isTrue inside =>
      exact ⟨_, _, by simp, pointForm_of_inside (by omega) (Int.toNat_of_nonneg inside.le).symm
        (by omega)⟩
    case isFalse outside =>
      exact ⟨_, _, rfl, pointForm_of_outside (by omega)⟩

/-- The digits of a number with a point behind the first one, unless it is the only one. -/
def significand (number : Nat) : List Char :=
  (Nat.toDigits 10 number).take 1 ++
    if (Nat.toDigits 10 number).length ≤ 1 then [] else '.' :: (Nat.toDigits 10 number).drop 1

theorem scientific_eq (decimal : Decimal) :
    decimal.scientific = significand decimal.digits ++ 'e' ::
      (toString (decimal.exponent + (Nat.toDigits 10 decimal.digits).length - 1)).toList := by
  simp [scientific, significand]

theorem digit_or_point_of_mem_significand {c : Char} {number : Nat}
    (member : c ∈ significand number) : c.isDigit = true ∨ c = '.' := by
  rcases List.mem_append.mp member with first | behind
  · exact .inl (isDigit_of_mem_decimal (List.mem_of_mem_take first))
  · split at behind
    · cases behind
    · rcases List.mem_cons.mp behind with isPoint | inFraction
      · exact .inr isPoint
      · exact .inl (isDigit_of_mem_decimal (List.mem_of_mem_drop inFraction))

theorem filter_significand (number : Nat) :
    (significand number).filter Char.isDigit = Nat.toDigits 10 number := by
  unfold significand
  split
  case isTrue single =>
    rw [List.append_nil, List.take_of_length_le single]
    exact List.filter_eq_self.mpr fun _ => isDigit_of_mem_decimal
  case isFalse =>
    rw [List.filter_append, List.filter_cons_of_neg (by decide), ← List.filter_append,
      List.take_append_drop]
    exact List.filter_eq_self.mpr fun _ => isDigit_of_mem_decimal

/-- A decimal with an exponent is known from its text. -/
theorem scientific_injective {first second : Decimal}
    (same : first.scientific = second.scientific) : first = second := by
  have noExponent (number : Nat) : ∀ c ∈ significand number, c ≠ 'e' := by
    intro c member
    rcases digit_or_point_of_mem_significand member with isDigit | rfl
    · exact ne_of_isDigit isDigit rfl
    · decide
  rw [scientific_eq, scientific_eq] at same
  obtain ⟨significands, behind⟩ := append_inj_of_stop (noExponent first.digits)
    (noExponent second.digits) (by simp) (by simp) same
  have digits : Nat.toDigits 10 first.digits = Nat.toDigits 10 second.digits := by
    rw [← filter_significand, ← filter_significand, significands]
  have exponents :=
    toString_int_injective (String.toList_inj.mp (List.cons.inj behind).2)
  obtain ⟨number, exponent⟩ := first
  obtain ⟨number', exponent'⟩ := second
  obtain rfl : number = number' := toDigits_injective (by decide) (by decide) digits
  obtain rfl : exponent = exponent' := by
    dsimp only at exponents
    omega
  rfl

end Decimal

/-- What a text without a sign stands for. -/
inductive Form where
  | notANumber
  | infinity
  | point (number : ℚ)
  | scientific (decimal : Decimal)

/-- A text without a sign stands for a word, a number or a decimal. -/
def Form.Writes : Form → List Char → Prop
  | .notANumber, text => text = ['N', 'a', 'N']
  | .infinity, text => text = ['i', 'n', 'f']
  | .point number, text => WritesPoint number text
  | .scientific decimal, text => text = decimal.scientific

/-- The first character of a text that tells its form. -/
def mark? (text : List Char) : Option Char :=
  text.find? fun c => c = 'N' ∨ c = 'i' ∨ c = 'e'

theorem mark?_eq_none {text : List Char} (noMark : ∀ c ∈ text, c.isDigit = true ∨ c = '.') :
    mark? text = none := by
  refine List.find?_eq_none.mpr fun c member isMark => ?_
  rcases noMark c member with isDigit | rfl
  · rcases of_decide_eq_true isMark with rfl | rfl | rfl <;> cases isDigit
  · cases isMark

theorem WritesPoint.digit_or_point {number : ℚ} {text : List Char}
    (writes : WritesPoint number text) : ∀ c ∈ text, c.isDigit = true ∨ c = '.' := by
  obtain ⟨whole, fraction, rfl, _, digits, _⟩ := writes
  intro c member
  rcases List.mem_append.mp member with inWhole | behind
  · exact .inl (digits c (List.mem_append_left _ inWhole))
  · rcases List.mem_cons.mp behind with isPoint | inFraction
    · exact .inr isPoint
    · exact .inl (digits c (List.mem_append_right _ inFraction))

namespace Form

variable {form other : Form} {text : List Char}

/-- The character by which the texts of a form are told from others. -/
def mark : Form → Option Char
  | .notANumber => some 'N'
  | .infinity => some 'i'
  | .point _ => none
  | .scientific _ => some 'e'

theorem Writes.mark?_eq (writes : form.Writes text) : mark? text = form.mark := by
  match form with
  | .notANumber | .infinity =>
    obtain rfl := writes
    rfl
  | .point number => exact mark?_eq_none (WritesPoint.digit_or_point writes)
  | .scientific decimal =>
    obtain rfl := writes
    have front : mark? (Decimal.significand decimal.digits) = none :=
      mark?_eq_none fun _ => Decimal.digit_or_point_of_mem_significand
    rw [Decimal.scientific_eq, mark?, List.find?_append]
    rw [mark?] at front
    rw [front]
    rfl

/-- A text has one form. -/
theorem Writes.eq (writes : form.Writes text) (others : other.Writes text) : form = other := by
  have marks : form.mark = other.mark := writes.mark?_eq.symm.trans others.mark?_eq
  match form, other with
  | .notANumber, .notANumber | .infinity, .infinity => rfl
  | .point _, .point _ => exact congrArg point (WritesPoint.number_eq writes others)
  | .scientific _, .scientific _ =>
    exact congrArg scientific (Decimal.scientific_injective (writes.symm.trans others))
  | .notANumber, .infinity | .notANumber, .point _ | .notANumber, .scientific _
  | .infinity, .notANumber | .infinity, .point _ | .infinity, .scientific _
  | .point _, .notANumber | .point _, .infinity | .point _, .scientific _
  | .scientific _, .notANumber | .scientific _, .infinity | .scientific _, .point _ =>
    simp [mark] at marks

/-- A text without a sign begins with a letter of its word or with a digit. -/
theorem Writes.head (writes : form.Writes text) :
    ∃ c rest, text = c :: rest ∧ (c = 'N' ∨ c = 'i' ∨ c.isDigit = true) := by
  match form with
  | .notANumber => exact ⟨'N', _, writes, .inl rfl⟩
  | .infinity => exact ⟨'i', _, writes, .inr (.inl rfl)⟩
  | .point number =>
    obtain ⟨whole, fraction, rfl, nonempty, digits, _⟩ := writes
    obtain ⟨first, rest, rfl⟩ := List.exists_cons_of_ne_nil nonempty
    exact ⟨first, _, rfl, .inr (.inr (digits first (by simp)))⟩
  | .scientific decimal =>
    obtain rfl := writes
    obtain ⟨first, rest, digits⟩ :=
      List.exists_cons_of_ne_nil (Nat.toDigits_ne_nil (n := decimal.digits) (b := 10))
    have isDigit : first.isDigit = true := isDigit_of_mem_decimal (digits ▸ List.mem_cons_self)
    rw [Decimal.scientific_eq, Decimal.significand, digits]
    exact ⟨first, _, rfl, .inr (.inr isDigit)⟩

/-- A text without a sign is not written with digits alone. -/
theorem Writes.exists_notDigit (writes : form.Writes text) :
    ∃ c ∈ text, c ≠ '-' ∧ c.isDigit = false := by
  match form with
  | .notANumber =>
    obtain rfl := writes
    exact ⟨'N', by decide⟩
  | .infinity =>
    obtain rfl := writes
    exact ⟨'i', by decide⟩
  | .point number =>
    obtain ⟨whole, fraction, rfl, _⟩ := writes
    exact ⟨'.', by simp⟩
  | .scientific decimal =>
    obtain rfl := writes
    exact ⟨'e', by simp [Decimal.scientific_eq]⟩

/-- A text without a sign has one line. -/
theorem Writes.newline_notMem (writes : form.Writes text) : '\n' ∉ text := by
  match form with
  | .notANumber | .infinity =>
    obtain rfl := writes
    decide
  | .point number =>
    intro member
    rcases WritesPoint.digit_or_point writes _ member with isDigit | isPoint
    · cases isDigit
    · cases isPoint
  | .scientific decimal =>
    obtain rfl := writes
    rw [Decimal.scientific_eq]
    intro member
    rcases List.mem_append.mp member with inFront | behind
    · rcases Decimal.digit_or_point_of_mem_significand inFront with isDigit | isPoint
      · cases isDigit
      · cases isPoint
    · rcases List.mem_cons.mp behind with isExponent | inExponent
      · cases isExponent
      · rcases Text.minus_or_digit_of_mem_toString_int inExponent with isMinus | isDigit
        · cases isMinus
        · cases isDigit

end Form

/-- The sign of a float; what is not a number has none. -/
def signOf : UnpackedFloat → UnpackedFloat.Sign
  | .notANumber => .positive
  | .infinity sign | .zero sign | .finite sign _ _ _ => sign

/-- The forms that floats are written in behind their signs. -/
inductive FormOf : UnpackedFloat → Form → Prop where
  | notANumber : FormOf .notANumber .notANumber
  | infinity (sign : UnpackedFloat.Sign) : FormOf (.infinity sign) .infinity
  | zero (sign : UnpackedFloat.Sign) : FormOf (.zero sign) (.point 0)
  | point (sign : UnpackedFloat.Sign) {mantissa : Nat} {exponent : Int} (positive : 0 < mantissa)
      (canonical : Decimal.Canonical mantissa exponent) :
      FormOf (.finite sign mantissa exponent positive)
        (.point (Decimal.shortest mantissa exponent).value)
  | scientific (sign : UnpackedFloat.Sign) {mantissa : Nat} {exponent : Int}
      (positive : 0 < mantissa) (canonical : Decimal.Canonical mantissa exponent) :
      FormOf (.finite sign mantissa exponent positive)
        (.scientific (Decimal.shortest mantissa exponent))

/-- The text of a float is its sign and a text in a form of the float. -/
theorem exists_writes_text (number : Float32) :
    ∃ form behind, FormOf number.toModel.unpack form ∧ form.Writes behind ∧
      (text number).toList = signText (signOf number.toModel.unpack) ++ behind := by
  have canonical {sign : UnpackedFloat.Sign} {mantissa : Nat} {exponent : Int}
      {positive : 0 < mantissa}
      (unpacked : number.toModel.unpack = .finite sign mantissa exponent positive) :
      Decimal.Canonical mantissa exponent := canonical_of_unpack unpacked
  unfold text
  rw [String.toList_ofList]
  generalize number.toModel.unpack = unpacked at canonical ⊢
  match unpacked with
  | .notANumber => exact ⟨_, _, .notANumber, rfl, rfl⟩
  | .infinity sign => exact ⟨_, _, .infinity sign, rfl, rfl⟩
  | .zero sign =>
    have writes : WritesPoint 0 ['0', '.', '0'] :=
      ⟨['0'], ['0'], rfl, by simp, by simp, by simp [Nat.ofDigitChars_cons]⟩
    exact ⟨_, _, .zero sign, writes, rfl⟩
  | .finite sign mantissa exponent positive =>
    dsimp only
    by_cases isPositional : positionalFrom ≤ number.abs ∧ number.abs < positionalBelow
    · rw [if_pos isPositional]
      exact ⟨_, _, .point sign positive (canonical rfl), Decimal.writesPoint_positional _, rfl⟩
    · rw [if_neg isPositional]
      exact ⟨_, _, .scientific sign positive (canonical rfl), rfl, rfl⟩

/-- Two floats with one sign and one form are equal. -/
theorem FormOf.eq {first second : UnpackedFloat} {form other : Form} (isForm : FormOf first form)
    (isOther : FormOf second other) (same : form = other) (signs : signOf first = signOf second) :
    first = second := by
  cases isForm with
  | notANumber =>
    cases isOther with
    | notANumber => rfl
    | infinity | zero | point | scientific => cases same
  | infinity =>
    cases isOther with
    | infinity => exact congrArg UnpackedFloat.infinity signs
    | notANumber | zero | point | scientific => cases same
  | zero =>
    cases isOther with
    | zero => exact congrArg UnpackedFloat.zero signs
    | point sign positive canonical =>
      exact absurd (Form.point.inj same) (Decimal.value_shortest_pos canonical).ne
    | notANumber | infinity | scientific => cases same
  | point sign positive canonical =>
    cases isOther with
    | zero => exact absurd (Form.point.inj same) (Decimal.value_shortest_pos canonical).ne'
    | point sign' positive' canonical' =>
      obtain ⟨rfl, rfl⟩ :=
        Decimal.eq_of_value_shortest canonical canonical' (Form.point.inj same)
      obtain rfl : sign = sign' := signs
      rfl
    | notANumber | infinity | scientific => cases same
  | scientific sign positive canonical =>
    cases isOther with
    | scientific sign' positive' canonical' =>
      obtain ⟨rfl, rfl⟩ := Decimal.eq_of_value_shortest canonical canonical'
        (congrArg Decimal.value (Form.scientific.inj same))
      obtain rfl : sign = sign' := signs
      rfl
    | notANumber | infinity | zero | point => cases same

theorem signText_injective {first second : UnpackedFloat.Sign}
    (same : signText first = signText second) : first = second := by
  cases first <;> cases second <;> simp_all [signText]

/-- A float is written as no other float. -/
theorem text_injective {first second : Float32} (same : text first = text second) :
    first = second := by
  obtain ⟨form, behind, isForm, writes, firstText⟩ := exists_writes_text first
  obtain ⟨form', behind', isForm', writes', secondText⟩ := exists_writes_text second
  have minus (sign : UnpackedFloat.Sign) : ∀ c ∈ signText sign, c = '-' := by
    cases sign <;> simp [signText]
  have noMinus {form : Form} {behind : List Char} (writes : form.Writes behind) :
      ∀ c ∈ behind.head?, ¬ c = '-' := by
    obtain ⟨c, rest, rfl, isHead⟩ := writes.head
    rintro _ ⟨⟩ rfl
    revert isHead
    decide
  have characters := congrArg String.toList same
  rw [firstText, secondText] at characters
  obtain ⟨signs, texts⟩ := append_inj_of_stop (minus _) (minus _) (noMinus writes)
    (noMinus writes') characters
  obtain rfl := texts
  exact unpack_injective (isForm.eq isForm' (writes.eq writes') (signText_injective signs))

theorem newline_notMem_text (number : Float32) : '\n' ∉ (text number).toList := by
  obtain ⟨form, behind, _, writes, written⟩ := exists_writes_text number
  rw [written]
  cases signOf number.toModel.unpack <;> simp [signText, writes.newline_notMem]

/-- No integer is written like a float. -/
theorem exists_notDigit_mem_text (number : Float32) :
    ∃ c ∈ (text number).toList, c ≠ '-' ∧ c.isDigit = false := by
  obtain ⟨form, behind, _, writes, written⟩ := exists_writes_text number
  obtain ⟨c, member, notDigit⟩ := writes.exists_notDigit
  rw [written]
  exact ⟨c, List.mem_append_right _ member, notDigit⟩

/-- The text of a float begins with a digit, a sign or the letter of its word. -/
theorem head_text (number : Float32) :
    ∃ c rest, (text number).toList = c :: rest ∧
      (c = '-' ∨ c = 'N' ∨ c = 'i' ∨ c.isDigit = true) := by
  obtain ⟨form, behind, _, writes, written⟩ := exists_writes_text number
  rw [written]
  cases signOf number.toModel.unpack with
  | negative => exact ⟨'-', behind, rfl, .inl rfl⟩
  | positive =>
    obtain ⟨c, rest, rfl, isHead⟩ := writes.head
    exact ⟨c, rest, rfl, .inr isHead⟩

end TypedImp.Binary32
