import TypedImp.Proofs.Binary32.Writing
import TypedImp.Proofs.Messages

/-!
# Texts of values

A value is known from its text: the first character tells truth values, characters and undefined
values from numbers, and a float has a character that is no digit and no sign.
-/

namespace TypedImp

namespace Value

/-- What is shown of a value with a content does not begin like an undefined value. -/
theorem head_text {value : Value} (defined : value.isUndefined = false) :
    ∀ c ∈ value.text.toList.head?, c ≠ 'u' := by
  cases value with
  | int number =>
    intro c isHead
    rcases Text.minus_or_digit_of_mem_toString_int (List.mem_of_mem_head? isHead) with rfl | isDigit
    · decide
    · rintro rfl
      cases isDigit
  | bool truth => cases truth <;> simp [text]
  | char character => simp [text, Text.quoteCharacter]
  | float number =>
    obtain ⟨c, rest, written, isHead⟩ := Binary32.head_text number
    intro other isOther
    rw [text, written] at isOther
    obtain rfl : c = other := Option.some.inj isOther
    rintro rfl
    revert isHead
    decide
  | undefined ty => cases defined

theorem text_ne_undefined {value : Value} (defined : value.isUndefined = false) (ty : Ty) :
    value.text ≠ (undefined ty).text := by
  intro same
  have noUndefined := head_text defined
  rw [same] at noUndefined
  exact noUndefined 'u' (by simp [text]) rfl

/-- Values of one type are written differently. -/
theorem text_injective {first second : Value} (types : first.ty = second.ty)
    (same : first.text = second.text) : first = second := by
  match first, second with
  | .int _, .int _ => exact congrArg int (Int32.toInt_inj.mp (Text.toString_int_injective same))
  | .bool truth, .bool other => cases truth <;> cases other <;> simp_all [text]
  | .char _, .char _ => exact congrArg char (Text.quoteCharacter_injective same)
  | .float _, .float _ => exact congrArg float (Binary32.text_injective same)
  | .undefined _, .undefined _ => exact congrArg undefined types
  | .int _, .undefined ty | .bool _, .undefined ty | .char _, .undefined ty
  | .float _, .undefined ty => exact absurd same (text_ne_undefined rfl ty)
  | .undefined ty, .int _ | .undefined ty, .bool _ | .undefined ty, .char _
  | .undefined ty, .float _ => exact absurd same.symm (text_ne_undefined rfl ty)
  | .int _, .bool _ | .int _, .char _ | .int _, .float _ | .bool _, .int _ | .bool _, .char _
  | .bool _, .float _ | .char _, .int _ | .char _, .bool _ | .char _, .float _ | .float _, .int _
  | .float _, .bool _ | .float _, .char _ => cases types

theorem newline_notMem_text (value : Value) : '\n' ∉ value.text.toList := by
  cases value with
  | int number => exact newline_notMem_int number.toInt
  | bool truth => cases truth <;> simp [text]
  | char character => exact Text.newline_notMem_quoteCharacter character
  | float number => exact Binary32.newline_notMem_text number
  | undefined ty => simp [text]

/-- The type of the value that a text shows, or none for an undefined value. -/
def shownTy? : List Char → Option Ty
  | [] => none
  | first :: rest =>
    if first = 'u' then none
    else if first = 't' ∨ first = 'f' then some .bool
    else if first = '\'' then some .char
    else if (first :: rest).all fun c => c = '-' || c.isDigit then some .int
    else some .float

theorem shownTy?_of_number {first : Char} (rest : List Char)
    (isFirst : first = '-' ∨ first = 'N' ∨ first = 'i' ∨ first.isDigit = true) :
    shownTy? (first :: rest) =
      if (first :: rest).all fun c => c = '-' || c.isDigit then some .int else some .float := by
  have other {c : Char} (isOther : (c = '-' ∨ c = 'N' ∨ c = 'i' ∨ c.isDigit = true) = False) :
      first ≠ c := by
    rintro rfl
    exact isOther ▸ isFirst
  rw [shownTy?, if_neg (other (by decide)),
    if_neg (not_or.mpr ⟨other (by decide), other (by decide)⟩), if_neg (other (by decide))]

theorem shownTy?_text (value : Value) :
    shownTy? value.text.toList = if value.isUndefined then none else some value.ty := by
  cases value with
  | int number =>
    have all : ∀ c ∈ (toString number.toInt).toList, c = '-' ∨ c.isDigit = true :=
      fun c => Text.minus_or_digit_of_mem_toString_int
    have nonempty : (toString number.toInt).toList ≠ [] := by
      rw [Text.toList_toString_int]
      exact List.append_ne_nil_of_right_ne_nil _ Nat.toDigits_ne_nil
    obtain ⟨first, rest, split⟩ := List.exists_cons_of_ne_nil nonempty
    rw [split] at all
    have isFirst : first = '-' ∨ first = 'N' ∨ first = 'i' ∨ first.isDigit = true :=
      (all first List.mem_cons_self).imp_right fun isDigit => .inr (.inr isDigit)
    rw [text, split, shownTy?_of_number rest isFirst, if_pos (by simpa using all)]
    rfl
  | bool truth => cases truth <;> simp [shownTy?, text, isUndefined, ty]
  | char character => simp [shownTy?, text, isUndefined, ty, Text.quoteCharacter]
  | float number =>
    obtain ⟨first, rest, written, isFirst⟩ := Binary32.head_text number
    obtain ⟨c, member, notSign, notDigit⟩ := Binary32.exists_notDigit_mem_text number
    rw [written] at member
    rw [text, written, shownTy?_of_number rest isFirst, if_neg fun all => ?_]
    · rfl
    · have signOrDigit := List.all_eq_true.mp all c member
      simp [notSign, notDigit] at signOrDigit
  | undefined ty => simp [shownTy?, text, isUndefined]

theorem exists_undefined {value : Value} (isUndefined : value.isUndefined = true) :
    ∃ ty, value = undefined ty := by
  cases value with
  | undefined ty => exact ⟨ty, rfl⟩
  | _ => cases isUndefined

/-- A value is written as no other value. -/
theorem eq_of_text_eq {first second : Value} (same : first.text = second.text) :
    first = second := by
  have types : (if first.isUndefined then none else some first.ty) =
      if second.isUndefined then none else some second.ty := by
    rw [← shownTy?_text, ← shownTy?_text, same]
  cases isUndefined : first.isUndefined with
  | false =>
    cases isUndefined' : second.isUndefined with
    | false =>
      rw [isUndefined, isUndefined'] at types
      exact text_injective (Option.some.inj types) same
    | true =>
      rw [isUndefined, isUndefined'] at types
      cases types
  | true =>
    cases isUndefined' : second.isUndefined with
    | false =>
      rw [isUndefined, isUndefined'] at types
      cases types
    | true =>
      obtain ⟨ty, rfl⟩ := exists_undefined isUndefined
      obtain ⟨ty', rfl⟩ := exists_undefined isUndefined'
      have names : ty.name = ty'.name := by simpa [text, ← String.toList_inj] using same
      rw [Ty.name_injective names]

end Value

end TypedImp
