import Mathlib.Tactic.SplitIfs
import TypedImp.Text.Quoted

/-!
# Texts that are cut in one way

A text that is put together from two parts gives them back, if the first part ends where a
property ends (`append_inj_of_stop`).  The digits of a number give back the number, and the quoted
form of a character gives back the character.
-/

namespace TypedImp.Text

/-- Two lists that go on behind items with a property, and then with an item without it, are equal
only part by part. -/
theorem append_inj_of_stop {α : Type} {holds : α → Prop} {first second rest others : List α}
    (allFirst : ∀ item ∈ first, holds item) (allSecond : ∀ item ∈ second, holds item)
    (stops : ∀ item ∈ rest.head?, ¬ holds item) (stops' : ∀ item ∈ others.head?, ¬ holds item)
    (same : first ++ rest = second ++ others) : first = second ∧ rest = others := by
  induction first generalizing second with
  | nil =>
    cases second with
    | nil => exact ⟨rfl, same⟩
    | cons item following =>
      rw [List.nil_append] at same
      refine (stops item ?_ (allSecond item List.mem_cons_self)).elim
      rw [same]
      rfl
  | cons item following ih =>
    cases second with
    | nil =>
      rw [List.nil_append] at same
      refine (stops' item ?_ (allFirst item List.mem_cons_self)).elim
      rw [← same]
      rfl
    | cons item' following' =>
      obtain ⟨rfl, behind⟩ := List.cons.inj same
      rw [List.forall_mem_cons] at allFirst allSecond
      obtain ⟨rfl, sameRest⟩ := ih allFirst.2 allSecond.2 behind
      exact ⟨rfl, sameRest⟩

theorem digitChar_inj : ∀ first < 16, ∀ second < 16,
    Nat.digitChar first = Nat.digitChar second → first = second := by
  decide

theorem append_singleton_ne_singleton {α : Type} {front : List α} {last item : α}
    (nonempty : front ≠ []) : front ++ [last] ≠ [item] := by
  cases front with
  | nil => exact absurd rfl nonempty
  | cons head rest => simp

/-- The digits of a number to a base write no other number. -/
theorem toDigits_injective {base : Nat} (proper : 1 < base) (small : base ≤ 16) {first second : Nat}
    (same : Nat.toDigits base first = Nat.toDigits base second) : first = second := by
  induction first using Nat.strongRecOn generalizing second with
  | ind first ih =>
    rw [Nat.toDigits_eq_if proper, Nat.toDigits_eq_if (n := second) proper] at same
    split_ifs at same with oneDigit oneDigit' oneDigit'
    · exact digitChar_inj _ (by omega) _ (by omega) (List.singleton_inj.mp same)
    · exact (append_singleton_ne_singleton Nat.toDigits_ne_nil same.symm).elim
    · exact (append_singleton_ne_singleton Nat.toDigits_ne_nil same).elim
    · obtain ⟨front, last⟩ := List.append_inj' same rfl
      have quotient := ih (first / base) (Nat.div_lt_self (by omega) proper) front
      have remainder := digitChar_inj _ (Nat.lt_of_lt_of_le (Nat.mod_lt _ (by omega)) small)
        _ (Nat.lt_of_lt_of_le (Nat.mod_lt _ (by omega)) small) (List.singleton_inj.mp last)
      rw [← Nat.div_add_mod first base, ← Nat.div_add_mod second base, quotient, remainder]

/-- The digits of an integer are behind its sign. -/
theorem toList_toString_int (number : Int) :
    (toString number).toList =
      (if number < 0 then ['-'] else []) ++ Nat.toDigits 10 number.natAbs := by
  cases number with
  | ofNat number =>
    change number.repr.toList = _
    simp
  | negSucc number =>
    change ("-" ++ (number + 1).repr).toList = _
    simp [Int.negSucc_lt_zero]

theorem minus_or_digit_of_mem_toString_int {c : Char} {number : Int}
    (member : c ∈ (toString number).toList) : c = '-' ∨ c.isDigit = true := by
  rw [toList_toString_int] at member
  rcases List.mem_append.mp member with isSign | inDigits
  · split at isSign
    · exact .inl (List.mem_singleton.mp isSign)
    · cases isSign
  · exact .inr (Nat.isDigit_of_mem_toDigits (by decide) (by decide) inDigits)

theorem not_minus_of_mem_toDigits {c : Char} {number : Nat} (member : c ∈ Nat.toDigits 10 number) :
    c ≠ '-' := by
  rintro rfl
  exact absurd (Nat.isDigit_of_mem_toDigits (by decide) (by decide) member) (by decide)

/-- An integer is written as no other integer. -/
theorem toString_int_injective {first second : Int} (same : toString first = toString second) :
    first = second := by
  have characters := congrArg String.toList same
  rw [toList_toString_int, toList_toString_int] at characters
  have isSign (number : Int) : ∀ c ∈ if number < 0 then ['-'] else [], c = '-' := by
    split <;> simp
  have noSign (number : Nat) : ∀ c ∈ (Nat.toDigits 10 number).head?, ¬ c = '-' :=
    fun c isHead => not_minus_of_mem_toDigits (List.mem_of_mem_head? isHead)
  obtain ⟨signs, digits⟩ := append_inj_of_stop (isSign first) (isSign second)
    (noSign first.natAbs) (noSign second.natAbs) characters
  have magnitude := toDigits_injective (by decide) (by decide) digits
  split_ifs at signs <;> simp at signs <;> omega

theorem codePointEscape_injective {first second : Char}
    (same : codePointEscape first = codePointEscape second) : first = second := by
  have digits : Nat.toDigits 16 first.toNat = Nat.toDigits 16 second.toNat := by
    simpa [codePointEscape] using same
  exact Char.toNat_inj.mp (toDigits_injective (by decide) (by decide) digits)

/-- The characters that have a name of one character behind the backslash. -/
def shortEscapes : List (Char × Char) :=
  [('\x00', '0'), ('\t', 't'), ('\r', 'r'), ('\n', 'n'), ('\\', '\\'), ('\'', '\'')]

theorem shortEscapes_injective :
    ∀ first ∈ shortEscapes, ∀ second ∈ shortEscapes, first.2 = second.2 → first.1 = second.1 := by
  decide

theorem escape_cases (c : Char) :
    (∃ mark, (c, mark) ∈ shortEscapes ∧ escape '\'' c = ['\\', mark]) ∨
      escape '\'' c = [c] ∨ escape '\'' c = codePointEscape c := by
  unfold escape
  split_ifs with isNull isTab isReturn isNewline isMark isShown
  · exact .inl ⟨'0', by simp [shortEscapes, isNull], rfl⟩
  · exact .inl ⟨'t', by simp [shortEscapes, isTab], rfl⟩
  · exact .inl ⟨'r', by simp [shortEscapes, isReturn], rfl⟩
  · exact .inl ⟨'n', by simp [shortEscapes, isNewline], rfl⟩
  · exact .inl ⟨c, by rcases isMark with rfl | rfl <;> simp [shortEscapes], rfl⟩
  · exact .inr (.inl rfl)
  · exact .inr (.inr rfl)

/-- The form of a character in single quotes is that of no other character. -/
theorem escape_injective {first second : Char}
    (same : escape '\'' first = escape '\'' second) : first = second := by
  rcases escape_cases first with ⟨mark, short, form⟩ | form | form <;>
    rcases escape_cases second with ⟨mark', short', form'⟩ | form' | form' <;>
    rw [form, form'] at same
  · exact shortEscapes_injective _ short _ short' (by simpa using same)
  · simp at same
  · simp [codePointEscape] at same
  · simp at same
  · exact List.singleton_inj.mp same
  · simp [codePointEscape] at same
  · simp [codePointEscape] at same
  · simp [codePointEscape] at same
  · exact codePointEscape_injective same

theorem quoteCharacter_injective {first second : Char}
    (same : quoteCharacter first = quoteCharacter second) : first = second := by
  have quoted := String.ofList_injective same
  rw [List.append_left_inj, List.append_right_inj] at quoted
  exact escape_injective quoted

end TypedImp.Text
