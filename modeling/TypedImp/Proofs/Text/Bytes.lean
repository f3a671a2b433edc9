import Mathlib.Algebra.Group.Nat.Defs
import Mathlib.Data.List.Basic
import Mathlib.Tactic.SplitIfs

/-!
# The order of bytes

Texts that are ordered by code points are ordered in the same way by the bytes of their UTF-8 form:
the first byte of a character says how many there are, and more bytes stand for a larger number.
The number is in the bytes with its digits to the base 64, from the highest one on.
-/

namespace TypedImp.Text

/-- The bytes of a text in UTF-8. -/
def bytes (text : String) : List UInt8 :=
  text.toUTF8.data.toList

theorem bytes_ofList (text : List Char) :
    bytes (String.ofList text) = text.flatMap String.utf8EncodeChar := by
  rw [bytes, String.toUTF8_eq_toByteArray, String.toByteArray_ofList]
  exact List.toList_data_toByteArray

theorem ofNat_lt {first second : Nat} (less : first < second) (small : second < 256) :
    UInt8.ofNat first < UInt8.ofNat second := by
  rw [UInt8.lt_iff_toNat_lt, UInt8.toNat_ofNat', UInt8.toNat_ofNat']
  omega

theorem append_lt_append {first second : List UInt8} (less : first < second) (front : List UInt8) :
    front ++ first < front ++ second := by
  induction front with
  | nil => exact less
  | cons byte front ih => exact List.cons_lt_cons_iff.mpr (.inr ⟨rfl, ih⟩)

/-- A number in a first byte that begins at a mark and in some bytes with six bits each. -/
def digits : Nat → Nat → Nat → List UInt8
  | 0, mark, number => [UInt8.ofNat (mark + number)]
  | more + 1, mark, number => digits more mark (number / 64) ++ [UInt8.ofNat (128 + number % 64)]

theorem exists_digits_cons (more mark number : Nat) :
    ∃ rest, digits more mark number = UInt8.ofNat (mark + number / 64 ^ more) :: rest := by
  induction more generalizing number with
  | zero => exact ⟨[], by simp [digits]⟩
  | succ more ih =>
    obtain ⟨rest, split⟩ := ih (number / 64)
    refine ⟨rest ++ [UInt8.ofNat (128 + number % 64)], ?_⟩
    rw [digits, split, Nat.div_div_eq_div_mul, Nat.pow_succ, Nat.mul_comm 64]
    rfl

/-- The first byte decides if it differs. -/
theorem digits_append_lt_of_first {more mark number more' mark' number' : Nat}
    (less : mark + number / 64 ^ more < mark' + number' / 64 ^ more')
    (small : mark' + number' / 64 ^ more' < 256) (first second : List UInt8) :
    digits more mark number ++ first < digits more' mark' number' ++ second := by
  obtain ⟨rest, split⟩ := exists_digits_cons more mark number
  obtain ⟨rest', split'⟩ := exists_digits_cons more' mark' number'
  rw [split, split']
  exact List.cons_lt_cons_iff.mpr (.inl (ofNat_lt less small))

/-- Of numbers with equally many bytes the smaller one has the smaller bytes. -/
theorem digits_append_lt {more mark number larger : Nat} (less : number < larger)
    (small : mark + larger / 64 ^ more < 256) (first second : List UInt8) :
    digits more mark number ++ first < digits more mark larger ++ second := by
  induction more generalizing number larger first second with
  | zero => exact digits_append_lt_of_first (by simpa using less) small first second
  | succ more ih =>
    rw [Nat.pow_succ, Nat.mul_comm, ← Nat.div_div_eq_div_mul] at small
    rw [digits, digits, List.append_assoc, List.append_assoc]
    -- The digits before the last one decide, unless they are equal.
    rcases Nat.lt_or_ge (number / 64) (larger / 64) with front | same
    · exact ih front small _ _
    · have fronts : number / 64 = larger / 64 := by omega
      rw [fronts]
      refine append_lt_append (List.cons_lt_cons_iff.mpr (.inl (ofNat_lt ?_ ?_))) _ <;> omega

/-- The forms of a code point: how many bytes follow the first one, and the mark that it begins
at. -/
inductive FormOf : Nat → Nat → Nat → Prop
  | one {number : Nat} (small : number ≤ 127) : FormOf number 0 0
  | two {number : Nat} (large : 127 < number) (small : number ≤ 2047) : FormOf number 1 192
  | three {number : Nat} (large : 2047 < number) (small : number ≤ 65535) : FormOf number 2 224
  | four {number : Nat} (large : 65535 < number) (small : number < 1114112) : FormOf number 3 240

theorem FormOf.first_lt {number more mark : Nat} (isForm : FormOf number more mark) :
    mark + number / 64 ^ more < 256 := by
  cases isForm <;> omega

/-- A larger number has the same form or a larger first byte. -/
theorem FormOf.eq_or_first_lt {number more mark larger more' mark' : Nat}
    (isForm : FormOf number more mark) (isForm' : FormOf larger more' mark')
    (less : number < larger) :
    more = more' ∧ mark = mark' ∨ mark + number / 64 ^ more < mark' + larger / 64 ^ more' := by
  cases isForm <;> cases isForm' <;> omega

theorem code_lt (c : Char) : c.val.toNat < 1114112 := by
  have valid := c.valid
  simp only [UInt32.isValidChar, Nat.isValidChar] at valid
  omega

/-- The bytes of a character are those of a form of its code point. -/
theorem exists_formOf (c : Char) : ∃ more mark,
    FormOf c.val.toNat more mark ∧ String.utf8EncodeChar c = digits more mark c.val.toNat := by
  have bound := code_lt c
  unfold String.utf8EncodeChar
  dsimp only
  generalize c.val.toNat = number at bound
  split_ifs with one two three
  · exact ⟨0, 0, .one one, by simp [digits]⟩
  · refine ⟨1, 192, .two (by omega) two, ?_⟩
    rw [show number / 64 % 32 = number / 64 by omega]
    simp [digits, Nat.add_comm]
  · refine ⟨2, 224, .three (by omega) three, ?_⟩
    rw [show number / 4096 % 16 = number / 64 / 64 by omega]
    simp [digits, Nat.add_comm]
  · refine ⟨3, 240, .four (by omega) bound, ?_⟩
    rw [show number / 262144 % 8 = number / 64 / 64 / 64 by omega,
      show number / 4096 = number / 64 / 64 by omega]
    simp [digits, Nat.add_comm]

/-- A smaller character has smaller bytes, whatever follows. -/
theorem encode_append_lt {c d : Char} (less : c < d) (first second : List UInt8) :
    String.utf8EncodeChar c ++ first < String.utf8EncodeChar d ++ second := by
  have numbers : c.val.toNat < d.val.toNat := UInt32.lt_iff_toNat_lt.mp less
  obtain ⟨more, mark, isForm, encoded⟩ := exists_formOf c
  obtain ⟨more', mark', isForm', encoded'⟩ := exists_formOf d
  rw [encoded, encoded']
  rcases isForm.eq_or_first_lt isForm' numbers with ⟨rfl, rfl⟩ | firstLess
  · exact digits_append_lt numbers isForm'.first_lt first second
  · exact digits_append_lt_of_first firstLess isForm'.first_lt first second

/-- Texts are ordered like their bytes. -/
theorem bytes_lt {first second : String} (less : first < second) : bytes first < bytes second := by
  have characters : first.toList < second.toList := String.lt_iff.mp less
  rw [← String.ofList_toList (s := first), ← String.ofList_toList (s := second), bytes_ofList,
    bytes_ofList]
  generalize first.toList = text at characters
  generalize second.toList = other at characters
  induction text generalizing other with
  | nil =>
    cases other with
    | nil => cases characters
    | cons d other =>
      obtain ⟨byte, behind, encoded⟩ :=
        List.exists_cons_of_ne_nil (String.utf8EncodeChar_ne_nil (c := d))
      rw [List.flatMap_cons, encoded]
      exact List.nil_lt_cons byte _
  | cons c text ih =>
    cases other with
    | nil => cases characters
    | cons d other =>
      rw [List.flatMap_cons, List.flatMap_cons]
      rcases List.cons_lt_cons_iff.mp characters with head | ⟨rfl, tail⟩
      · exact encode_append_lt head _ _
      · exact append_lt_append (ih other tail) _

end TypedImp.Text
