import Mathlib.Tactic.SplitIfs
import TypedImp.Diagnostic
import TypedImp.Proofs.Evaluation.Keeps
import TypedImp.Proofs.Grammar.Naming
import TypedImp.Proofs.Typing.Naming

/-!
# Messages of one line

A message is put together from fixed words, numbers, quoted characters and names.  It has no
newline if the name in it has none.
-/

namespace TypedImp

section Parts

@[simp]
theorem toString_text (text : String) : toString text = text :=
  rfl

theorem newline_notMem_toDigits {base : Nat} (proper : 1 < base) (number : Nat) :
    '\n' ∉ Nat.toDigits base number := by
  have noDigit (digit : Nat) : '\n' ≠ Nat.digitChar digit :=
    (Nat.digitChar_ne '\n' (by decide)).symm
  induction number using Nat.strongRecOn with
  | ind number ih =>
    rw [Nat.toDigits_eq_if proper]
    split
    case isTrue => simp [noDigit]
    case isFalse large =>
      have smaller := ih (number / base) (Nat.div_lt_self (by omega) proper)
      simp [noDigit, smaller]

@[simp]
theorem newline_notMem_decimal (number : Nat) : '\n' ∉ Nat.toDigits 10 number :=
  newline_notMem_toDigits (by decide) number

@[simp]
theorem newline_notMem_int (number : Int) : '\n' ∉ number.repr.toList := by
  cases number with
  | ofNat number =>
    change '\n' ∉ number.repr.toList
    simp
  | negSucc number =>
    change '\n' ∉ ("-" ++ (number + 1).repr).toList
    simp

@[simp]
theorem Span.newline_notMem_text (span : Span) : '\n' ∉ span.text.toList := by
  simp [Span.text]

/-- A newline is escaped like every character that is not shown as it is. -/
theorem Text.newline_notMem_escape (quote c : Char) (isQuote : quote ≠ '\n') :
    '\n' ∉ Text.escape quote c := by
  have digits := newline_notMem_toDigits (show 1 < 16 by decide) c.toNat
  unfold Text.escape Text.codePointEscape
  split_ifs with _ _ _ isNewline isMark
  · decide
  · decide
  · decide
  · decide
  · rcases isMark with rfl | rfl
    · decide
    · simp [isQuote.symm]
  · simp [Ne.symm isNewline]
  · simp [digits]

@[simp]
theorem Text.newline_notMem_quoteCharacter (c : Char) :
    '\n' ∉ (Text.quoteCharacter c).toList := by
  simp [Text.quoteCharacter, Text.newline_notMem_escape]

@[simp]
theorem Ty.newline_notMem_name (ty : Ty) : '\n' ∉ ty.name.toList := by
  cases ty <;> simp [name]

@[simp]
theorem TokenKind.newline_notMem_name (kind : TokenKind) : '\n' ∉ kind.name.toList := by
  cases kind with
  | typeName ty => cases ty <;> simp [name]
  | _ => simp [name]

@[simp]
theorem BinaryOperator.newline_notMem_symbol (op : BinaryOperator) :
    '\n' ∉ op.symbol.toList := by
  cases op <;> simp [symbol]

end Parts

end TypedImp
