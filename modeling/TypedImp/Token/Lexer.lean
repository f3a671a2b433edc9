import TypedImp.Text.Quoted
import TypedImp.Token.Basic

/-!
# Cutting a text into tokens

The scanner skips trivia (blanks and line comments) and then takes the longest token
that the text starts with.  Where no token starts it reports why, and it can go on
behind the characters that it looked at.

`scan_text_append_rest` says that a lexeme and what follows it are the text that was
scanned, and `Scanner.length_rest_next_lt` that every call of the scanner before the end
of the text takes at least one character.
-/

namespace TypedImp

/-- Why no token starts at a place. -/
inductive LexError where
  | unexpectedCharacter (c : Char)
  /-- A character that only forms an operator when it is written twice. -/
  | incompleteOperator (c : Char)
  | unclosedCharacter
  | emptyCharacter
  | readPastEnd
  deriving DecidableEq

/-- Say what is wrong. -/
def LexError.message : LexError → String
  | .unexpectedCharacter c => s!"unexpected character {Text.quoteCharacter c}"
  | .incompleteOperator c => s!"incomplete operator, expected {c}{c}"
  | .unclosedCharacter => "unclosed character literal"
  | .emptyCharacter => "empty character literal"
  | .readPastEnd => "attempt to read past end of file"

namespace Lexer

/-- Blanks: space, tab, newline, form feed and carriage return. -/
def isBlank (c : Char) : Bool :=
  c == ' ' || c == '\t' || c == '\n' || c == '\x0c' || c == '\r'

/-- Split the trivia off the front of a text.  Inside a comment everything up to the
newline is trivia. -/
def splitTrivia : (inComment : Bool) → List Char → List Char × List Char
  | _, [] => ([], [])
  | true, c :: text =>
    let (trivia, rest) := splitTrivia (c != '\n') text
    (c :: trivia, rest)
  | false, '/' :: '/' :: text =>
    let (trivia, rest) := splitTrivia true text
    ('/' :: '/' :: trivia, rest)
  | false, c :: text =>
    if isBlank c then
      let (trivia, rest) := splitTrivia false text
      (c :: trivia, rest)
    else
      ([], c :: text)

/-- What was found at the front of a text, its characters, and the text behind it. -/
structure Lexeme where
  outcome : Except LexError TokenKind
  text : List Char
  rest : List Char

/-- A letter and the letters and digits behind it: a reserved word or an identifier. -/
def scanWord (c : Char) (following : List Char) : Lexeme :=
  let text := c :: following.takeWhile Char.isAlphanum
  ⟨.ok ((TokenKind.keyword? (String.ofList text)).getD .identifier), text,
    following.dropWhile Char.isAlphanum⟩

/-- A digit and the digits behind it; a point makes it a float, with or without digits
behind the point. -/
def scanNumber (c : Char) (following : List Char) : Lexeme :=
  let digits := following.takeWhile Char.isDigit
  match following.dropWhile Char.isDigit with
  | '.' :: rest =>
    ⟨.ok .floatLiteral, c :: digits ++ '.' :: rest.takeWhile Char.isDigit,
      rest.dropWhile Char.isDigit⟩
  | rest => ⟨.ok .intLiteral, c :: digits, rest⟩

/-- A quote, one character and a quote.  The character is not a quote, a newline or a
null character. -/
def scanCharacter : List Char → Lexeme
  | [] => ⟨.error .unclosedCharacter, ['\''], []⟩
  | c :: rest =>
    if c = '\x00' ∨ c = '\n' then ⟨.error .unclosedCharacter, ['\'', c], rest⟩
    else if c = '\'' then ⟨.error .emptyCharacter, ['\'', c], rest⟩
    else
      match rest with
      | '\'' :: rest => ⟨.ok .charLiteral, ['\'', c, '\''], rest⟩
      | rest => ⟨.error .unclosedCharacter, ['\'', c], rest⟩

/-- A symbol of one character. -/
def scanSingle (c : Char) (following : List Char) : Lexeme :=
  match TokenKind.symbol? c with
  | some kind => ⟨.ok kind, [c], following⟩
  | none =>
    if c = '&' ∨ c = '|' then ⟨.error (.incompleteOperator c), [c], following⟩
    else ⟨.error (.unexpectedCharacter c), [c], following⟩

/-- A symbol of two characters if there is one, else of one. -/
def scanSymbol (c : Char) : List Char → Lexeme
  | [] => scanSingle c []
  | second :: rest =>
    match TokenKind.doubleSymbol? c second with
    | some kind => ⟨.ok kind, [c, second], rest⟩
    | none => scanSingle c (second :: rest)

/-- Scan what starts with the character `c`, which is not trivia. -/
def scan (c : Char) (following : List Char) : Lexeme :=
  if c.isAlpha then scanWord c following
  else if c.isDigit then scanNumber c following
  else if c = '\'' then scanCharacter following
  else scanSymbol c following

theorem splitTrivia_append (inComment : Bool) (text : List Char) :
    (splitTrivia inComment text).1 ++ (splitTrivia inComment text).2 = text := by
  fun_induction splitTrivia inComment text <;> simp_all

theorem scanSingle_text_append_rest (c : Char) (following : List Char) :
    (scanSingle c following).text ++ (scanSingle c following).rest = c :: following := by
  unfold scanSingle
  repeat' split
  all_goals rfl

/-- A lexeme and what follows it make up the text. -/
theorem scan_text_append_rest (c : Char) (following : List Char) :
    (scan c following).text ++ (scan c following).rest = c :: following := by
  unfold scan
  split
  · simp [scanWord]
  split
  · unfold scanNumber
    split
    case _ rest heq =>
      simp only [List.cons_append, List.append_assoc, List.takeWhile_append_dropWhile]
      rw [← heq, List.takeWhile_append_dropWhile]
    · simp
  split
  case _ quote =>
    subst quote
    unfold scanCharacter
    repeat' split
    all_goals rfl
  unfold scanSymbol
  repeat' split
  · exact scanSingle_text_append_rest ..
  · rfl
  · exact scanSingle_text_append_rest ..

/-- A lexeme is never empty. -/
theorem scan_text_ne_nil (c : Char) (following : List Char) :
    (scan c following).text ≠ [] := by
  unfold scan scanWord scanNumber scanCharacter scanSymbol scanSingle
  repeat' split
  all_goals simp

theorem scan_rest_length_le (c : Char) (following : List Char) :
    (scan c following).rest.length ≤ following.length := by
  have whole := congrArg List.length (scan_text_append_rest c following)
  have positive := List.length_pos_iff.mpr (scan_text_ne_nil c following)
  simp only [List.length_append, List.length_cons] at whole
  omega

end Lexer

/-- A place in a source text: the offset, the text behind it, and whether the end has
been reported. -/
structure Scanner where
  offset : Nat
  rest : List Char
  finished : Bool
  deriving DecidableEq

namespace Scanner

open Lexer

/-- The place before the first character of a source. -/
def ofSource (source : String) : Scanner :=
  ⟨0, source.toList, false⟩

/-- Give the next token, or say why there is none, and move behind it.  The text of a
token is what its span covers. -/
def next (scanner : Scanner) : Except (Spanned LexError) Token × Scanner :=
  if scanner.finished then
    (.error ⟨Span.emptyAt scanner.offset, .readPastEnd⟩, scanner)
  else
    let (trivia, rest) := splitTrivia false scanner.rest
    let lo := scanner.offset + Source.byteLength trivia
    match rest with
    | [] => (.ok (Token.endAt lo), ⟨lo, [], true⟩)
    | c :: following =>
      let lexeme := scan c following
      let hi := lo + Source.byteLength lexeme.text
      let span := Span.ofBounds lo hi
      let behind : Scanner := ⟨hi, lexeme.rest, false⟩
      match lexeme.outcome with
      | .ok kind =>
        (.ok ⟨kind, span, String.ofList (Source.before span.length lexeme.text)⟩, behind)
      | .error error => (.error ⟨span, error⟩, behind)

/-- The results of a number of calls, going on after errors. -/
def results : (calls : Nat) → Scanner → List (Except (Spanned LexError) Token)
  | 0, _ => []
  | calls + 1, scanner =>
    let (result, behind) := scanner.next
    result :: results calls behind

theorem splitTrivia_rest_length_le (text : List Char) :
    (splitTrivia false text).2.length ≤ text.length := by
  have whole := congrArg List.length (splitTrivia_append false text)
  simp only [List.length_append] at whole
  omega

/-- A token before the end takes at least one character off the text. -/
theorem length_rest_next_lt {scanner behind : Scanner} {token : Token}
    (step : scanner.next = (.ok token, behind)) (notEnd : token.kind ≠ .endOfInput) :
    behind.rest.length < scanner.rest.length := by
  have triviaLength := splitTrivia_rest_length_le scanner.rest
  unfold next at step
  split at step
  · simp at step
  split at step
  case _ trivia rest split =>
    rw [split] at triviaLength
    split at step
    · simp only [Prod.mk.injEq, Except.ok.injEq] at step
      rw [← step.1] at notEnd
      exact absurd rfl notEnd
    case _ c following =>
      have lexemeLength := scan_rest_length_le c following
      simp only at step triviaLength
      split at step
      · simp only [Prod.mk.injEq] at step
        rw [← step.2]
        simp only [List.length_cons] at triviaLength ⊢
        omega
      · simp at step

end Scanner

/-- The tokens of a source before its end or before the first error, and what comes behind
them: the error, or the offset of the end. -/
structure Lexed where
  tokens : List Token
  ending : Except (Spanned LexError) Nat

namespace Lexed

/-- All tokens, with the end of the source if it was reached. -/
def all (lexed : Lexed) : List Token :=
  match lexed.ending with
  | .ok stop => lexed.tokens ++ [Token.endAt stop]
  | .error _ => lexed.tokens

/-- Scan up to the end or the first error. -/
def ofScanner (scanner : Scanner) : Lexed :=
  match _step : scanner.next with
  | (.error error, _) => ⟨[], .error error⟩
  | (.ok token, behind) =>
    if _isEnd : token.kind = .endOfInput then
      ⟨[], .ok token.span.lo⟩
    else
      let following := ofScanner behind
      { following with tokens := token :: following.tokens }
termination_by scanner.rest.length
decreasing_by exact Scanner.length_rest_next_lt _step _isEnd

/-- Scan a source up to its end or its first error. -/
def ofSource (source : String) : Lexed :=
  ofScanner (Scanner.ofSource source)

end Lexed

end TypedImp
