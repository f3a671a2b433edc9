import TypedImp.Token.Basic

/-!
# Texts of tokens

The lexical grammar: which texts are tokens, and of which kind.  Its laws read a token text
from its first character, which decides whether it is a word, a number, a character or a
symbol.
-/

namespace TypedImp

/-- The texts of a kind that is written in fixed ways. -/
def TokenKind.spellings : TokenKind → List String
  | .typeName .int => ["int"]
  | .typeName .bool => ["bool", "boolean"]
  | .typeName .char => ["char"]
  | .typeName .float => ["float"]
  | .typeName .void => ["void"]
  | .ifWord => ["if"]
  | .elseWord => ["else"]
  | .whileWord => ["while"]
  | .returnWord => ["return"]
  | .trueWord => ["true"]
  | .falseWord => ["false"]
  | .plus => ["+"]
  | .minus => ["-"]
  | .star => ["*"]
  | .slash => ["/"]
  | .not => ["!"]
  | .and => ["&&"]
  | .or => ["||"]
  | .less => ["<"]
  | .lessEq => ["<="]
  | .greater => [">"]
  | .greaterEq => [">="]
  | .eqEq => ["=="]
  | .notEq => ["!="]
  | .assign => ["="]
  | .semicolon => [";"]
  | .comma => [","]
  | .leftParen => ["("]
  | .rightParen => [")"]
  | .leftBrace => ["\x7b"]
  | .rightBrace => ["\x7d"]
  | .identifier | .intLiteral | .floatLiteral | .charLiteral | .endOfInput => []

/-- A text is a token of a kind. -/
inductive TokenText : TokenKind → List Char → Prop
  | spelled {kind : TokenKind} {text : List Char} (spelling : String.ofList text ∈ kind.spellings) :
      TokenText kind text
  | identifier {first : Char} {rest : List Char} (letter : first.isAlpha = true)
      (word : ∀ c ∈ rest, c.isAlphanum = true)
      (unreserved : ∀ kind : TokenKind, String.ofList (first :: rest) ∉ kind.spellings) :
      TokenText .identifier (first :: rest)
  | intLiteral {digits : List Char} (present : digits ≠ [])
      (areDigits : ∀ c ∈ digits, c.isDigit = true) : TokenText .intLiteral digits
  | floatLiteral {whole fraction : List Char} (present : whole ≠ [])
      (wholeDigits : ∀ c ∈ whole, c.isDigit = true)
      (fractionDigits : ∀ c ∈ fraction, c.isDigit = true) :
      TokenText .floatLiteral (whole ++ '.' :: fraction)
  | charLiteral {c : Char} (notQuote : c ≠ '\'') (notNewline : c ≠ '\n') (notNull : c ≠ '\x00') :
      TokenText .charLiteral ['\'', c, '\'']

namespace TokenKind

theorem mem_keywords_of_keyword? {word : String} {kind : TokenKind}
    (reserved : keyword? word = some kind) : (word, kind) ∈ keywords := by
  obtain ⟨earlier, later, split, _⟩ := List.lookup_eq_some_iff.mp reserved
  rw [split]
  exact List.mem_append_right earlier List.mem_cons_self

/-- A reserved word is a letter with letters and digits behind it. -/
theorem isWord_of_keyword? {first : Char} {rest : List Char} {kind : TokenKind}
    (reserved : keyword? (String.ofList (first :: rest)) = some kind) :
    first.isAlpha = true ∧ ∀ c ∈ rest, c.isAlphanum = true := by
  have areWords : ∀ entry ∈ keywords,
      entry.1.toList.head?.all Char.isAlpha = true ∧
        ∀ c ∈ entry.1.toList.tail, c.isAlphanum = true := by
    simp [keywords]
  simpa using areWords _ (mem_keywords_of_keyword? reserved)

theorem notWord_of_symbol? {c : Char} {kind : TokenKind} (isSymbol : symbol? c = some kind) :
    c.isAlpha = false ∧ c.isDigit = false ∧ c ≠ '\'' := by
  unfold symbol? at isSymbol
  split at isSymbol
  case h_15 => cases isSymbol
  all_goals decide

theorem notWord_of_doubleSymbol? {c d : Char} {kind : TokenKind}
    (isSymbol : doubleSymbol? c d = some kind) :
    c.isAlpha = false ∧ c.isDigit = false ∧ c ≠ '\'' := by
  unfold doubleSymbol? at isSymbol
  split at isSymbol
  case h_7 => cases isSymbol
  all_goals decide

theorem spelling_of_keyword? {word : String} {kind : TokenKind}
    (reserved : keyword? word = some kind) : word ∈ kind.spellings := by
  have spelled : ∀ entry ∈ keywords, entry.1 ∈ entry.2.spellings := by
    decide
  exact spelled _ (mem_keywords_of_keyword? reserved)

theorem spelling_of_symbol? {c : Char} {kind : TokenKind} (isSymbol : symbol? c = some kind) :
    String.ofList [c] ∈ kind.spellings := by
  unfold symbol? at isSymbol
  split at isSymbol <;> cases isSymbol
  all_goals decide

theorem spelling_of_doubleSymbol? {c d : Char} {kind : TokenKind}
    (isSymbol : doubleSymbol? c d = some kind) : String.ofList [c, d] ∈ kind.spellings := by
  unfold doubleSymbol? at isSymbol
  split at isSymbol <;> cases isSymbol
  all_goals decide

/-- The scanner knows every spelling, as a reserved word or as a symbol. -/
theorem known_of_spelling {word : String} {kind : TokenKind} (spelling : word ∈ kind.spellings) :
    keyword? word = some kind ∨ (∃ c, word.toList = [c] ∧ symbol? c = some kind) ∨
      ∃ c d, word.toList = [c, d] ∧ doubleSymbol? c d = some kind := by
  match kind with
  | .typeName ty =>
    left
    revert word
    cases ty <;> decide
  | .ifWord | .elseWord | .whileWord | .returnWord | .trueWord | .falseWord =>
    left
    obtain rfl := List.mem_singleton.mp spelling
    rfl
  | .plus | .minus | .star | .slash | .not | .less | .greater | .assign | .semicolon | .comma
  | .leftParen | .rightParen | .leftBrace | .rightBrace =>
    right
    left
    obtain rfl := List.mem_singleton.mp spelling
    exact ⟨_, rfl, rfl⟩
  | .and | .or | .lessEq | .greaterEq | .eqEq | .notEq =>
    right
    right
    obtain rfl := List.mem_singleton.mp spelling
    exact ⟨_, _, rfl, rfl⟩
  | .identifier | .intLiteral | .floatLiteral | .charLiteral | .endOfInput => cases spelling

end TokenKind

namespace TokenText

open TokenKind

/-- A word: its kind is that of a reserved word, or it is an identifier. -/
def IsWord (kind : TokenKind) (first : Char) (rest : List Char) : Prop :=
  (∀ c ∈ rest, c.isAlphanum = true) ∧
    kind = (keyword? (String.ofList (first :: rest))).getD .identifier

/-- A number: a point makes it a float. -/
def IsNumber (kind : TokenKind) (rest : List Char) : Prop :=
  (kind = .intLiteral ∧ ∀ c ∈ rest, c.isDigit = true) ∨
    kind = .floatLiteral ∧ ∃ digits fraction, rest = digits ++ '.' :: fraction ∧
      (∀ c ∈ digits, c.isDigit = true) ∧ ∀ c ∈ fraction, c.isDigit = true

/-- What comes behind the first quote of a character. -/
def IsCharacter (kind : TokenKind) (rest : List Char) : Prop :=
  kind = .charLiteral ∧ ∃ c, rest = [c, '\''] ∧ c ≠ '\'' ∧ c ≠ '\n' ∧ c ≠ '\x00'

/-- A symbol of one character or of two. -/
def IsSymbol (kind : TokenKind) (first : Char) (rest : List Char) : Prop :=
  (rest = [] ∧ symbol? first = some kind) ∨
    ∃ second, rest = [second] ∧ doubleSymbol? first second = some kind

variable {kind : TokenKind} {first : Char} {rest : List Char}

theorem reserved_or_isSymbol_of_spelling
    (spelling : String.ofList (first :: rest) ∈ kind.spellings) :
    keyword? (String.ofList (first :: rest)) = some kind ∨ IsSymbol kind first rest := by
  rcases known_of_spelling spelling with reserved | ⟨c, single, isSymbol⟩ |
    ⟨c, d, double, isSymbol⟩
  · exact .inl reserved
  · rw [String.toList_ofList] at single
    cases single
    exact .inr (.inl ⟨rfl, isSymbol⟩)
  · rw [String.toList_ofList] at double
    cases double
    exact .inr (.inr ⟨d, rfl, isSymbol⟩)

/-- The first character of a token text decides what it is. -/
theorem of_first (isToken : TokenText kind (first :: rest)) :
    (first.isAlpha = true ∧ IsWord kind first rest) ∨
      (first.isDigit = true ∧ IsNumber kind rest) ∨
        (first = '\'' ∧ IsCharacter kind rest) ∨ IsSymbol kind first rest := by
  generalize whole : first :: rest = text at isToken
  cases isToken with
  | spelled spelling =>
    rw [← whole] at spelling
    rcases reserved_or_isSymbol_of_spelling spelling with reserved | symbol
    · obtain ⟨letter, word⟩ := isWord_of_keyword? reserved
      exact .inl ⟨letter, word, by rw [reserved]; rfl⟩
    · exact .inr (.inr (.inr symbol))
  | identifier letter word unreserved =>
    obtain ⟨rfl, rfl⟩ := List.cons.inj whole
    have notReserved : keyword? (String.ofList (first :: rest)) = none := by
      cases reserved : keyword? (String.ofList (first :: rest)) with
      | none => rfl
      | some kind => exact absurd (spelling_of_keyword? reserved) (unreserved kind)
    exact .inl ⟨letter, word, by rw [notReserved]; rfl⟩
  | intLiteral _ areDigits =>
    rw [← whole, List.forall_mem_cons] at areDigits
    exact .inr (.inl ⟨areDigits.1, .inl ⟨rfl, areDigits.2⟩⟩)
  | @floatLiteral digits fraction present wholeDigits fractionDigits =>
    cases digits with
    | nil => exact absurd rfl present
    | cons digit digits =>
      obtain ⟨rfl, rfl⟩ := List.cons.inj whole
      rw [List.forall_mem_cons] at wholeDigits
      exact .inr (.inl ⟨wholeDigits.1,
        .inr ⟨rfl, digits, fraction, rfl, wholeDigits.2, fractionDigits⟩⟩)
  | @charLiteral c notQuote notNewline notNull =>
    obtain ⟨rfl, rfl⟩ := List.cons.inj whole
    exact .inr (.inr (.inl ⟨rfl, rfl, c, rfl, notQuote, notNewline, notNull⟩))

theorem ne_nil {text : List Char} (isToken : TokenText kind text) : text ≠ [] := by
  rintro rfl
  generalize empty : [] = text at isToken
  cases isToken with
  | spelled spelling =>
    rw [← empty] at spelling
    rcases known_of_spelling spelling with reserved | ⟨_, single, _⟩ | ⟨_, _, double, _⟩
    · cases reserved
    · cases single
    · cases double
  | identifier => cases empty
  | intLiteral present => exact present empty.symm
  | floatLiteral present => simp at empty
  | charLiteral => cases empty

/-- The end of the source is no token text. -/
theorem kind_ne_endOfInput {text : List Char} (isToken : TokenText kind text) :
    kind ≠ .endOfInput := by
  cases isToken with
  | spelled spelling =>
    rintro rfl
    cases spelling
  | identifier | intLiteral | floatLiteral | charLiteral => exact TokenKind.noConfusion

theorem eq_of_charLiteral {text : List Char} (isToken : TokenText .charLiteral text) :
    ∃ c, text = ['\'', c, '\''] := by
  cases isToken with
  | spelled spelling => cases spelling
  | @charLiteral c => exact ⟨c, rfl⟩

theorem not_isDigit_of_isAlpha {c : Char} (letter : c.isAlpha = true) : c.isDigit ≠ true := by
  unfold Char.isAlpha Char.isUpper Char.isLower at letter
  simp only [Char.isDigit, Bool.or_eq_true, Bool.and_eq_true, decide_eq_true_eq,
    UInt32.le_iff_toNat_le, ge_iff_le, ne_eq] at letter ⊢
  have upperA : 'A'.val.toNat = 65 := rfl
  have lowerA : 'a'.val.toNat = 97 := rfl
  have nine : '9'.val.toNat = 57 := rfl
  omega

theorem not_isSymbol (started : first.isAlpha = true ∨ first.isDigit = true ∨ first = '\'') :
    ¬ IsSymbol kind first rest := by
  rintro (⟨_, isSymbol⟩ | ⟨_, _, isSymbol⟩)
  · obtain ⟨notLetter, notDigit, notQuote⟩ := notWord_of_symbol? isSymbol
    simp [notLetter, notDigit, notQuote] at started
  · obtain ⟨notLetter, notDigit, notQuote⟩ := notWord_of_doubleSymbol? isSymbol
    simp [notLetter, notDigit, notQuote] at started

theorem iff_of_letter (letter : first.isAlpha = true) :
    TokenText kind (first :: rest) ↔ IsWord kind first rest := by
  constructor
  · intro isToken
    rcases isToken.of_first with ⟨_, word⟩ | ⟨digit, _⟩ | ⟨rfl, _⟩ | symbol
    · exact word
    · exact absurd digit (not_isDigit_of_isAlpha letter)
    · cases letter
    · exact absurd symbol (not_isSymbol (.inl letter))
  · rintro ⟨word, rfl⟩
    cases reserved : keyword? (String.ofList (first :: rest)) with
    | some kind => exact .spelled (spelling_of_keyword? reserved)
    | none =>
      refine .identifier letter word fun kind spelling => ?_
      rcases reserved_or_isSymbol_of_spelling spelling with isReserved | symbol
      · cases reserved.symm.trans isReserved
      · exact not_isSymbol (.inl letter) symbol

theorem iff_of_digit (digit : first.isDigit = true) :
    TokenText kind (first :: rest) ↔ IsNumber kind rest := by
  constructor
  · intro isToken
    rcases isToken.of_first with ⟨letter, _⟩ | ⟨_, number⟩ | ⟨rfl, _⟩ | symbol
    · exact absurd digit (not_isDigit_of_isAlpha letter)
    · exact number
    · cases digit
    · exact absurd symbol (not_isSymbol (.inr (.inl digit)))
  · rintro (⟨rfl, areDigits⟩ | ⟨rfl, digits, fraction, rfl, areDigits, fractionDigits⟩)
    · exact .intLiteral (List.cons_ne_nil first rest) (List.forall_mem_cons.mpr ⟨digit, areDigits⟩)
    · exact .floatLiteral (List.cons_ne_nil first digits)
        (List.forall_mem_cons.mpr ⟨digit, areDigits⟩) fractionDigits

theorem iff_of_quote : TokenText kind ('\'' :: rest) ↔ IsCharacter kind rest := by
  constructor
  · intro isToken
    rcases isToken.of_first with ⟨letter, _⟩ | ⟨digit, _⟩ | ⟨_, character⟩ | symbol
    · cases letter
    · cases digit
    · exact character
    · exact absurd symbol (not_isSymbol (.inr (.inr rfl)))
  · rintro ⟨rfl, c, rfl, notQuote, notNewline, notNull⟩
    exact .charLiteral notQuote notNewline notNull

theorem iff_of_other (notLetter : first.isAlpha = false) (notDigit : first.isDigit = false)
    (notQuote : first ≠ '\'') :
    TokenText kind (first :: rest) ↔ IsSymbol kind first rest := by
  constructor
  · intro isToken
    rcases isToken.of_first with ⟨letter, _⟩ | ⟨digit, _⟩ | ⟨quote, _⟩ | symbol
    · simp [notLetter] at letter
    · simp [notDigit] at digit
    · exact absurd quote notQuote
    · exact symbol
  · rintro (⟨rfl, isSymbol⟩ | ⟨second, rfl, isSymbol⟩)
    · exact .spelled (spelling_of_symbol? isSymbol)
    · exact .spelled (spelling_of_doubleSymbol? isSymbol)

end TokenText

end TypedImp
