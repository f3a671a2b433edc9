import TypedImp.Proofs.Token.TokenText
import TypedImp.Proofs.Token.Trivia

/-!
# The longest token

Where no trivia starts, the scanner takes the longest token text, and it reports an error
only where no token text starts: `munches_scan`.  The first character decides which texts
have to be compared, so there is one case for each scanning function.
-/

namespace TypedImp

/-- The longest token text that a text starts with: every other one is shorter. -/
structure LongestToken (text : List Char) (kind : TokenKind) (lexeme : List Char) : Prop where
  isToken : TokenText kind lexeme
  atFront : lexeme <+: text
  longest : ∀ other front, TokenText other front → front <+: text →
    front.length < lexeme.length ∨ (front = lexeme ∧ other = kind)

/-- No token text starts a text. -/
def NoToken (text : List Char) : Prop :=
  ∀ kind front, TokenText kind front → ¬ front <+: text

/-- A token text at the front of a text starts with its first character. -/
theorem TokenText.exists_of_front {kind : TokenKind} {front following : List Char} {first : Char}
    (isToken : TokenText kind front) (atFront : front <+: first :: following) :
    ∃ rest, front = first :: rest ∧ rest <+: following := by
  cases front with
  | nil => exact absurd rfl isToken.ne_nil
  | cons c rest =>
    obtain ⟨rfl, inRest⟩ := List.cons_prefix_cons.mp atFront
    exact ⟨rest, rfl, inRest⟩

section Prefixes

variable {p : Char → Bool} {front text : List Char}

theorem prefix_takeWhile (atFront : front <+: text) (holds : ∀ c ∈ front, p c = true) :
    front <+: text.takeWhile p := by
  obtain ⟨rest, rfl⟩ := atFront
  rw [List.takeWhile_append_of_pos holds]
  exact List.prefix_append front _

theorem length_lt_or_eq_of_prefix (atFront : front <+: text) :
    front.length < text.length ∨ front = text := by
  rcases Nat.lt_or_eq_of_le atFront.length_le with shorter | sameLength
  · exact .inl shorter
  · exact .inr (atFront.eq_of_length sameLength)

end Prefixes

namespace Lexer

/-- A lexeme is the longest token at the front of a text, or there is none. -/
def Lexeme.Munches (lexeme : Lexeme) (text : List Char) : Prop :=
  match lexeme.outcome with
  | .ok kind => LongestToken text kind lexeme.text
  | .error _ => NoToken text

variable {first : Char}

/-- The longest token is found among the shapes that a first character allows. -/
theorem longestToken_of_first {following rest : List Char} {kind : TokenKind}
    {Shape : TokenKind → List Char → Prop}
    (shape : ∀ kind rest, TokenText kind (first :: rest) ↔ Shape kind rest)
    (isShape : Shape kind rest) (atFront : rest <+: following)
    (longest : ∀ other front, Shape other front → front <+: following →
      front.length < rest.length ∨ (front = rest ∧ other = kind)) :
    LongestToken (first :: following) kind (first :: rest) := by
  refine ⟨(shape kind rest).mpr isShape, List.cons_prefix_cons.mpr ⟨rfl, atFront⟩, ?_⟩
  intro other front isToken inText
  obtain ⟨front, rfl, inFollowing⟩ := isToken.exists_of_front inText
  rcases longest other front ((shape other front).mp isToken) inFollowing with
    shorter | ⟨rfl, sameKind⟩
  · exact .inl (Nat.succ_lt_succ shorter)
  · exact .inr ⟨rfl, sameKind⟩

theorem noToken_of_first {following : List Char} {Shape : TokenKind → List Char → Prop}
    (shape : ∀ kind rest, TokenText kind (first :: rest) ↔ Shape kind rest)
    (none : ∀ kind front, Shape kind front → ¬ front <+: following) :
    NoToken (first :: following) := by
  intro kind front isToken inText
  obtain ⟨front, rfl, inFollowing⟩ := isToken.exists_of_front inText
  exact none kind front ((shape kind front).mp isToken) inFollowing

theorem munches_scanWord (letter : first.isAlpha = true) (following : List Char) :
    (scanWord first following).Munches (first :: following) := by
  refine longestToken_of_first (fun _ _ => TokenText.iff_of_letter letter)
    ⟨List.all_eq_true.mp List.all_takeWhile, rfl⟩ (List.takeWhile_prefix _) ?_
  rintro other front ⟨word, rfl⟩ atFront
  rcases length_lt_or_eq_of_prefix (prefix_takeWhile atFront word) with shorter | rfl
  · exact .inl shorter
  · exact .inr ⟨rfl, rfl⟩

/-- A float at the front of a text cuts it where the scanner does. -/
theorem cut_of_float {following whole fraction : List Char}
    (wholeDigits : ∀ c ∈ whole, c.isDigit = true)
    (atFront : whole ++ '.' :: fraction <+: following) :
    following.takeWhile Char.isDigit = whole ∧
      ∃ behind, following.dropWhile Char.isDigit = '.' :: (fraction ++ behind) := by
  obtain ⟨behind, rfl⟩ := atFront
  rw [List.append_assoc, List.takeWhile_append_of_pos wholeDigits,
    List.dropWhile_append_of_pos wholeDigits]
  exact ⟨List.append_nil whole, behind, rfl⟩

theorem munches_scanNumber (digit : first.isDigit = true) (following : List Char) :
    (scanNumber first following).Munches (first :: following) := by
  have areDigits : ∀ c ∈ following.takeWhile Char.isDigit, c.isDigit = true :=
    List.all_eq_true.mp List.all_takeWhile
  unfold scanNumber
  dsimp only
  split
  case h_1 rest point =>
    have splits : following.takeWhile Char.isDigit ++ '.' :: rest = following := by
      rw [← point, List.takeWhile_append_dropWhile]
    change LongestToken (first :: following) .floatLiteral
      (first :: (following.takeWhile Char.isDigit ++ '.' :: rest.takeWhile Char.isDigit))
    refine longestToken_of_first (fun _ _ => TokenText.iff_of_digit digit)
      (.inr ⟨rfl, _, _, rfl, areDigits, List.all_eq_true.mp List.all_takeWhile⟩) ?_ ?_
    · obtain ⟨behind, cut⟩ := List.takeWhile_prefix (l := rest) Char.isDigit
      refine ⟨behind, ?_⟩
      rw [List.append_assoc, List.cons_append, cut, splits]
    · rintro other front
        (⟨rfl, frontDigits⟩ | ⟨rfl, whole, fraction, rfl, wholeDigits, fractionDigits⟩) atFront
      · -- Digits alone end before the point.
        have shorter := (prefix_takeWhile atFront frontDigits).length_le
        left
        rw [List.length_append, List.length_cons]
        omega
      · -- Another float has the same point, so only the digits behind it can differ.
        obtain ⟨sameWhole, behind, rest'⟩ := cut_of_float wholeDigits atFront
        obtain rfl : rest = fraction ++ behind := List.tail_eq_of_cons_eq (point.symm.trans rest')
        rw [sameWhole]
        rcases length_lt_or_eq_of_prefix (prefix_takeWhile (List.prefix_append fraction behind)
          fractionDigits) with shorter | same
        · left
          simp only [List.length_append, List.length_cons]
          omega
        · rw [← same]
          exact .inr ⟨rfl, rfl⟩
  case h_2 rest noPoint =>
    refine longestToken_of_first (fun _ _ => TokenText.iff_of_digit digit)
      (.inl ⟨rfl, areDigits⟩) (List.takeWhile_prefix _) ?_
    rintro other front (⟨rfl, frontDigits⟩ | ⟨rfl, whole, fraction, rfl, wholeDigits, _⟩) atFront
    · rcases length_lt_or_eq_of_prefix (prefix_takeWhile atFront frontDigits) with shorter | rfl
      · exact .inl shorter
      · exact .inr ⟨rfl, rfl⟩
    · obtain ⟨_, behind, point⟩ := cut_of_float wholeDigits atFront
      exact absurd point (noPoint _)

theorem munches_scanCharacter (following : List Char) :
    (scanCharacter following).Munches ('\'' :: following) := by
  unfold scanCharacter
  split
  case h_1 =>
    refine noToken_of_first (fun _ _ => TokenText.iff_of_quote) ?_
    rintro _ _ ⟨rfl, c, rfl, _⟩ atFront
    simp at atFront
  case h_2 c rest =>
    split
    case isTrue broken =>
      refine noToken_of_first (fun _ _ => TokenText.iff_of_quote) ?_
      rintro _ _ ⟨rfl, d, rfl, _, notNewline, notNull⟩ atFront
      obtain ⟨rfl, _⟩ := List.cons_prefix_cons.mp atFront
      rcases broken with isNull | isNewline
      · exact notNull isNull
      · exact notNewline isNewline
    split
    case isTrue quote =>
      refine noToken_of_first (fun _ _ => TokenText.iff_of_quote) ?_
      rintro _ _ ⟨rfl, d, rfl, notQuote, _⟩ atFront
      obtain ⟨rfl, _⟩ := List.cons_prefix_cons.mp atFront
      exact notQuote quote
    case isFalse notBroken notQuote =>
      obtain ⟨notNull, notNewline⟩ := not_or.mp notBroken
      split
      case h_1 rest =>
        refine longestToken_of_first (fun _ _ => TokenText.iff_of_quote)
          ⟨rfl, c, rfl, notQuote, notNewline, notNull⟩ (by simp) ?_
        rintro _ _ ⟨rfl, d, rfl, _⟩ atFront
        obtain ⟨rfl, _⟩ := List.cons_prefix_cons.mp atFront
        exact .inr ⟨rfl, rfl⟩
      case h_2 rest unclosed =>
        refine noToken_of_first (fun _ _ => TokenText.iff_of_quote) ?_
        rintro _ _ ⟨rfl, d, rfl, _⟩ atFront
        obtain ⟨rfl, behind, rfl⟩ := List.cons_prefix_cons.mp atFront
        exact unclosed behind rfl

section Symbols

variable (notLetter : first.isAlpha = false) (notDigit : first.isDigit = false)
  (notQuote : first ≠ '\'')

include notLetter notDigit notQuote

theorem munches_scanSingle {following : List Char}
    (notDouble : ∀ second, [second] <+: following → TokenKind.doubleSymbol? first second = none) :
    (scanSingle first following).Munches (first :: following) := by
  unfold scanSingle
  split
  case h_1 kind isSymbol =>
    refine longestToken_of_first
      (fun _ _ => TokenText.iff_of_other notLetter notDigit notQuote) (.inl ⟨rfl, isSymbol⟩)
      List.nil_prefix ?_
    rintro other front (⟨rfl, isOther⟩ | ⟨second, rfl, isOther⟩) atFront
    · exact .inr ⟨rfl, Option.some.inj (isOther.symm.trans isSymbol)⟩
    · cases isOther.symm.trans (notDouble second atFront)
  case h_2 noSymbol =>
    have noToken : NoToken (first :: following) := by
      refine noToken_of_first
        (fun _ _ => TokenText.iff_of_other notLetter notDigit notQuote) ?_
      rintro other front (⟨rfl, isOther⟩ | ⟨second, rfl, isOther⟩) atFront
      · cases isOther.symm.trans noSymbol
      · cases isOther.symm.trans (notDouble second atFront)
    split <;> exact noToken

theorem munches_scanSymbol (following : List Char) :
    (scanSymbol first following).Munches (first :: following) := by
  unfold scanSymbol
  split
  case h_1 =>
    exact munches_scanSingle notLetter notDigit notQuote fun second atFront => by simp at atFront
  case h_2 second rest =>
    split
    case h_1 kind isSymbol =>
      refine longestToken_of_first
        (fun _ _ => TokenText.iff_of_other notLetter notDigit notQuote)
        (.inr ⟨second, rfl, isSymbol⟩) (by simp) ?_
      rintro other front (⟨rfl, _⟩ | ⟨third, rfl, isOther⟩) atFront
      · exact .inl Nat.one_pos
      · obtain ⟨rfl, _⟩ := List.cons_prefix_cons.mp atFront
        exact .inr ⟨rfl, Option.some.inj (isOther.symm.trans isSymbol)⟩
    case h_2 noSymbol =>
      refine munches_scanSingle notLetter notDigit notQuote fun third atFront => ?_
      obtain ⟨rfl, _⟩ := List.cons_prefix_cons.mp atFront
      exact noSymbol

end Symbols

/-- What is scanned is the longest token, or no token starts there. -/
theorem munches_scan (first : Char) (following : List Char) :
    (scan first following).Munches (first :: following) := by
  unfold scan
  split
  case isTrue letter => exact munches_scanWord letter following
  split
  case isTrue digit => exact munches_scanNumber digit following
  split
  case isTrue quote =>
    subst quote
    exact munches_scanCharacter following
  case isFalse notLetter notDigit notQuote =>
    exact munches_scanSymbol (Bool.eq_false_iff.mpr notLetter) (Bool.eq_false_iff.mpr notDigit)
      notQuote following

end Lexer

end TypedImp
