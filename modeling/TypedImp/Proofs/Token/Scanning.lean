import TypedImp.Proofs.Token.MaximalMunch
import TypedImp.Token.Literal

/-!
# The scanner in a source

What the scanner gives at each place that it reaches in a source: behind the trivia the
longest token, the end if nothing remains, and an error if no token starts there.
-/

namespace TypedImp

namespace Scanner

open Lexer

/-- The places that the scanner of a source reaches before it reports the end. -/
inductive Reached (source : String) : Scanner → Prop
  | start : Reached source (.ofSource source)
  | behind {scanner : Scanner} (earlier : Reached source scanner)
      (goesOn : scanner.next.2.finished = false) : Reached source scanner.next.2

/-- A scanner stands in a text at its offset. -/
def StandsIn (text : List Char) (scanner : Scanner) : Prop :=
  ∃ consumed, text = consumed ++ scanner.rest ∧ scanner.offset = Source.byteLength consumed

end Scanner

/-- A token is a lexeme of a text, and `remaining` comes behind it.  A lexeme that is too
long for a span is covered in part. -/
structure Token.IsLexeme (token : Token) (text lexeme remaining : List Char) : Prop where
  span : ∃ earlier, text = earlier ++ lexeme ++ remaining ∧
    token.span = Span.ofBounds (Source.byteLength earlier) (Source.byteLength (earlier ++ lexeme))
  text : token.text = String.ofList (Source.before token.span.length lexeme)

theorem Token.IsLexeme.text_eq {token : Token} {text lexeme remaining : List Char}
    (isLexeme : token.IsLexeme text lexeme remaining)
    (short : Source.byteLength lexeme ≤ Span.maxLength) : token.text = String.ofList lexeme := by
  obtain ⟨earlier, _, spanned⟩ := isLexeme.span
  rw [isLexeme.text, spanned, Source.before_eq_self]
  rw [Span.length_ofBounds, Source.byteLength_append]
  omega

/-- The source text of a token that is not too long is its lexeme. -/
theorem Token.IsLexeme.slice?_eq {token : Token} {text lexeme remaining : List Char}
    (isLexeme : token.IsLexeme text lexeme remaining)
    (short : Source.byteLength lexeme ≤ Span.maxLength) : token.span.slice? text = some lexeme := by
  obtain ⟨earlier, rfl, spanned⟩ := isLexeme.span
  have lo : token.span.lo = Source.byteLength earlier := by rw [spanned, Span.lo_ofBounds]
  have length : token.span.length = Source.byteLength lexeme := by
    rw [spanned, Span.length_ofBounds, Source.byteLength_append]
    omega
  have hi : token.span.hi = Source.byteLength (earlier ++ lexeme) := by
    rw [Span.hi, lo, length, Source.byteLength_append]
  have startsWhole : Source.before token.span.lo (earlier ++ lexeme ++ remaining) = earlier := by
    rw [lo, List.append_assoc, Source.before_byteLength]
  have endsWhole : Source.before token.span.hi (earlier ++ lexeme ++ remaining) =
      earlier ++ lexeme := by
    rw [hi, Source.before_byteLength]
  have cut : Source.after token.span.lo (earlier ++ lexeme ++ remaining) = lexeme ++ remaining := by
    rw [lo, List.append_assoc, Source.after_byteLength]
  rw [Span.slice?, Source.isBoundary, Source.isBoundary, startsWhole, endsWhole, cut, length,
    Source.before_byteLength, ← lo, ← hi]
  simp

namespace Scanner

open Lexer

variable {scanner : Scanner} {trivia following : List Char} {c : Char}

theorem next_of_nil (goesOn : scanner.finished = false)
    (skips : SkipsTrivia scanner.rest trivia []) :
    scanner.next =
      (.ok (Token.endAt (scanner.offset + Source.byteLength trivia)),
        ⟨scanner.offset + Source.byteLength trivia, [], true⟩) := by
  simp [next, goesOn, splitTrivia_eq_iff.mpr skips]

/-- The offsets before and behind a lexeme that follows trivia. -/
def lexemeSpan (scanner : Scanner) (trivia lexeme : List Char) : Span :=
  .ofBounds (scanner.offset + Source.byteLength trivia)
    (scanner.offset + Source.byteLength trivia + Source.byteLength lexeme)

theorem next_of_ok (goesOn : scanner.finished = false)
    (skips : SkipsTrivia scanner.rest trivia (c :: following)) {kind : TokenKind}
    (found : (scan c following).outcome = .ok kind) :
    scanner.next =
      (.ok ⟨kind, scanner.lexemeSpan trivia (scan c following).text,
        String.ofList (Source.before (scanner.lexemeSpan trivia (scan c following).text).length
          (scan c following).text)⟩,
        ⟨scanner.offset + Source.byteLength trivia + Source.byteLength (scan c following).text,
          (scan c following).rest, false⟩) := by
  simp [next, goesOn, splitTrivia_eq_iff.mpr skips, found, lexemeSpan]

theorem next_of_error (goesOn : scanner.finished = false)
    (skips : SkipsTrivia scanner.rest trivia (c :: following)) {error : LexError}
    (failed : (scan c following).outcome = .error error) :
    scanner.next =
      (.error ⟨scanner.lexemeSpan trivia (scan c following).text, error⟩,
        ⟨scanner.offset + Source.byteLength trivia + Source.byteLength (scan c following).text,
          (scan c following).rest, false⟩) := by
  simp [next, goesOn, splitTrivia_eq_iff.mpr skips, failed, lexemeSpan]

/-- The scanner moves to a place behind what it looked at. -/
theorem StandsIn.next {text : List Char} (stands : scanner.StandsIn text)
    (goesOn : scanner.finished = false) : scanner.next.2.StandsIn text := by
  obtain ⟨consumed, rfl, offset⟩ := stands
  obtain ⟨trivia, rest, skips⟩ := exists_skipsTrivia scanner.rest
  cases rest with
  | nil =>
    rw [next_of_nil goesOn skips]
    exact ⟨consumed ++ trivia, by simp [skips.splits], by simp [offset]⟩
  | cons c following =>
    have splits := scan_text_append_rest c following
    have moved : StandsIn (consumed ++ scanner.rest)
        ⟨scanner.offset + Source.byteLength trivia + Source.byteLength (scan c following).text,
          (scan c following).rest, false⟩ := by
      refine ⟨consumed ++ trivia ++ (scan c following).text, ?_, by simp [offset, Nat.add_assoc]⟩
      rw [skips.splits, List.append_assoc, splits, List.append_assoc]
    cases outcome : (scan c following).outcome with
    | ok kind => rwa [next_of_ok goesOn skips outcome]
    | error error => rwa [next_of_error goesOn skips outcome]

theorem Reached.goesOn {source : String} (reached : Reached source scanner) :
    scanner.finished = false := by
  cases reached with
  | start => rfl
  | behind _ goesOn => exact goesOn

theorem Reached.standsIn {source : String} (reached : Reached source scanner) :
    scanner.StandsIn source.toList := by
  induction reached with
  | start => exact ⟨[], rfl, rfl⟩
  | behind earlier _ ih => exact ih.next earlier.goesOn

/-- What the scanner gives where `rest` remains behind the trivia. -/
structure Follows (text : List Char) (scanner : Scanner) (rest : List Char) : Prop where
  ends : (∃ token, scanner.next.1 = .ok token ∧ token.kind = .endOfInput) ↔ rest = []
  finds : rest ≠ [] →
    ((∃ token, scanner.next.1 = .ok token) ↔ ∃ kind front, TokenText kind front ∧ front <+: rest)
  fails : rest ≠ [] → ((∃ error, scanner.next.1 = .error error) ↔ NoToken rest)
  longest : rest ≠ [] → ∀ token, scanner.next.1 = .ok token → ∃ lexeme,
    rest = lexeme ++ scanner.next.2.rest ∧ LongestToken rest token.kind lexeme ∧
      token.IsLexeme text lexeme scanner.next.2.rest
  character : ∀ token, scanner.next.1 = .ok token → token.kind = .charLiteral → ∃ c,
    token.span.slice? text = some ['\'', c, '\''] ∧ Token.charValue token.text = c
  ended : rest = [] → scanner.next.2.next =
    (.error ⟨Span.emptyAt (Source.byteLength text), .readPastEnd⟩, scanner.next.2)

theorem follows_of_nil {text : List Char} (stands : scanner.StandsIn text)
    (goesOn : scanner.finished = false) (skips : SkipsTrivia scanner.rest trivia []) :
    scanner.Follows text [] := by
  have step := next_of_nil goesOn skips
  have isEnd : ∀ token, scanner.next.1 = .ok token → token.kind = .endOfInput := by
    intro token found
    rw [step] at found
    cases found
    rfl
  refine ⟨⟨fun _ => rfl, fun _ => ⟨_, by rw [step], rfl⟩⟩, absurd rfl, absurd rfl, absurd rfl,
    fun token found isCharacter => ?_, fun _ => ?_⟩
  · cases (isEnd token found).symm.trans isCharacter
  · obtain ⟨consumed, rfl, offset⟩ := stands
    rw [step, skips.splits]
    simp [next, offset]

theorem isLexeme_of_skips {text : List Char} (stands : scanner.StandsIn text)
    (skips : SkipsTrivia scanner.rest trivia (c :: following)) (kind : TokenKind) :
    Token.IsLexeme ⟨kind, scanner.lexemeSpan trivia (scan c following).text,
        String.ofList (Source.before (scanner.lexemeSpan trivia (scan c following).text).length
          (scan c following).text)⟩
      text (scan c following).text (scan c following).rest := by
  obtain ⟨consumed, rfl, offset⟩ := stands
  refine ⟨⟨consumed ++ trivia, ?_, ?_⟩, rfl⟩
  · rw [skips.splits, List.append_assoc, scan_text_append_rest, List.append_assoc]
  · simp [lexemeSpan, offset, Nat.add_assoc]

/-- The character that is read from a literal stands between its quotes. -/
theorem charValue_of_isLexeme {token : Token} {text lexeme remaining : List Char}
    (isToken : TokenText .charLiteral lexeme) (isLexeme : token.IsLexeme text lexeme remaining) :
    ∃ c, token.span.slice? text = some ['\'', c, '\''] ∧ Token.charValue token.text = c := by
  obtain ⟨c, rfl⟩ := isToken.eq_of_charLiteral
  have short : Source.byteLength ['\'', c, '\''] ≤ Span.maxLength := by
    have := c.utf8Size_le_four
    have quote : '\''.utf8Size = 1 := rfl
    simp only [Source.byteLength_cons, Source.byteLength_nil, Span.maxLength]
    omega
  exact ⟨c, isLexeme.slice?_eq short, by rw [isLexeme.text_eq short]; simp [Token.charValue]⟩

theorem follows_of_cons {text : List Char} (stands : scanner.StandsIn text)
    (goesOn : scanner.finished = false) (skips : SkipsTrivia scanner.rest trivia (c :: following)) :
    scanner.Follows text (c :: following) := by
  have munches := munches_scan c following
  cases outcome : (scan c following).outcome with
  | ok kind =>
    have longest : LongestToken (c :: following) kind (scan c following).text := by
      simpa only [Lexeme.Munches, outcome] using munches
    have step := next_of_ok goesOn skips outcome
    have isLexeme := isLexeme_of_skips stands skips kind
    refine ⟨⟨?_, nofun⟩,
      fun _ => ⟨fun _ => ⟨kind, _, longest.isToken, longest.atFront⟩, fun _ => ⟨_, by rw [step]⟩⟩,
      fun _ => ⟨?_, fun none => absurd longest.atFront (none kind _ longest.isToken)⟩,
      fun _ token found => ?_, fun token found isCharacter => ?_, nofun⟩
    · rintro ⟨token, found, isEnd⟩
      rw [step] at found
      cases found
      exact absurd isEnd longest.isToken.kind_ne_endOfInput
    · rintro ⟨error, failed⟩
      rw [step] at failed
      cases failed
    · rw [step] at found ⊢
      cases found
      exact ⟨_, (scan_text_append_rest c following).symm, longest, isLexeme⟩
    · rw [step] at found
      cases found
      exact charValue_of_isLexeme (isCharacter ▸ longest.isToken) isLexeme
  | error error =>
    have none : NoToken (c :: following) := by
      simpa only [Lexeme.Munches, outcome] using munches
    have step := next_of_error goesOn skips outcome
    have noToken : ∀ token, scanner.next.1 ≠ .ok token := by
      intro token found
      rw [step] at found
      cases found
    refine ⟨⟨?_, nofun⟩, fun _ => ⟨?_, ?_⟩, fun _ => ⟨fun _ => none, fun _ => ⟨_, by rw [step]⟩⟩,
      fun _ token found => absurd found (noToken token),
      fun token found => absurd found (noToken token), nofun⟩
    · rintro ⟨token, found, _⟩
      exact absurd found (noToken token)
    · rintro ⟨token, found⟩
      exact absurd found (noToken token)
    · rintro ⟨kind, front, isToken, atFront⟩
      exact absurd atFront (none kind front isToken)

/-- At every place that the scanner of a source reaches, all trivia can be skipped in one way,
and the scanner follows the lexical grammar behind it. -/
theorem follows_of_reached {source : String} (reached : Reached source scanner) :
    scanner.StandsIn source.toList ∧
      (∃ trivia rest, SkipsTrivia scanner.rest trivia rest) ∧
        ∀ trivia rest, SkipsTrivia scanner.rest trivia rest →
          scanner.Follows source.toList rest := by
  refine ⟨reached.standsIn, exists_skipsTrivia scanner.rest, fun trivia rest skips => ?_⟩
  cases rest with
  | nil => exact follows_of_nil reached.standsIn reached.goesOn skips
  | cons c following => exact follows_of_cons reached.standsIn reached.goesOn skips

/-- A place behind a name, with a comment and then a character of two bytes before it. -/
theorem follows_behind_name :
    Reached "x//c\n'é'\x00" (ofSource "x//c\n'é'\x00").next.2 ∧
      SkipsTrivia (ofSource "x//c\n'é'\x00").next.2.rest ['/', '/', 'c', '\n']
        ['\'', 'é', '\'', '\x00'] ∧
      (ofSource "x//c\n'é'\x00").next.2.Follows "x//c\n'é'\x00".toList
        ['\'', 'é', '\'', '\x00'] := by
  have reached : Reached "x//c\n'é'\x00" (ofSource "x//c\n'é'\x00").next.2 :=
    .behind .start (by decide +kernel)
  have skips : SkipsTrivia (ofSource "x//c\n'é'\x00").next.2.rest ['/', '/', 'c', '\n']
      ['\'', 'é', '\'', '\x00'] :=
    splitTrivia_eq_iff.mp (by decide +kernel)
  exact ⟨reached, skips, (follows_of_reached reached).2.2 _ _ skips⟩

end Scanner

end TypedImp
