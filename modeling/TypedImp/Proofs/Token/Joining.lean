import TypedImp.Proofs.Token.Spacing
import TypedImp.Proofs.Token.Tiling

/-!
# Sources joined at a newline

No token holds a newline, and a newline ends a comment.  So the scanner finds in a source behind
which a newline and another source stand the tokens of the first source, and then what it finds in
the second one: `joins_at_newline`.
-/

namespace TypedImp

/-! ### Places that move together -/

namespace Span

/-- The region of the same length that starts later. -/
def shift (distance : Nat) (span : Span) : Span :=
  ⟨span.lo + distance, span.length, span.length_le⟩

theorem hi_shift (distance : Nat) (span : Span) : (span.shift distance).hi = span.hi + distance :=
  Nat.add_right_comm ..

theorem ofBounds_shift (distance lo hi : Nat) :
    ofBounds (lo + distance) (hi + distance) = (ofBounds lo hi).shift distance := by
  simp only [ofBounds, shift, Nat.add_sub_add_right]

/-- Regions that move together are covered by the region that moves with them. -/
theorem cover_shift (distance : Nat) (first second : Span) :
    (first.shift distance).cover (second.shift distance) =
      (first.cover second).shift distance := by
  rw [cover, hi_shift, hi_shift, cover, ← ofBounds_shift, Nat.add_max_add_right]
  exact congrArg (ofBounds · _) (Nat.add_min_add_right ..)

end Span

/-- What was found, at a later place. -/
def Spanned.shift {α : Type} (distance : Nat) (found : Spanned α) : Spanned α :=
  ⟨found.span.shift distance, found.content⟩

/-- The token at a later place. -/
def Token.shift (distance : Nat) (token : Token) : Token :=
  ⟨token.kind, token.span.shift distance, token.text⟩

namespace Scanner

/-- What the scanner gives at a later place. -/
def shiftResult (distance : Nat) :
    Except (Spanned LexError) Token → Except (Spanned LexError) Token
  | .ok token => .ok (token.shift distance)
  | .error error => .error (error.shift distance)

/-- The scanner before the same text at a later place. -/
def shift (distance : Nat) (scanner : Scanner) : Scanner :=
  ⟨scanner.offset + distance, scanner.rest, scanner.finished⟩

end Scanner

/-- What the scanner finds in a source that starts later. -/
def Lexed.shift (distance : Nat) (lexed : Lexed) : Lexed where
  tokens := lexed.tokens.map (Token.shift distance)
  ending :=
    match lexed.ending with
    | .ok stop => .ok (stop + distance)
    | .error error => .error (error.shift distance)

namespace Scanner

open Lexer

variable {scanner : Scanner}

theorem lexemeSpan_shift (distance : Nat) (scanner : Scanner) (trivia lexeme : List Char) :
    (scanner.shift distance).lexemeSpan trivia lexeme =
      (scanner.lexemeSpan trivia lexeme).shift distance := by
  simp only [lexemeSpan, shift, ← Span.ofBounds_shift, Nat.add_right_comm _ distance]

/-- One call of the scanner does the same at a later place. -/
theorem next_shift (distance : Nat) (scanner : Scanner) :
    (scanner.shift distance).next =
      (shiftResult distance scanner.next.1, scanner.next.2.shift distance) := by
  cases finished : scanner.finished with
  | true =>
    have shifted : (scanner.shift distance).finished = true := finished
    simp only [next, finished, shifted, if_true]
    rfl
  | false =>
    have shifted : (scanner.shift distance).finished = false := finished
    obtain ⟨trivia, rest, skips⟩ := exists_skipsTrivia scanner.rest
    have skipsShifted : SkipsTrivia (scanner.shift distance).rest trivia rest := skips
    cases rest with
    | nil =>
      rw [next_of_nil finished skips, next_of_nil shifted skipsShifted]
      simp only [shift, Nat.add_right_comm _ distance]
      rfl
    | cons c following =>
      cases outcome : (scan c following).outcome with
      | ok kind =>
        rw [next_of_ok finished skips outcome, next_of_ok shifted skipsShifted outcome,
          lexemeSpan_shift]
        simp only [shift, Nat.add_right_comm _ distance]
        rfl
      | error error =>
        rw [next_of_error finished skips outcome, next_of_error shifted skipsShifted outcome,
          lexemeSpan_shift]
        simp only [shift, Nat.add_right_comm _ distance]
        rfl

theorem results_shift (distance calls : Nat) (scanner : Scanner) :
    results calls (scanner.shift distance) =
      (results calls scanner).map (shiftResult distance) := by
  induction calls generalizing scanner with
  | zero => rfl
  | succ calls ih =>
    rw [results_succ, results_succ, next_shift, ih, List.map_cons]

end Scanner

theorem Lexed.ofScanner_shift (distance : Nat) (scanner : Scanner) :
    ofScanner (scanner.shift distance) = (ofScanner scanner).shift distance := by
  fun_induction ofScanner scanner with
  | case1 scanner error behind step =>
    have shifted := Scanner.next_shift distance scanner
    rw [step] at shifted
    rw [ofScanner_of_error shifted]
    rfl
  | case2 scanner token behind step isEnd =>
    have shifted := Scanner.next_shift distance scanner
    rw [step] at shifted
    rw [ofScanner_of_end shifted isEnd]
    rfl
  | case3 scanner token behind step notEnd following ih =>
    have shifted := Scanner.next_shift distance scanner
    rw [step] at shifted
    rw [ofScanner_of_ok shifted notEnd, ih]
    rfl

/-! ### What stands before a newline -/

/-- No token holds a newline. -/
theorem TokenText.newline_notMem {kind : TokenKind} {text : List Char}
    (isToken : TokenText kind text) : '\n' ∉ text := by
  have notLetter : ('\n').isAlphanum = false := by decide
  have notDigit : ('\n').isDigit = false := by decide
  cases text with
  | nil => exact List.not_mem_nil
  | cons first rest =>
    rw [List.mem_cons, not_or]
    refine ⟨fun isNewline => isToken.first_notBlank (isNewline ▸ by decide), fun inRest => ?_⟩
    rcases isToken.of_first with ⟨_, letters, _⟩ | ⟨_, number⟩ | ⟨_, _, c, rfl, _, notNewline, _⟩ |
      symbol
    · exact absurd (letters _ inRest) (by simp [notLetter])
    · rcases number with ⟨_, digits⟩ | ⟨_, whole, fraction, rfl, wholeDigits, fractionDigits⟩
      · exact absurd (digits _ inRest) (by simp [notDigit])
      · rcases List.mem_append.mp inRest with inWhole | inFraction
        · exact absurd (wholeDigits _ inWhole) (by simp [notDigit])
        · rcases List.mem_cons.mp inFraction with point | inFraction
          · exact absurd point (by decide)
          · exact absurd (fractionDigits _ inFraction) (by simp [notDigit])
    · simp [notNewline.symm] at inRest
    · rcases symbol with ⟨rfl, _⟩ | ⟨second, rfl, isSymbol⟩
      · cases inRest
      · obtain rfl := List.mem_singleton.mp inRest
        revert isSymbol
        unfold TokenKind.doubleSymbol?
        split <;> simp_all

/-- A text without a newline that stands before a newline stands in what comes before it. -/
theorem prefix_of_prefix_newline {front text more : List Char} (oneLine : '\n' ∉ front)
    (atFront : front <+: text ++ '\n' :: more) : front <+: text := by
  obtain ⟨behind, whole⟩ := atFront
  rcases List.append_eq_append_iff.mp whole with ⟨between, rfl, _⟩ | ⟨beyond, rfl, across⟩
  · exact List.prefix_append front between
  · cases beyond with
    | nil => simp
    | cons d beyond =>
      obtain ⟨rfl, _⟩ := List.cons.inj across
      exact absurd (List.mem_append_right text List.mem_cons_self) oneLine

namespace LongestToken

variable {text lexeme more : List Char} {kind other : TokenKind}

/-- The longest token is still the longest one before a newline. -/
theorem append_newline (longest : LongestToken text kind lexeme) (more : List Char) :
    LongestToken (text ++ '\n' :: more) kind lexeme where
  isToken := longest.isToken
  atFront := longest.atFront.trans (List.prefix_append ..)
  longest other front isToken atFront :=
    longest.longest other front isToken (prefix_of_prefix_newline isToken.newline_notMem atFront)

/-- There is one longest token. -/
theorem unique {found : List Char} (first : LongestToken text kind lexeme)
    (second : LongestToken text other found) : kind = other ∧ lexeme = found := by
  rcases first.longest other found second.isToken second.atFront with shorter | ⟨rfl, rfl⟩
  · rcases second.longest kind lexeme first.isToken first.atFront with longer | ⟨rfl, rfl⟩
    · exact absurd shorter (Nat.lt_asymm longer)
    · exact ⟨rfl, rfl⟩
  · exact ⟨rfl, rfl⟩

end LongestToken

namespace Lexer

variable {following : List Char} {c : Char}

/-- A token that is scanned before the end of a text is scanned before a newline. -/
theorem scan_append_newline {kind : TokenKind} (found : (scan c following).outcome = .ok kind)
    (more : List Char) :
    scan c (following ++ '\n' :: more) =
      ⟨.ok kind, (scan c following).text, (scan c following).rest ++ '\n' :: more⟩ := by
  have longest : LongestToken (c :: following) kind (scan c following).text := by
    simpa only [Lexeme.Munches, found] using munches_scan c following
  have before := longest.append_newline more
  have munches := munches_scan c (following ++ '\n' :: more)
  have whole := scan_text_append_rest c (following ++ '\n' :: more)
  have part := scan_text_append_rest c following
  generalize scan c (following ++ '\n' :: more) = lexeme at munches whole ⊢
  obtain ⟨outcome, text, rest⟩ := lexeme
  cases outcome with
  | error error => exact absurd before.atFront (munches kind _ before.isToken)
  | ok other =>
    obtain ⟨rfl, rfl⟩ := before.unique munches
    obtain rfl : rest = (scan c following).rest ++ '\n' :: more := by
      refine List.append_cancel_left (whole.trans ?_)
      rw [← List.append_assoc, part]
      rfl
    rfl

/-- Trivia before a token is skipped also if a newline comes behind the token. -/
theorem splitTrivia_append_newline {inComment : Bool} {text : List Char}
    (remains : (splitTrivia inComment text).2 ≠ []) (more : List Char) :
    splitTrivia inComment (text ++ '\n' :: more) =
      ((splitTrivia inComment text).1, (splitTrivia inComment text).2 ++ '\n' :: more) := by
  fun_induction splitTrivia inComment text with
  | case1 => exact absurd rfl remains
  | case2 c text trivia rest skipped ih =>
    rw [skipped] at ih
    rw [List.cons_append, splitTrivia, ih remains]
  | case3 text trivia rest skipped ih =>
    rw [skipped] at ih
    rw [List.cons_append, List.cons_append, splitTrivia, ih remains]
  | case4 c text notComment isBlank trivia rest skipped ih =>
    rw [skipped] at ih
    rw [List.cons_append, splitTrivia_blank (isBlank_iff.mp isBlank), ih remains]
  | case5 c text notComment notBlank =>
    rw [List.cons_append, splitTrivia, if_neg notBlank]
    -- The newline is no second slash.
    intro rest isSlash isComment
    cases text with
    | nil => cases isComment
    | cons second text =>
      obtain ⟨rfl, _⟩ := List.cons.inj isComment
      exact notComment text isSlash rfl

/-- A newline behind trivia is trivia, and so is what can be skipped behind it. -/
theorem splitTrivia_across_newline {inComment : Bool} {text : List Char}
    (isTrivia : (splitTrivia inComment text).2 = []) (more : List Char) :
    splitTrivia inComment (text ++ '\n' :: more) =
      (text ++ '\n' :: (splitTrivia false more).1, (splitTrivia false more).2) := by
  fun_induction splitTrivia inComment text with
  | case1 inComment =>
    cases inComment with
    | true => rfl
    | false =>
      have newline : '\n' ∈ blanks := by decide
      exact splitTrivia_blank newline more
  | case2 c text trivia rest skipped ih =>
    rw [skipped] at ih
    rw [List.cons_append, splitTrivia, ih isTrivia]
    rfl
  | case3 text trivia rest skipped ih =>
    rw [skipped] at ih
    rw [List.cons_append, List.cons_append, splitTrivia, ih isTrivia]
    rfl
  | case4 c text notComment isBlank trivia rest skipped ih =>
    rw [skipped] at ih
    rw [List.cons_append, splitTrivia_blank (isBlank_iff.mp isBlank), ih isTrivia]
    rfl
  | case5 c text notComment notBlank => cases isTrivia

namespace SkipsTrivia

variable {text trivia : List Char}

theorem append_newline (skips : SkipsTrivia text trivia (c :: following)) (more : List Char) :
    SkipsTrivia (text ++ '\n' :: more) trivia (c :: (following ++ '\n' :: more)) := by
  have skipped := splitTrivia_eq_iff.mpr skips
  refine splitTrivia_eq_iff.mp ?_
  rw [splitTrivia_append_newline (by simp [skipped]), skipped]
  rfl

theorem across_newline {more moreTrivia rest : List Char} (skips : SkipsTrivia text trivia [])
    (further : SkipsTrivia more moreTrivia rest) :
    SkipsTrivia (text ++ '\n' :: more) (text ++ '\n' :: moreTrivia) rest := by
  refine splitTrivia_eq_iff.mp ?_
  rw [splitTrivia_across_newline (by rw [splitTrivia_eq_iff.mpr skips]),
    splitTrivia_eq_iff.mpr further]

end SkipsTrivia

end Lexer

namespace Scanner

open Lexer

variable {scanner : Scanner}

/-- The scanner does the same at two places that the same trivia-free text follows. -/
theorem next_eq_of_skips {first second : Scanner} {trivia other rest : List Char}
    (firstGoesOn : first.finished = false) (secondGoesOn : second.finished = false)
    (firstSkips : SkipsTrivia first.rest trivia rest)
    (secondSkips : SkipsTrivia second.rest other rest)
    (sameOffset : first.offset + Source.byteLength trivia =
      second.offset + Source.byteLength other) : first.next = second.next := by
  simp only [next, firstGoesOn, secondGoesOn, Bool.false_eq_true, if_false,
    splitTrivia_eq_iff.mpr firstSkips, splitTrivia_eq_iff.mpr secondSkips, sameOffset]

/-- The scanner in a text behind which a newline and another text stand. -/
def beforeNewline (scanner : Scanner) (more : List Char) : Scanner :=
  ⟨scanner.offset, scanner.rest ++ '\n' :: more, scanner.finished⟩

/-- Where only trivia is left before the newline, the scanner does what it does behind it. -/
theorem next_across_newline {trivia : List Char} (goesOn : scanner.finished = false)
    (skips : SkipsTrivia scanner.rest trivia []) (more : List Char) :
    (scanner.beforeNewline more).next =
      next ⟨scanner.offset + Source.byteLength trivia + 1, more, false⟩ := by
  obtain ⟨moreTrivia, rest, further⟩ := exists_skipsTrivia more
  refine next_eq_of_skips goesOn rfl (skips.across_newline further) further ?_
  have newline : ('\n').utf8Size = 1 := rfl
  rw [skips.splits, List.append_nil]
  simp only [beforeNewline, Source.byteLength_append, Source.byteLength_cons, newline,
    Nat.add_assoc]

/-- A token that is found in a text is found before a newline behind the text. -/
theorem exists_token_beforeNewline {trivia following : List Char} {c : Char} {kind : TokenKind}
    (goesOn : scanner.finished = false)
    (skips : SkipsTrivia scanner.rest trivia (c :: following))
    (found : (scan c following).outcome = .ok kind) (more : List Char) :
    ∃ token behind, token.kind ≠ .endOfInput ∧ behind.finished = false ∧
      scanner.next = (.ok token, behind) ∧
        (scanner.beforeNewline more).next = (.ok token, behind.beforeNewline more) := by
  have longest : LongestToken (c :: following) kind (scan c following).text := by
    simpa only [Lexeme.Munches, found] using munches_scan c following
  have scanned := scan_append_newline found more
  have goesOnBefore : (scanner.beforeNewline more).finished = false := goesOn
  have step := next_of_ok goesOnBefore (skips.append_newline more)
    (congrArg Lexeme.outcome scanned)
  rw [scanned] at step
  exact ⟨_, _, longest.isToken.kind_ne_endOfInput, rfl, next_of_ok goesOn skips found, step⟩

end Scanner

open Scanner Lexer

theorem Lexed.ofScanner_congr {first second : Scanner} (same : first.next = second.next) :
    ofScanner first = ofScanner second := by
  cases step : second.next with
  | mk result behind =>
    cases result with
    | error error => rw [ofScanner_of_error step, ofScanner_of_error (same.trans step)]
    | ok token =>
      by_cases isEnd : token.kind = .endOfInput
      · rw [ofScanner_of_end step isEnd, ofScanner_of_end (same.trans step) isEnd]
      · rw [ofScanner_of_ok step isEnd, ofScanner_of_ok (same.trans step) isEnd]

/-- A text that is scanned to its end is scanned alike before a newline, and behind the newline
the scanner goes on with what follows. -/
theorem Scanner.scans_beforeNewline {tokens : List Token} {stop : Nat} (more : List Char)
    (scanner : Scanner) (goesOn : scanner.finished = false)
    (scanned : Lexed.ofScanner scanner = ⟨tokens, .ok stop⟩) :
    (∀ calls, results (tokens.length + calls) (scanner.beforeNewline more) =
        tokens.map .ok ++ results calls ⟨stop + 1, more, false⟩) ∧
      Lexed.ofScanner (scanner.beforeNewline more) =
        ⟨tokens ++ (Lexed.ofScanner ⟨stop + 1, more, false⟩).tokens,
          (Lexed.ofScanner ⟨stop + 1, more, false⟩).ending⟩ := by
  obtain ⟨trivia, rest, skips⟩ := exists_skipsTrivia scanner.rest
  cases rest with
  | nil =>
    have ended := Lexed.ofScanner_of_end (next_of_nil goesOn skips) rfl
    cases ended.symm.trans scanned
    have across := next_across_newline goesOn skips more
    refine ⟨fun calls => ?_, Lexed.ofScanner_congr across⟩
    cases calls with
    | zero => rfl
    | succ calls =>
      rw [List.length_nil, Nat.zero_add, results_succ, results_succ, across]
      rfl
  | cons c following =>
    cases outcome : (scan c following).outcome with
    | error error =>
      cases (Lexed.ofScanner_of_error (next_of_error goesOn skips outcome)).symm.trans scanned
    | ok kind =>
      obtain ⟨token, behind, notEnd, behindGoesOn, step, stepBefore⟩ :=
        exists_token_beforeNewline goesOn skips outcome more
      have shorter := length_rest_next_lt step notEnd
      cases scannedBehind : Lexed.ofScanner behind with
      | mk found ending =>
        rw [Lexed.ofScanner_of_ok step notEnd, scannedBehind] at scanned
        cases scanned
        obtain ⟨sameResults, sameLexed⟩ :=
          scans_beforeNewline more behind behindGoesOn scannedBehind
        refine ⟨fun calls => ?_, ?_⟩
        · rw [List.length_cons, Nat.add_right_comm, results_succ, stepBefore, sameResults]
          rfl
        · rw [Lexed.ofScanner_of_ok stepBefore notEnd, sameLexed]
          rfl
termination_by scanner.rest.length

/-- The end of a source is behind its last character. -/
theorem Scanner.stop_eq_of_ofScanner {text : List Char} {tokens : List Token} {stop : Nat}
    (scanner : Scanner) (stands : scanner.StandsIn text) (goesOn : scanner.finished = false)
    (scanned : Lexed.ofScanner scanner = ⟨tokens, .ok stop⟩) : stop = Source.byteLength text := by
  obtain ⟨trivia, rest, skips⟩ := exists_skipsTrivia scanner.rest
  cases rest with
  | nil =>
    obtain ⟨consumed, rfl, offset⟩ := stands
    cases (Lexed.ofScanner_of_end (next_of_nil goesOn skips) rfl).symm.trans scanned
    rw [skips.splits, List.append_nil, Source.byteLength_append, ← offset]
    rfl
  | cons c following =>
    have stands := stands.next goesOn
    cases outcome : (scan c following).outcome with
    | error error =>
      cases (Lexed.ofScanner_of_error (next_of_error goesOn skips outcome)).symm.trans scanned
    | ok kind =>
      obtain ⟨token, behind, notEnd, behindGoesOn, step, _⟩ :=
        exists_token_beforeNewline goesOn skips outcome []
      have shorter := length_rest_next_lt step notEnd
      rw [step] at stands
      cases scannedBehind : Lexed.ofScanner behind with
      | mk found ending =>
        rw [Lexed.ofScanner_of_ok step notEnd, scannedBehind] at scanned
        cases scanned
        exact stop_eq_of_ofScanner behind stands behindGoesOn scannedBehind
termination_by scanner.rest.length

namespace Lexed

/-- What two sources with a newline between them are scanned into, if the first one is scanned to
its end. -/
def join (first second : Lexed) (distance : Nat) : Lexed :=
  ⟨first.tokens ++ (second.shift distance).tokens, (second.shift distance).ending⟩

variable {first : String} {stop : Nat}

theorem toList_joined (first second : String) :
    (first ++ "\n" ++ second).toList = first.toList ++ '\n' :: second.toList := by
  simp

theorem stop_eq_of_ofSource (scanned : (ofSource first).ending = .ok stop) :
    stop = Source.byteLength first.toList := by
  have whole : ofScanner (.ofSource first) = ⟨(ofSource first).tokens, .ok stop⟩ := by
    rw [← scanned]
    rfl
  exact stop_eq_of_ofScanner (.ofSource first) ⟨[], rfl, rfl⟩ rfl whole

/-- A source that is scanned to its end is scanned alike before a newline, and behind the newline
the scanner finds what it finds in the second source. -/
theorem scans_joined (scanned : (ofSource first).ending = .ok stop) (second : String) :
    (∀ calls, results ((ofSource first).tokens.length + calls)
        (.ofSource (first ++ "\n" ++ second)) =
          (ofSource first).tokens.map .ok ++
            results calls ((Scanner.ofSource second).shift (Source.byteLength first.toList + 1))) ∧
      ofSource (first ++ "\n" ++ second) =
        (ofSource first).join (ofSource second) (Source.byteLength first.toList + 1) := by
  obtain rfl := stop_eq_of_ofSource scanned
  have whole : ofScanner (.ofSource first) =
      ⟨(ofSource first).tokens, .ok (Source.byteLength first.toList)⟩ := by
    rw [← scanned]
    rfl
  have joined : Scanner.ofSource (first ++ "\n" ++ second) =
      (Scanner.ofSource first).beforeNewline second.toList := by
    rw [Scanner.ofSource, toList_joined]
    rfl
  have started : (⟨Source.byteLength first.toList + 1, second.toList, false⟩ : Scanner) =
      (Scanner.ofSource second).shift (Source.byteLength first.toList + 1) := by
    rw [Scanner.ofSource, Scanner.shift, Nat.zero_add]
  obtain ⟨sameResults, sameLexed⟩ := scans_beforeNewline second.toList (.ofSource first) rfl whole
  rw [started] at sameResults sameLexed
  refine ⟨fun calls => ?_, ?_⟩
  · rw [joined, sameResults]
  · rw [ofSource, joined, sameLexed, ofScanner_shift]
    rfl

/-- The results of two sources with a newline between them, for every number of calls that reaches
behind the first source, and their scan up to the end or to the first error: the tokens of the first
source, which is scanned to its end, and then what is found in the second one, at places that are
later by the bytes of the first source and the newline. -/
theorem joins_at_newline (scanned : (ofSource first).ending = .ok stop) (second : String) :
    (∀ calls, results ((ofSource first).tokens.length + calls)
        (.ofSource (first ++ "\n" ++ second)) =
          (ofSource first).tokens.map .ok ++
            (results calls (.ofSource second)).map
              (shiftResult (Source.byteLength first.toList + 1))) ∧
      (ofSource (first ++ "\n" ++ second)).tokens =
        (ofSource first).tokens ++
          (ofSource second).tokens.map (Token.shift (Source.byteLength first.toList + 1)) ∧
      (ofSource (first ++ "\n" ++ second)).ending =
        ((ofSource second).shift (Source.byteLength first.toList + 1)).ending := by
  obtain ⟨sameResults, sameLexed⟩ := scans_joined scanned second
  refine ⟨fun calls => ?_, ?_, ?_⟩
  · rw [sameResults, results_shift]
  · rw [sameLexed]
    rfl
  · rw [sameLexed]
    rfl

/-- A source that ends in an operator, digits and a comment, before one with a lone symbol and
an open quote. -/
theorem joins_at_newline_of_faults :
    (ofSource "x <\n'/' 12 //é").ending = .ok 15 ∧
      (∀ calls, results ((ofSource "x <\n'/' 12 //é").tokens.length + calls)
        (.ofSource ("x <\n'/' 12 //é" ++ "\n" ++ "= & '")) =
          (ofSource "x <\n'/' 12 //é").tokens.map .ok ++
            (results calls (.ofSource "= & '")).map
              (shiftResult (Source.byteLength "x <\n'/' 12 //é".toList + 1))) := by
  have scanned : (ofSource "x <\n'/' 12 //é").ending = .ok 15 := by
    decide +kernel
  exact ⟨scanned, (joins_at_newline scanned "= & '").1⟩

end Lexed

end TypedImp
