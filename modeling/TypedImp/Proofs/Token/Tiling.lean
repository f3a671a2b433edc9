import Mathlib.Algebra.Group.Nat.Defs
import Mathlib.Data.List.Chain
import TypedImp.Proofs.Token.Order
import TypedImp.Proofs.Token.Scanning

/-!
# Results that tile a source

What the scanner of a source gives up to its end, going on after errors.  Each token and each
error takes a piece of the source, the pieces stand one behind the other, and only trivia lies
between them.  `tiles_results` says so, and that the end is reported once and in time.
-/

namespace TypedImp

/-- What lies between two regions of a text is trivia. -/
def TriviaBetween (text : List Char) (first second : Span) : Prop :=
  Lexer.Trivia (Source.after second.lo text)
    (Source.before (second.lo - first.hi) (Source.after first.hi text))

/-- The pieces of a text behind an offset: they are not empty, cut no character and stand one
behind the other, and before, between and behind them there is only trivia. -/
structure Tiles (text : List Char) (start : Nat) (pieces : List Span) : Prop where
  nonempty : ∀ piece ∈ pieces, piece.lo < piece.hi
  boundaries : ∀ piece ∈ pieces,
    Source.isBoundary piece.lo text = true ∧ Source.isBoundary piece.hi text = true
  increasing : (Span.emptyAt start :: pieces).Pairwise fun first second => first.hi ≤ second.lo
  gaps : List.IsChain (TriviaBetween text)
    (Span.emptyAt start :: (pieces ++ [Span.emptyAt (Source.byteLength text)]))

/-- Between two places of a text stands the text between them. -/
theorem triviaBetween_of_append {earlier trivia rest : List Char} {first second : Span}
    (starts : first.hi = Source.byteLength earlier)
    (ends : second.lo = Source.byteLength (earlier ++ trivia))
    (isTrivia : Lexer.Trivia rest trivia) :
    TriviaBetween (earlier ++ trivia ++ rest) first second := by
  have length : second.lo - first.hi = Source.byteLength trivia := by
    rw [starts, ends, Source.byteLength_append]
    omega
  rw [TriviaBetween, length, ends, starts, Source.after_byteLength, List.append_assoc,
    Source.after_byteLength, Source.before_byteLength]
  exact isTrivia

theorem isBoundary_byteLength (first second : List Char) :
    Source.isBoundary (Source.byteLength first) (first ++ second) = true := by
  rw [Source.isBoundary, Source.before_byteLength]
  exact beq_self_eq_true _

/-- A text of trivia has no pieces. -/
theorem tiles_nil {consumed trivia : List Char} (isTrivia : Lexer.Trivia [] trivia) :
    Tiles (consumed ++ trivia) (Source.byteLength consumed) [] where
  nonempty := nofun
  boundaries := nofun
  increasing := List.pairwise_singleton _ _
  gaps := by
    have gap : TriviaBetween (consumed ++ trivia ++ [])
        (Span.emptyAt (Source.byteLength consumed))
        (Span.emptyAt (Source.byteLength (consumed ++ trivia))) :=
      triviaBetween_of_append rfl rfl isTrivia
    rw [List.append_nil] at gap
    exact .cons_cons gap (.singleton _)

/-- One more piece, with the trivia before it. -/
theorem tiles_cons {consumed trivia lexeme rest : List Char} {piece : Span} {pieces : List Span}
    (isTrivia : Lexer.Trivia (lexeme ++ rest) trivia) (present : lexeme ≠ [])
    (lo : piece.lo = Source.byteLength (consumed ++ trivia))
    (hi : piece.hi = Source.byteLength (consumed ++ trivia ++ lexeme))
    (behind : Tiles (consumed ++ trivia ++ lexeme ++ rest) piece.hi pieces) :
    Tiles (consumed ++ trivia ++ lexeme ++ rest) (Source.byteLength consumed)
      (piece :: pieces) := by
  have nonempty : piece.lo < piece.hi := by
    have := byteLength_pos present
    rw [lo, hi, Source.byteLength_append _ lexeme]
    omega
  have starts : Source.byteLength consumed ≤ piece.lo := by
    rw [lo, Source.byteLength_append]
    exact Nat.le_add_right _ _
  constructor
  · exact List.forall_mem_cons.mpr ⟨nonempty, behind.nonempty⟩
  · refine List.forall_mem_cons.mpr ⟨⟨?_, ?_⟩, behind.boundaries⟩
    · rw [lo, List.append_assoc]
      exact isBoundary_byteLength _ _
    · rw [hi]
      exact isBoundary_byteLength _ _
  · obtain ⟨later, increasing⟩ := List.pairwise_cons.mp behind.increasing
    refine List.pairwise_cons.mpr ⟨?_, List.pairwise_cons.mpr ⟨later, increasing⟩⟩
    refine List.forall_mem_cons.mpr ⟨starts, fun second member => ?_⟩
    exact Nat.le_trans starts (Nat.le_trans (Nat.le_of_lt nonempty) (later second member))
  · have gap : TriviaBetween (consumed ++ trivia ++ lexeme ++ rest)
        (Span.emptyAt (Source.byteLength consumed)) piece := by
      rw [List.append_assoc (consumed ++ trivia)]
      exact triviaBetween_of_append rfl lo isTrivia
    -- Of the first region of a chain only the end counts.
    have sameEnd : ∀ {next : Span},
        TriviaBetween (consumed ++ trivia ++ lexeme ++ rest) (Span.emptyAt piece.hi) next →
          TriviaBetween (consumed ++ trivia ++ lexeme ++ rest) piece next := fun between => between
    exact .cons_cons gap (behind.gaps.imp_head sameEnd)

namespace Lexer

/-- Reading past the end is no fault of a text. -/
theorem scan_ne_readPastEnd (c : Char) (following : List Char) :
    (scan c following).outcome ≠ .error .readPastEnd := by
  unfold scan scanWord scanNumber scanCharacter scanSymbol scanSingle
  repeat' split
  all_goals simp

end Lexer

namespace Scanner

open Lexer

/-- The region of the source that a result of the scanner takes. -/
def place : Except (Spanned LexError) Token → Span
  | .ok token => token.span
  | .error error => error.span

/-- A token before the end, or an error in the source. -/
def IsPiece : Except (Spanned LexError) Token → Prop
  | .ok token => token.kind ≠ .endOfInput
  | .error error => error.content ≠ .readPastEnd

/-- What the scanner gives when the source has ended. -/
def pastEnd (offset : Nat) : Except (Spanned LexError) Token :=
  .error ⟨Span.emptyAt offset, .readPastEnd⟩

theorem results_succ (calls : Nat) (scanner : Scanner) :
    results (calls + 1) scanner = scanner.next.1 :: results calls scanner.next.2 :=
  rfl

theorem results_finished (calls offset : Nat) (rest : List Char) :
    results calls ⟨offset, rest, true⟩ = List.replicate calls (pastEnd offset) := by
  induction calls with
  | zero => rfl
  | succ calls ih =>
    rw [results_succ, List.replicate_succ, ← ih]
    rfl

/-- Behind trivia with something behind it, the scanner takes a piece. -/
theorem exists_piece {scanner : Scanner} {trivia following : List Char} {c : Char}
    (goesOn : scanner.finished = false)
    (skips : SkipsTrivia scanner.rest trivia (c :: following)) :
    ∃ result, IsPiece result ∧
      place result = scanner.lexemeSpan trivia (scan c following).text ∧
        scanner.next = (result,
          ⟨scanner.offset + Source.byteLength trivia +
            Source.byteLength (scan c following).text, (scan c following).rest, false⟩) := by
  have munches := munches_scan c following
  cases outcome : (scan c following).outcome with
  | ok kind =>
    have longest : LongestToken (c :: following) kind (scan c following).text := by
      simpa only [Lexeme.Munches, outcome] using munches
    refine ⟨_, ?_, ?_, next_of_ok goesOn skips outcome⟩
    · exact longest.isToken.kind_ne_endOfInput
    · rfl
  | error error =>
    have inSource : error ≠ .readPastEnd := by
      rintro rfl
      exact scan_ne_readPastEnd c following outcome
    refine ⟨_, ?_, ?_, next_of_error goesOn skips outcome⟩
    · exact inSource
    · rfl

/-- Fewer calls give the first results of more calls. -/
theorem take_results (scanner : Scanner) (calls more : Nat) :
    (results (calls + more) scanner).take calls = results calls scanner := by
  induction calls generalizing scanner with
  | zero => rfl
  | succ calls ih =>
    rw [Nat.add_right_comm, results_succ, results_succ, List.take_succ_cons, ih]

/-- From every place in a source that a span can cover, the scanner takes pieces up to the
end, and no more of them than there are characters left. -/
theorem exists_pieces {consumed : List Char} (scanner : Scanner)
    (offset : scanner.offset = Source.byteLength consumed) (goesOn : scanner.finished = false)
    (short : Source.byteLength (consumed ++ scanner.rest) ≤ Span.maxLength) :
    ∃ found : List (Except (Spanned LexError) Token), found.length ≤ scanner.rest.length ∧
      (∀ result ∈ found, IsPiece result) ∧
      Tiles (consumed ++ scanner.rest) scanner.offset (found.map place) ∧
      ∀ more, results (found.length + 1 + more) scanner =
        found ++ .ok (Token.endAt (Source.byteLength (consumed ++ scanner.rest))) ::
          List.replicate more (pastEnd (Source.byteLength (consumed ++ scanner.rest))) := by
  obtain ⟨trivia, rest, skips⟩ := exists_skipsTrivia scanner.rest
  have splits := skips.splits
  cases rest with
  | nil =>
    rw [List.append_nil] at splits
    refine ⟨[], Nat.zero_le _, nofun, ?_, fun more => ?_⟩
    · rw [splits, offset]
      exact tiles_nil skips.isTrivia
    · rw [List.length_nil, Nat.zero_add, Nat.add_comm, results_succ, next_of_nil goesOn skips,
        results_finished, splits, Source.byteLength_append, offset]
      rfl
  | cons c following =>
    obtain ⟨result, isPiece, placed, step⟩ := exists_piece goesOn skips
    have whole := scan_text_append_rest c following
    have present := scan_text_ne_nil c following
    generalize scan c following = lexeme at placed step whole present
    have text : consumed ++ scanner.rest = consumed ++ trivia ++ lexeme.text ++ lexeme.rest := by
      rw [splits, ← whole, List.append_assoc, List.append_assoc]
    have reached : scanner.offset + Source.byteLength trivia + Source.byteLength lexeme.text =
        Source.byteLength (consumed ++ trivia ++ lexeme.text) := by
      rw [offset, Source.byteLength_append, Source.byteLength_append]
    have shorter : lexeme.rest.length < scanner.rest.length := by
      have := List.length_pos_iff.mpr present
      rw [splits, ← whole, List.length_append, List.length_append]
      omega
    rw [text] at short ⊢
    obtain ⟨found, few, arePieces, tiles, ends⟩ :=
      exists_pieces ⟨_, lexeme.rest, false⟩ reached rfl short
    have lo : (place result).lo = Source.byteLength (consumed ++ trivia) := by
      rw [placed, lexemeSpan, Span.lo_ofBounds, offset, Source.byteLength_append]
    have hi : (place result).hi = Source.byteLength (consumed ++ trivia ++ lexeme.text) := by
      rw [placed, lexemeSpan, Span.hi_ofBounds (Nat.le_add_right _ _), reached]
      rw [Source.byteLength_append] at short
      omega
    refine ⟨result :: found, Nat.lt_of_le_of_lt few shorter,
      List.forall_mem_cons.mpr ⟨isPiece, arePieces⟩, ?_, fun more => ?_⟩
    · rw [offset]
      refine tiles_cons ?_ present lo hi ?_
      · rw [whole]
        exact skips.isTrivia
      · rw [hi, ← reached]
        exact tiles
    · rw [List.length_cons, Nat.add_right_comm _ 1 more, results_succ, step, ends more]
      rfl
termination_by scanner.rest.length

/-- The results of a source that a span can cover, for every number of calls: pieces that tile
the source, at its end the end, and then nothing but the complaint that it was reached.  The
pieces are no more than the characters. -/
theorem tiles_results {source : String} (short : Source.byteLength source.toList < 2 ^ 32) :
    ∃ found : List (Except (Spanned LexError) Token),
      found.length ≤ source.toList.length ∧
      (∀ result ∈ found, IsPiece result) ∧
      Tiles source.toList 0 (found.map place) ∧
      ∀ calls, results calls (ofSource source) =
        (found ++ .ok (Token.endAt (Source.byteLength source.toList)) ::
          List.replicate calls (pastEnd (Source.byteLength source.toList))).take calls := by
  have covered : Source.byteLength ([] ++ (ofSource source).rest) ≤ Span.maxLength :=
    Nat.le_of_lt_succ short
  obtain ⟨found, few, arePieces, tiles, ends⟩ := exists_pieces (ofSource source) rfl rfl covered
  refine ⟨found, few, arePieces, tiles, fun calls => ?_⟩
  have whole := ends calls
  rw [Nat.add_comm] at whole
  exact (take_results (ofSource source) calls _).symm.trans (congrArg (List.take calls) whole)

/-- A source in which a call stops behind a quote, a lone symbol, a character that no token
starts with and an empty literal, with trivia between them and a comment at the end. -/
theorem tiles_results_of_faults :
    Source.byteLength "x '\n & é//''\n''//".toList < 2 ^ 32 ∧
      ∃ found : List (Except (Spanned LexError) Token),
        found.length ≤ "x '\n & é//''\n''//".toList.length ∧
        (∀ result ∈ found, IsPiece result) ∧
        Tiles "x '\n & é//''\n''//".toList 0 (found.map place) ∧
        ∀ calls, results calls (ofSource "x '\n & é//''\n''//") =
          (found ++ .ok (Token.endAt (Source.byteLength "x '\n & é//''\n''//".toList)) ::
            List.replicate calls
              (pastEnd (Source.byteLength "x '\n & é//''\n''//".toList))).take calls := by
  have short : Source.byteLength "x '\n & é//''\n''//".toList < 2 ^ 32 := by
    decide +kernel
  exact ⟨short, tiles_results short⟩

end Scanner

end TypedImp
