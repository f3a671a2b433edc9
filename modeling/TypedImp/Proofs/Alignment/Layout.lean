import TypedImp.Proofs.Alignment.Compiling
import TypedImp.Proofs.Token.Order

/-!
# Layout

Two sources with the same tokens differ in blanks and comments only.  They are both
compiled, to the same program, or both refused for the same reason; and their runs end
alike.  A span of one source corresponds to a span of the other one if both begin with the
token of one number and end with the token of another one.
-/

namespace TypedImp

namespace Lexed

/-- A span begins with one token and ends with another one, as far as a span reaches.  The
end of the source counts as the last token. -/
def Extends (lexed : Lexed) (first last : Nat) (span : Span) : Prop :=
  first ≤ last ∧ ∃ opening closing, lexed.all[first]? = some opening ∧
    lexed.all[last]? = some closing ∧ span.lo = opening.span.lo ∧
    span.hi = min closing.span.hi (opening.span.lo + Span.maxLength)

theorem getElem?_all {lexed : Lexed} {number : Nat} (isToken : number < lexed.tokens.length) :
    lexed.all[number]? = some lexed.tokens[number] := by
  unfold all
  split
  · rw [List.getElem?_append_left isToken, List.getElem?_eq_getElem isToken]
  · rw [List.getElem?_eq_getElem isToken]

theorem getElem?_all_length {lexed : Lexed} {stop : Nat} (ending : lexed.ending = .ok stop) :
    lexed.all[lexed.tokens.length]? = some (.endAt stop) := by
  simp [all, ending]

theorem extends_self {lexed : Lexed} {number : Nat} {token : Token}
    (found : lexed.all[number]? = some token) : lexed.Extends number number token.span := by
  refine ⟨Nat.le_refl _, token, token, found, found, rfl, ?_⟩
  have bounded := token.span.length_le
  rw [Span.hi]
  omega

theorem bounds_of_le {scanner : Scanner} {stop : Nat}
    (ending : (ofScanner scanner).ending = .ok stop) {first last : Nat} {opening closing : Token}
    (atFirst : (ofScanner scanner).all[first]? = some opening)
    (atLast : (ofScanner scanner).all[last]? = some closing) (ordered : first ≤ last) :
    opening.span.lo ≤ closing.span.lo ∧ opening.span.hi ≤ closing.span.hi := by
  rcases Nat.eq_or_lt_of_le ordered with rfl | less
  · obtain rfl := Option.some.inj (atFirst.symm.trans atLast)
    exact ⟨Nat.le_refl _, Nat.le_refl _⟩
  · obtain ⟨firstIn, rfl⟩ := List.getElem?_eq_some_iff.mp atFirst
    obtain ⟨lastIn, rfl⟩ := List.getElem?_eq_some_iff.mp atLast
    exact List.pairwise_iff_getElem.mp (pairwise_all_ofScanner scanner ending) _ _ firstIn lastIn
      less

/-- What covers two spans begins with the earlier token and ends with the later one. -/
theorem Extends.cover {scanner : Scanner} {stop : Nat}
    (ending : (ofScanner scanner).ending = .ok stop) {first last first' last' : Nat}
    {span span' : Span} (here : (ofScanner scanner).Extends first last span)
    (there : (ofScanner scanner).Extends first' last' span') :
    (ofScanner scanner).Extends (min first first') (max last last') (span.cover span') := by
  obtain ⟨ordered, opening, closing, atFirst, atLast, begins, ends⟩ := here
  obtain ⟨ordered', opening', closing', atFirst', atLast', begins', ends'⟩ := there
  -- Tokens stand in order, so the smaller number has the smaller bound.
  have earlier : ∃ token, (ofScanner scanner).all[min first first']? = some token ∧
      token.span.lo = min opening.span.lo opening'.span.lo := by
    rcases Nat.le_total first first' with le | le
    · have bounds := bounds_of_le ending atFirst atFirst' le
      exact ⟨opening, by rwa [Nat.min_eq_left le], by omega⟩
    · have bounds := bounds_of_le ending atFirst' atFirst le
      exact ⟨opening', by rwa [Nat.min_eq_right le], by omega⟩
  have later : ∃ token, (ofScanner scanner).all[max last last']? = some token ∧
      token.span.hi = max closing.span.hi closing'.span.hi := by
    rcases Nat.le_total last last' with le | le
    · have bounds := bounds_of_le ending atLast atLast' le
      exact ⟨closing', by rwa [Nat.max_eq_right le], by omega⟩
    · have bounds := bounds_of_le ending atLast' atLast le
      exact ⟨closing, by rwa [Nat.max_eq_left le], by omega⟩
  obtain ⟨opens, atMin, lo⟩ := earlier
  obtain ⟨closes, atMax, hi⟩ := later
  refine ⟨by omega, opens, closes, atMin, atMax, ?_, ?_⟩
  · rw [Span.lo_cover, lo, begins, begins']
  · rw [Span.hi_cover, lo, hi, begins, begins', ends, ends']
    omega

end Lexed

/-- Two sources are scanned to their ends and have tokens of the same kinds and texts. -/
structure SameWords (source source' : String) : Prop where
  scanned : ∃ stop, (Lexed.ofSource source).ending = .ok stop
  scanned' : ∃ stop', (Lexed.ofSource source').ending = .ok stop'
  words : (Lexed.ofSource source).tokens.map (fun token => (token.kind, token.text)) =
    (Lexed.ofSource source').tokens.map fun token => (token.kind, token.text)

namespace SameWords

variable {source source' : String}

/-- Spans of two sources correspond if they begin and end with tokens of the same
numbers. -/
def alignment (same : SameWords source source') : Alignment where
  spans span span' := ∃ first last, (Lexed.ofSource source).Extends first last span ∧
    (Lexed.ofSource source').Extends first last span'
  cover := by
    rintro first first' second second' ⟨i, j, begins, begins'⟩ ⟨k, l, ends, ends'⟩
    obtain ⟨stop, ending⟩ := same.scanned
    obtain ⟨stop', ending'⟩ := same.scanned'
    exact ⟨min i k, max j l, begins.cover ending ends, begins'.cover ending' ends'⟩

theorem sameTokens (same : SameWords source source') :
    same.alignment.SameTokens (Lexed.ofSource source).tokens (Lexed.ofSource source').tokens := by
  have words := same.words
  have sameLength : (Lexed.ofSource source).tokens.length =
      (Lexed.ofSource source').tokens.length := by
    simpa using congrArg List.length words
  refine List.forall₂_iff_get.mpr ⟨sameLength, fun number inFirst inSecond => ?_⟩
  have spans := Lexed.extends_self (Lexed.getElem?_all inFirst)
  have spans' := Lexed.extends_self (Lexed.getElem?_all inSecond)
  have word := congrArg (·[number]?) words
  simp only [List.getElem?_map, List.getElem?_eq_getElem inFirst,
    List.getElem?_eq_getElem inSecond, Option.map_some, Option.some.injEq, Prod.mk.injEq] at word
  simp only [List.get_eq_getElem]
  generalize (Lexed.ofSource source).tokens[number] = token,
    (Lexed.ofSource source').tokens[number] = token' at word spans spans' ⊢
  obtain ⟨kind, span, text⟩ := token
  obtain ⟨kind', span', text'⟩ := token'
  obtain ⟨rfl, rfl⟩ := word
  exact .mk kind text ⟨number, number, spans, spans'⟩

theorem stops (same : SameWords source source') {stop stop' : Nat}
    (ending : (Lexed.ofSource source).ending = .ok stop)
    (ending' : (Lexed.ofSource source').ending = .ok stop') :
    same.alignment.spans (.emptyAt stop) (.emptyAt stop') := by
  have there := Lexed.getElem?_all_length ending'
  rw [← same.sameTokens.length_eq] at there
  exact ⟨_, _, Lexed.extends_self (Lexed.getElem?_all_length ending), Lexed.extends_self there⟩

end SameWords

end TypedImp
