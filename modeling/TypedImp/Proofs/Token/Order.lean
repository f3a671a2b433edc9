import TypedImp.Token.Lexer

/-!
# The order of tokens

The tokens of a source are not empty and stand one behind the other.  The order is said
from an offset on, so that it can be cut where the tokens are cut.
-/

namespace TypedImp

/-- The offset behind the last of some tokens that follow an offset. -/
def endOf (offset : Nat) : List Token → Nat
  | [] => offset
  | token :: rest => endOf token.span.hi rest

/-- Tokens that are not empty and stand one behind the other from an offset on. -/
def InOrder (offset : Nat) : List Token → Prop
  | [] => True
  | token :: rest =>
    offset ≤ token.span.lo ∧ token.span.lo < token.span.hi ∧ InOrder token.span.hi rest

@[simp]
theorem endOf_nil (offset : Nat) : endOf offset [] = offset :=
  rfl

@[simp]
theorem endOf_cons (offset : Nat) (token : Token) (rest : List Token) :
    endOf offset (token :: rest) = endOf token.span.hi rest :=
  rfl

@[simp]
theorem endOf_append (offset : Nat) (first second : List Token) :
    endOf offset (first ++ second) = endOf (endOf offset first) second := by
  induction first generalizing offset with
  | nil => rfl
  | cons token rest ih => exact ih token.span.hi

@[simp]
theorem inOrder_nil (offset : Nat) : InOrder offset [] :=
  trivial

@[simp]
theorem inOrder_cons {offset : Nat} {token : Token} {rest : List Token} :
    InOrder offset (token :: rest) ↔
      offset ≤ token.span.lo ∧ token.span.lo < token.span.hi ∧ InOrder token.span.hi rest :=
  Iff.rfl

@[simp]
theorem inOrder_append {offset : Nat} {first second : List Token} :
    InOrder offset (first ++ second) ↔
      InOrder offset first ∧ InOrder (endOf offset first) second := by
  induction first generalizing offset with
  | nil => simp
  | cons token rest ih => simp [ih, and_assoc]

theorem InOrder.mono {earlier later : Nat} {tokens : List Token} (inOrder : InOrder later tokens)
    (before : earlier ≤ later) : InOrder earlier tokens := by
  cases tokens with
  | nil => trivial
  | cons token rest =>
    obtain ⟨starts, following⟩ := inOrder
    exact ⟨Nat.le_trans before starts, following⟩

theorem InOrder.le_endOf {offset : Nat} {tokens : List Token} (inOrder : InOrder offset tokens) :
    offset ≤ endOf offset tokens := by
  induction tokens generalizing offset with
  | nil => exact Nat.le_refl offset
  | cons token rest ih =>
    obtain ⟨starts, nonempty, following⟩ := inOrder
    have := ih following
    rw [endOf_cons]
    omega

theorem endOf_mono {earlier later : Nat} (before : earlier ≤ later) (tokens : List Token) :
    endOf earlier tokens ≤ endOf later tokens := by
  cases tokens with
  | nil => exact before
  | cons token rest => exact Nat.le_refl _

theorem InOrder.lo_le_hi_of_mem {offset : Nat} {tokens : List Token}
    (inOrder : InOrder offset tokens) {token : Token} (member : token ∈ tokens) :
    offset ≤ token.span.lo ∧ token.span.lo ≤ token.span.hi := by
  induction tokens generalizing offset with
  | nil => cases member
  | cons first rest ih =>
    obtain ⟨starts, nonempty, following⟩ := inOrder
    rcases List.mem_cons.mp member with rfl | later
    · exact ⟨starts, Nat.le_of_lt nonempty⟩
    · have bounds := ih following later
      omega

theorem byteLength_pos {text : List Char} (nonempty : text ≠ []) :
    0 < Source.byteLength text := by
  cases text with
  | nil => exact absurd rfl nonempty
  | cons c rest =>
    rw [Source.byteLength_cons]
    have := c.utf8Size_pos
    omega

namespace Scanner

/-- A token before the end is not empty, and lies between the place of the scanner and
the place behind it. -/
theorem span_of_next {scanner behind : Scanner} {token : Token}
    (step : scanner.next = (.ok token, behind)) (notEnd : token.kind ≠ .endOfInput) :
    scanner.offset ≤ token.span.lo ∧ token.span.lo < token.span.hi ∧
      token.span.hi ≤ behind.offset := by
  unfold next at step
  split at step
  · simp at step
  split at step
  case _ trivia rest _ =>
    split at step
    · simp only [Prod.mk.injEq, Except.ok.injEq] at step
      rw [← step.1] at notEnd
      exact absurd rfl notEnd
    case _ c following _ =>
      have positive := byteLength_pos (Lexer.scan_text_ne_nil c following)
      dsimp only at step
      split at step
      · simp only [Prod.mk.injEq, Except.ok.injEq] at step
        obtain ⟨rfl, rfl⟩ := step
        rw [Span.lo_ofBounds, Span.hi_ofBounds (by omega), Span.maxLength]
        dsimp only
        omega
      · simp at step

/-- A token begins at the place of the scanner or behind it. -/
theorem offset_le_of_next {scanner behind : Scanner} {token : Token}
    (step : scanner.next = (.ok token, behind)) : scanner.offset ≤ token.span.lo := by
  unfold next at step
  split at step
  · simp at step
  split at step
  case _ trivia rest _ =>
    split at step
    · simp only [Prod.mk.injEq, Except.ok.injEq] at step
      rw [← step.1]
      exact Nat.le_add_right ..
    case _ c following _ =>
      dsimp only at step
      split at step
      · simp only [Prod.mk.injEq, Except.ok.injEq] at step
        rw [← step.1]
        exact Nat.le_add_right ..
      · simp at step

end Scanner

/-- The tokens that a scanner finds stand in order behind its place. -/
theorem inOrder_ofScanner (scanner : Scanner) :
    InOrder scanner.offset (Lexed.ofScanner scanner).tokens := by
  fun_induction Lexed.ofScanner scanner with
  | case1 => trivial
  | case2 => trivial
  | case3 scanner token behind step notEnd following ih =>
    obtain ⟨starts, nonempty, ends⟩ := Scanner.span_of_next step notEnd
    exact ⟨starts, nonempty, ih.mono ends⟩

/-- The end of a source lies behind all tokens. -/
theorem endOf_ofScanner_le (scanner : Scanner) {stop : Nat}
    (ending : (Lexed.ofScanner scanner).ending = .ok stop) :
    endOf scanner.offset (Lexed.ofScanner scanner).tokens ≤ stop := by
  fun_induction Lexed.ofScanner scanner with
  | case1 => cases ending
  | case2 scanner token behind step isEnd =>
    cases ending
    exact Scanner.offset_le_of_next step
  | case3 scanner token behind step notEnd following ih =>
    obtain ⟨_, _, ends⟩ := Scanner.span_of_next step notEnd
    exact Nat.le_trans (endOf_mono ends _) (ih ending)

/-- Of two tokens of a source that is scanned to its end, the later one begins later and does not
end earlier. -/
theorem pairwise_lt_all_ofScanner (scanner : Scanner) {stop : Nat}
    (ending : (Lexed.ofScanner scanner).ending = .ok stop) :
    (Lexed.ofScanner scanner).all.Pairwise fun first second =>
      first.span.lo < second.span.lo ∧ first.span.hi ≤ second.span.hi := by
  have inOrder := inOrder_ofScanner scanner
  have ends := endOf_ofScanner_le scanner ending
  unfold Lexed.all
  rw [ending]
  generalize (Lexed.ofScanner scanner).tokens = tokens, scanner.offset = offset at inOrder ends
  induction tokens generalizing offset with
  | nil => simp
  | cons token rest ih =>
    obtain ⟨_, nonempty, following⟩ := inOrder
    refine List.pairwise_cons.mpr ⟨fun later member => ?_, ih _ following ends⟩
    rw [endOf_cons] at ends
    rcases List.mem_append.mp member with inRest | isEnd
    · have bounds := following.lo_le_hi_of_mem inRest
      omega
    · obtain rfl := List.mem_singleton.mp isEnd
      have behind := following.le_endOf
      simp only [Token.endAt, Span.emptyAt, Span.hi] at *
      omega

/-- Of two tokens of a source that is scanned to its end, the later one begins and ends
later. -/
theorem pairwise_all_ofScanner (scanner : Scanner) {stop : Nat}
    (ending : (Lexed.ofScanner scanner).ending = .ok stop) :
    (Lexed.ofScanner scanner).all.Pairwise fun first second =>
      first.span.lo ≤ second.span.lo ∧ first.span.hi ≤ second.span.hi :=
  (pairwise_lt_all_ofScanner scanner ending).imp fun ⟨begins, ends⟩ => ⟨Nat.le_of_lt begins, ends⟩

/-- Two places of a source that is scanned to its end have different spans. -/
theorem eq_of_span_eq_all_ofScanner (scanner : Scanner) {stop : Nat}
    (ending : (Lexed.ofScanner scanner).ending = .ok stop) {first second : Nat} {span : Span}
    (isFirst : (Lexed.ofScanner scanner).all[first]?.map Token.span = some span)
    (isSecond : (Lexed.ofScanner scanner).all[second]?.map Token.span = some span) :
    first = second := by
  have later := List.pairwise_iff_getElem.mp (pairwise_lt_all_ofScanner scanner ending)
  obtain ⟨firstToken, firstFound, rfl⟩ := Option.map_eq_some_iff.mp isFirst
  obtain ⟨secondToken, secondFound, same⟩ := Option.map_eq_some_iff.mp isSecond
  obtain ⟨firstIn, rfl⟩ := List.getElem?_eq_some_iff.mp firstFound
  obtain ⟨secondIn, rfl⟩ := List.getElem?_eq_some_iff.mp secondFound
  rcases Nat.lt_trichotomy first second with less | equal | greater
  · have begins := (later first second firstIn secondIn less).1
    rw [same] at begins
    exact absurd begins (Nat.lt_irrefl _)
  · exact equal
  · have begins := (later second first secondIn firstIn greater).1
    rw [same] at begins
    exact absurd begins (Nat.lt_irrefl _)

end TypedImp
