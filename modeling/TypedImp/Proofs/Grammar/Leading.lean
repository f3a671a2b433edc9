import TypedImp.Proofs.Grammar.Walking

/-!
# Walks beside readers

A walk is compared with a reader of the tokens from its cursor on.  `Leads` says that the walk is
finished, that it fails as the reader fails or moves the cursor forward, and what is left to read
then.  It is put together along a walk, step by step.
-/

namespace TypedImp

/-- A tape shows some tokens and the end of the source behind them. -/
structure Shows (tape : Nat → Token) (tokens : List Token) (stop : Nat) : Prop where
  drop_eq : ∀ cursor < tokens.length,
    tokens.drop cursor = tape cursor :: tokens.drop (cursor + 1)
  kind_ne_end : ∀ cursor < tokens.length, (tape cursor).kind ≠ .endOfInput
  at_end : tape tokens.length = .endAt stop

namespace Walk

open TypedImp.Parser TypedImp.Parser.Reader

variable {α β γ : Type}

/-- The walk is finished.  If it fails, then so does `whole` on the tokens from the cursor on.  If
it gives a value, then it has moved the cursor to `least` or beyond and not past the end of the
source, and what `whole` reads is what `behind` reads from there on. -/
inductive Leads (tokens : List Token) (walk : Walk α) (cursor : Nat) (whole : Reader β)
    (behind : α → Reader β) (least : Nat) : Prop where
  | fails {error : Spanned SyntaxError} (walked : walk cursor = some (.error error))
      (refused : whole (tokens.drop cursor) = .error error)
  | moves {value : α} {next : Nat} (walked : walk cursor = some (.ok (value, next)))
      (forward : least ≤ next) (within : next ≤ tokens.length)
      (continued : whole (tokens.drop cursor) = behind value (tokens.drop next))

/-- The walk is finished and does what a reader does, and it moves the cursor to `least` or beyond
if it gives a value. -/
abbrev Follows (tokens : List Token) (walk : Walk α) (read : Reader α) (cursor least : Nat) :
    Prop :=
  Leads tokens walk cursor read pure least

variable {tokens : List Token} {walk : Walk α} {cursor next least least' : Nat}
  {whole whole' : Reader β} {behind : α → Reader β} {following : α → Walk γ}

theorem bind_of_ok {value : α} (walked : walk cursor = some (.ok (value, next))) :
    (walk >>= following) cursor = following value next := by
  change ExceptT.bind (walk cursor) (fun result => following result.1 result.2) = _
  rw [walked]
  rfl

theorem bind_of_error {error : Spanned SyntaxError} (walked : walk cursor = some (.error error)) :
    (walk >>= following) cursor = some (.error error) := by
  change ExceptT.bind (walk cursor) (fun result => following result.1 result.2) = _
  rw [walked]
  rfl

namespace Leads

/-- A walk leads where another one does, perhaps from another cursor on. -/
theorem of_eq {walk' : Walk α} {cursor' : Nat} (sameWalk : walk cursor = walk' cursor')
    (sameWhole : whole (tokens.drop cursor) = whole' (tokens.drop cursor'))
    (leads : Leads tokens walk' cursor' whole' behind least) :
    Leads tokens walk cursor whole behind least := by
  cases leads with
  | fails walked refused => exact .fails (sameWalk.trans walked) (sameWhole.trans refused)
  | moves walked forward within continued =>
    exact .moves (sameWalk.trans walked) forward within (sameWhole.trans continued)

theorem of_walk_eq {walk' : Walk α} (same : walk cursor = walk' cursor)
    (leads : Leads tokens walk' cursor whole behind least) :
    Leads tokens walk cursor whole behind least :=
  .of_eq same rfl leads

theorem of_whole_eq (same : whole (tokens.drop cursor) = whole' (tokens.drop cursor))
    (leads : Leads tokens walk cursor whole' behind least) :
    Leads tokens walk cursor whole behind least :=
  .of_eq rfl same leads

theorem weaken (atMost : least' ≤ least) (leads : Leads tokens walk cursor whole behind least) :
    Leads tokens walk cursor whole behind least' := by
  cases leads with
  | fails walked refused => exact .fails walked refused
  | moves walked forward within continued =>
    exact .moves walked (Nat.le_trans atMost forward) within continued

protected theorem pure {value : α} (forward : least ≤ cursor) (within : cursor ≤ tokens.length)
    (same : whole (tokens.drop cursor) = behind value (tokens.drop cursor)) :
    Leads tokens (pure value) cursor whole behind least :=
  .moves rfl forward within same

/-- A walk in two parts leads where its second part leads from where the first one led. -/
protected theorem bind {behind' : γ → Reader β}
    (first : Leads tokens walk cursor whole behind least)
    (goesOn : ∀ value next, least ≤ next → next ≤ tokens.length →
      Leads tokens (following value) next (behind value) behind' least') :
    Leads tokens (walk >>= following) cursor whole behind' least' := by
  cases first with
  | fails walked refused => exact .fails (bind_of_error walked) refused
  | @moves value next walked forward within continued =>
    exact .of_eq (bind_of_ok walked) continued (goesOn value next forward within)

/-- What comes behind the whole comes behind what is left too. -/
theorem andThen (leads : Leads tokens walk cursor whole behind least) (read : β → Reader γ) :
    Leads tokens walk cursor (whole >>= read) (fun value => behind value >>= read) least := by
  cases leads with
  | fails walked refused => exact .fails walked (by rw [bind_apply, refused])
  | moves walked forward within continued =>
    exact .moves walked forward within (by rw [bind_apply, continued, bind_apply])

theorem map (leads : Leads tokens walk cursor whole behind least) (f : β → γ) :
    Leads tokens walk cursor (f <$> whole) (fun value => f <$> behind value) least := by
  simpa only [map_eq_pure_bind] using leads.andThen fun value => pure (f value)

/-- Behind a walk that follows a reader, what is read behind the reader is left. -/
theorem behind_of_follows {read : Reader α} (follows : Follows tokens walk read cursor least)
    (behind : α → Reader β) : Leads tokens walk cursor (read >>= behind) behind least := by
  simpa only [pure_bind] using follows.andThen behind

/-- A walk that follows a reader, and what comes behind it beside what comes behind the reader. -/
theorem goOn {read : Reader α} {next : α → Reader β} {behind : γ → Reader β}
    (follows : Follows tokens walk read cursor least)
    (goesOn : ∀ value place, least ≤ place → place ≤ tokens.length →
      Leads tokens (following value) place (next value) behind least') :
    Leads tokens (walk >>= following) cursor (read >>= next) behind least' :=
  (follows.behind_of_follows next).bind goesOn

/-- What is made of the outcome of a reader may be made by the walk. -/
theorem give {read : Reader α} (follows : Follows tokens walk read cursor least)
    (f : α → γ) :
    Follows tokens (walk >>= fun value => pure (f value)) (f <$> read) cursor least := by
  rw [map_eq_pure_bind]
  exact follows.goOn fun value place forward within => .pure forward within rfl

end Leads

theorem leads_settled (within : cursor ≤ tokens.length)
    (outcome : Except (Spanned SyntaxError) α) (behind : α → Reader β) :
    Leads tokens (settled outcome) cursor (Reader.settled outcome >>= behind) behind cursor := by
  cases outcome with
  | error error => exact .fails rfl rfl
  | ok value => exact .moves rfl (Nat.le_refl cursor) within rfl

theorem leads_refuse {token : Token} {content : SyntaxError}
    (refused : whole (tokens.drop cursor) = .error ⟨token.span, content⟩) :
    Leads tokens (refuse token content) cursor whole behind least :=
  .fails rfl refused

section Steps

variable {tape : Nat → Token} {stop : Nat} {kind : TokenKind} {taken otherwise : Walk α}

theorem leads_peek {following : Token → Walk α}
    (leads : Leads tokens (following (tape cursor)) cursor whole behind least) :
    Leads tokens (peek tape >>= following) cursor whole behind least :=
  .of_walk_eq (bind_of_ok rfl) leads

theorem advance_eq : advance tape cursor =
    some (.ok (tape cursor, if (tape cursor).kind = .endOfInput then cursor else cursor + 1)) := by
  have peeked : peek tape cursor = some (.ok (tape cursor, cursor)) := rfl
  rw [advance, bind_of_ok peeked]
  by_cases isEnd : (tape cursor).kind = .endOfInput
  · rw [if_pos isEnd, if_neg (not_not_intro isEnd)]
    rfl
  · rw [if_neg isEnd, if_pos isEnd]
    rfl

variable (shows : Shows tape tokens stop)

include shows

/-- Behind the token at the cursor, what is read behind this token is left. -/
theorem leads_advance (inside : cursor < tokens.length) {following : Token → Walk α}
    (leads : Leads tokens (following (tape cursor)) (cursor + 1)
      (fun rest => whole (tape cursor :: rest)) behind least) :
    Leads tokens (advance tape >>= following) cursor whole behind least := by
  refine .of_eq (bind_of_ok ?_) ?_ leads
  · rw [advance_eq, if_neg (shows.kind_ne_end cursor inside)]
  · rw [shows.drop_eq cursor inside]

theorem leads_advance_end {following : Token → Walk α}
    (leads : Leads tokens (following (.endAt stop)) tokens.length whole behind least) :
    Leads tokens (advance tape >>= following) tokens.length whole behind least := by
  refine .of_walk_eq (bind_of_ok ?_) leads
  rw [advance_eq, shows.at_end]
  rfl

theorem leads_consume_of_kind (inside : cursor < tokens.length) (isKind : (tape cursor).kind = kind)
    {following : Token → Walk α}
    (leads : Leads tokens (following (tape cursor)) (cursor + 1)
      (fun rest => whole (tape cursor :: rest)) behind least) :
    Leads tokens (consume tape kind >>= following) cursor whole behind least := by
  rw [consume, bind_assoc]
  refine leads_peek ?_
  rw [if_pos isKind, bind_assoc]
  exact leads_advance shows inside leads

theorem follows_consume (notEnd : kind ≠ .endOfInput) (within : cursor ≤ tokens.length) :
    Follows tokens (consume tape kind) (reader (expect stop kind)) cursor (cursor + 1) := by
  rcases Nat.eq_or_lt_of_le within with rfl | inside
  · refine leads_peek ?_
    rw [shows.at_end, if_neg (show (Token.endAt stop).kind ≠ kind from notEnd.symm)]
    exact leads_refuse (by rw [List.drop_length]; rfl)
  · by_cases isKind : (tape cursor).kind = kind
    · rw [← bind_pure (consume tape kind)]
      exact leads_consume_of_kind shows inside isKind
        (.pure (Nat.le_refl _) inside (reader_expect_of_kind stop isKind _))
    · refine leads_peek ?_
      rw [if_neg isKind]
      refine leads_refuse ?_
      rw [shows.drop_eq cursor inside, reader_expect_of_head stop (by simpa using isKind)]
      rfl

/-- Behind a loop comes the token that closed it. -/
theorem leads_closed {loop : Walk α} {δ : Type} {wrap : α → Token → β} {next : β → Reader δ}
    {behind : γ → Reader δ} {following : α → Token → Walk γ} (notEnd : kind ≠ .endOfInput)
    (leads : Leads tokens loop cursor whole (fun found => wrap found <$> reader (expect stop kind))
      least)
    (goesOn : ∀ found token place, least < place → place ≤ tokens.length →
      Leads tokens (following found token) place (next (wrap found token)) behind least') :
    Leads tokens
      (do
        let found ← loop
        let token ← consume tape kind
        following found token)
      cursor (whole >>= next) behind least' := by
  refine (leads.andThen next).bind fun found place forward within => ?_
  rw [bind_map_left]
  exact (follows_consume shows notEnd within).goOn fun token place later within =>
    goesOn found token place (by omega) within

/-- Two ways to go on, by whether the token at the cursor is of a kind. -/
theorem leads_ifNext (notEnd : kind ≠ .endOfInput) (within : cursor ≤ tokens.length)
    (whenNext : cursor < tokens.length → (tape cursor).kind = kind →
      Leads tokens taken cursor whole behind least)
    (whenNot : (∀ token ∈ (tokens.drop cursor).head?, token.kind ≠ kind) →
      Leads tokens otherwise cursor whole behind least) :
    Leads tokens (do if ← isNext tape kind then taken else otherwise) cursor whole behind
      least := by
  have looked : (do if ← isNext tape kind then taken else otherwise) cursor =
      (if (tape cursor).kind = kind then taken else otherwise) cursor := by
    change (if decide ((tape cursor).kind = kind) = true then taken else otherwise) cursor = _
    simp only [decide_eq_true_eq]
  refine .of_walk_eq looked ?_
  rcases Nat.eq_or_lt_of_le within with rfl | inside
  · rw [shows.at_end, if_neg (show (Token.endAt stop).kind ≠ kind from notEnd.symm)]
    exact whenNot (by simp)
  · split
    case isTrue isKind => exact whenNext inside isKind
    case isFalse notKind =>
      exact whenNot (by simpa [shows.drop_eq cursor inside] using notKind)

/-- Two ways to go on, by whether a token of a kind was taken. -/
theorem leads_ifTaken (notEnd : kind ≠ .endOfInput) (within : cursor ≤ tokens.length)
    {readTaken readOtherwise : Reader β}
    (whenTaken : cursor < tokens.length → Leads tokens taken (cursor + 1) readTaken behind least)
    (whenNot : Leads tokens otherwise cursor readOtherwise behind least) :
    Leads tokens (do if ← takeIf tape kind then taken else otherwise) cursor
      (ifNext kind readTaken readOtherwise) behind least := by
  -- To take a token if it comes next is to look for it, and to take it in the first branch.
  have split : (do if ← takeIf tape kind then taken else otherwise) =
      (do if ← isNext tape kind then advance tape >>= fun _ => taken else otherwise) := by
    rw [takeIf, bind_assoc]
    refine congrArg _ (funext fun found => ?_)
    cases found <;> simp
  rw [split]
  refine leads_ifNext shows notEnd within (fun inside isKind => ?_) fun notKind => ?_
  · refine leads_advance shows inside ?_
    simpa only [ifNext_of_kind isKind] using whenTaken inside
  · exact .of_whole_eq (ifNext_of_head notKind) whenNot

/-- Two ways to go on, by whether the token at the cursor is none of some kinds.  The end of the
source closes too. -/
theorem leads_ifGoesOn {closing : List TokenKind} (within : cursor ≤ tokens.length)
    (whenOpen : cursor < tokens.length → (tape cursor).kind ∉ closing →
      Leads tokens taken cursor whole behind least)
    (whenClosed : (∀ token ∈ (tokens.drop cursor).head?, token.kind ∈ closing) →
      Leads tokens otherwise cursor whole behind least) :
    Leads tokens (do if ← goesOn tape closing then taken else otherwise) cursor whole behind
      least := by
  have looked : (do if ← goesOn tape closing then taken else otherwise) cursor =
      (if (tape cursor).kind ≠ .endOfInput ∧ (tape cursor).kind ∉ closing then taken
        else otherwise) cursor := by
    change (if decide ((tape cursor).kind ≠ .endOfInput ∧ (tape cursor).kind ∉ closing) = true
      then taken else otherwise) cursor = _
    simp only [decide_eq_true_eq]
  refine .of_walk_eq looked ?_
  rcases Nat.eq_or_lt_of_le within with rfl | inside
  · rw [shows.at_end, if_neg fun isOpen => isOpen.1 rfl]
    exact whenClosed (by simp)
  · split
    case isTrue isOpen => exact whenOpen inside isOpen.2
    case isFalse isClosed =>
      have closed : (tape cursor).kind ∈ closing := Decidable.byContradiction fun isOpen =>
        isClosed ⟨shows.kind_ne_end cursor inside, isOpen⟩
      exact whenClosed (by simpa [shows.drop_eq cursor inside] using closed)

theorem follows_typeName (within : cursor ≤ tokens.length) :
    Follows tokens (typeName tape) (reader (parseType stop)) cursor (cursor + 1) := by
  refine leads_peek ?_
  rcases Nat.eq_or_lt_of_le within with rfl | inside
  · rw [shows.at_end]
    exact leads_refuse (by rw [List.drop_length]; rfl)
  · cases kind : (tape cursor).kind with
    | typeName ty =>
      exact leads_advance shows inside
        (.pure (Nat.le_refl _) inside (reader_type_of_kind stop kind _))
    | _ =>
      refine leads_refuse ?_
      rw [shows.drop_eq cursor inside, reader_type_of_head stop (by simp [kind])]
      simp [refusal, kind]

theorem follows_ident (within : cursor ≤ tokens.length) :
    Follows tokens (ident tape) (reader (parseIdent stop)) cursor (cursor + 1) := by
  rw [reader_ident]
  exact (follows_consume shows (by decide) within).give identOf

end Steps

end Walk

end TypedImp
