import TypedImp.Proofs.Grammar.Leading
import TypedImp.Proofs.Grammar.WrongToken

/-!
# Progress of the parsers

Every walk over the tokens of a source is finished with as much fuel as there are tokens left: a
walk that gives a value has taken a token for each round of its loops and each level of nesting.
-/

namespace TypedImp.Walk

open TypedImp.Parser TypedImp.Parser.Reader

variable {tokens : List Token} {tape : Nat → Token} {stop : Nat}

section Lists

variable {α β : Type}

/-- Readers of lists: `readItems` reads one item or more and the closing token, `readAll` may read
the closing token alone, and `wrap` makes up what they give. -/
structure ReadsLists (stop : Nat) (closing separator : TokenKind) (read : Reader α)
    (wrap : List α → Token → β) (readItems readAll : Reader β) : Prop where
  items_eq : ∃ cons : α → β → β,
    (∀ first following, wrap (first :: following) = cons first ∘ wrap following) ∧
    readItems = do
      let first ← read
      ifNext separator (cons first <$> readItems)
        ((fun close => wrap [first] close) <$> reader (expect stop closing))
  all_of_closing : ∀ token rest, token.kind = closing →
    readAll (token :: rest) = .ok (wrap [] token, rest)
  all_of_other : ∀ rest : List Token, (∀ token ∈ rest.head?, token.kind ≠ closing) →
    readAll rest = readItems rest

variable {closing separator : TokenKind} {item : Walk α} {read : Reader α}
  {wrap : List α → Token → β} {readItems readAll : Reader β} {fuel cursor : Nat}
  (shows : Shows tape tokens stop)
  (reads : ReadsLists stop closing separator read wrap readItems readAll)

include shows reads

theorem leads_items (notEnd : separator ≠ .endOfInput) (within : cursor ≤ tokens.length)
    (enough : tokens.length < cursor + fuel)
    (itemFollows : ∀ place, cursor ≤ place → place ≤ tokens.length →
      Follows tokens item read place (place + 1)) :
    Leads tokens (items tape separator item fuel) cursor readItems
      (fun found => wrap found <$> reader (expect stop closing)) (cursor + 1) := by
  obtain ⟨cons, wrap_cons, items_eq⟩ := reads.items_eq
  induction fuel generalizing cursor with
  | zero => omega
  | succ fuel ih =>
    rw [items, items_eq]
    refine (itemFollows cursor (Nat.le_refl cursor) within).goOn
      fun first next forward within => ?_
    refine leads_ifTaken shows notEnd within (fun inside => ?_) (.pure forward within rfl)
    -- The round has taken the item and the separator, so a round less is enough behind them.
    refine ((ih inside (by omega) fun place later =>
      itemFollows place (by omega)).map (cons first)).bind fun found last further within => ?_
    refine .pure (by omega) within ?_
    rw [wrap_cons, comp_map]

theorem leads_list (notEnd : closing ≠ .endOfInput) (notEnd' : separator ≠ .endOfInput)
    (within : cursor ≤ tokens.length) (enough : tokens.length < cursor + fuel)
    (itemFollows : ∀ place, cursor ≤ place → place ≤ tokens.length →
      Follows tokens item read place (place + 1)) :
    Leads tokens (list tape closing separator item fuel) cursor readAll
      (fun found => wrap found <$> reader (expect stop closing)) cursor := by
  refine leads_ifNext shows notEnd within (fun inside isClosing => ?_) fun notClosing => ?_
  · refine .pure (Nat.le_refl cursor) within ?_
    rw [shows.drop_eq cursor inside, reads.all_of_closing _ _ isClosing, map_apply,
      reader_expect_of_kind stop isClosing]
  · exact .of_whole_eq (reads.all_of_other _ notClosing)
      ((leads_items shows reads notEnd' within enough itemFollows).weaken (Nat.le_succ cursor))

end Lists

theorem readsLists_arguments (stop : Nat) :
    ReadsLists stop .rightParen .comma (reader (parseTier stop loosestTier)) Prod.mk
      (reader (parseArgumentList stop)) (reader (parseArguments stop)) where
  items_eq := ⟨fun first found => (first :: found.1, found.2), fun _ _ => rfl,
    reader_argumentList stop⟩
  all_of_closing token rest isClosing := by rw [reader_arguments_cons, if_pos isClosing]
  all_of_other rest notClosing := by
    cases rest with
    | nil => rw [reader_arguments_nil]
    | cons token rest => rw [reader_arguments_cons, if_neg (notClosing token rfl)]

/-- Read a parameter. -/
def readFormal (stop : Nat) : Reader Declaration := do
  let ty ← reader (parseType stop)
  let name ← reader (parseIdent stop)
  return ⟨name, ty⟩

theorem readsLists_params (stop : Nat) :
    ReadsLists stop .rightParen .comma (readFormal stop) (fun formals _ => formals)
      (reader (parseParamList stop)) (reader (parseParams stop)) where
  items_eq := by
    refine ⟨List.cons, fun _ _ => rfl, ?_⟩
    simp only [readFormal, bind_assoc, pure_bind]
    exact reader_paramList stop
  all_of_closing token rest isClosing := by rw [reader_params, ifNext_of_kind isClosing, pure_apply]
  all_of_other rest notClosing := by rw [reader_params, ifNext_of_head notClosing]

/-- Read the arguments of a call in their parentheses, and give them with the span of the call. -/
def readCall (stop : Nat) (callee : Ident) : Reader (List (Expr Unit) × Span) := do
  let _ ← reader (expect stop .leftParen)
  let found ← reader (parseArguments stop)
  return (found.1, callee.span.cover found.2.span)

section Expressions

variable {inner : Walk (Expr Unit)} {fuel cursor : Nat} (shows : Shows tape tokens stop)

include shows

/-- An expression and a token behind it. -/
theorem follows_upTo {α : Type} {kind : TokenKind} (notEnd : kind ≠ .endOfInput)
    (follows : Follows tokens inner (reader (parseTier stop loosestTier)) cursor (cursor + 1))
    (f : Expr Unit → Token → α) :
    Follows tokens
      (do
        let expr ← inner
        let close ← consume tape kind
        return f expr close)
      (upTo stop kind f) cursor (cursor + 1) :=
  follows.goOn fun expr _ forward within =>
    ((follows_consume shows notEnd within).give (f expr)).weaken (by omega)

theorem follows_operations {next : Walk (Expr Unit)} {number rounds : Nat} {lhs : Expr Unit}
    (within : cursor ≤ tokens.length) (enough : tokens.length < cursor + rounds)
    (nextFollows : ∀ place, cursor ≤ place → place ≤ tokens.length →
      Follows tokens next (reader (parseTier stop number)) place (place + 1)) :
    Follows tokens (operations tape number next rounds lhs)
      (reader (parseOperations stop number lhs)) cursor cursor := by
  induction rounds generalizing cursor lhs with
  | zero => omega
  | succ rounds ih =>
    refine leads_peek ?_
    rcases Nat.eq_or_lt_of_le within with rfl | inside
    · rw [shows.at_end]
      refine .pure (Nat.le_refl _) within ?_
      rw [List.drop_length, reader_operations_nil]
      rfl
    have whole := reader_operations_cons stop number lhs (tape cursor) (tokens.drop (cursor + 1))
    cases operator : operatorInTier? (number + 1) (tape cursor).kind with
    | none =>
      refine .pure (Nat.le_refl _) within ?_
      rw [shows.drop_eq cursor inside, whole, operator]
      rfl
    | some op =>
      refine leads_advance shows inside ?_
      simp only [reader_operations_cons, operator]
      refine (nextFollows _ (by omega) inside).goOn fun rhs place forward within => ?_
      refine Leads.weaken ?_ (ih within (by omega) fun place' later => nextFollows place' (by omega))
      omega

variable (nested : ∀ place ≤ tokens.length, tokens.length < place + fuel →
    Follows tokens inner (reader (parseTier stop loosestTier)) place (place + 1))

include nested

theorem follows_call (callee : Ident) (within : cursor ≤ tokens.length)
    (enough : tokens.length ≤ cursor + fuel) :
    Follows tokens (call tape inner fuel callee) (readCall stop callee) cursor (cursor + 1) := by
  refine (follows_consume shows (by decide) within).goOn fun _ place forward within => ?_
  refine leads_closed shows (by decide) (leads_list shows (readsLists_arguments stop) (by decide)
    (by decide) within (by omega) fun place' later within => nested place' within (by omega))
    fun arguments close place later within => ?_
  exact .pure (by omega) within rfl

/-- A call whose opening parenthesis has been seen. -/
theorem leads_call {β : Type} (callee : Ident) (inside : cursor < tokens.length)
    (opens : (tape cursor).kind = .leftParen) (enough : tokens.length ≤ cursor + fuel)
    (behind : List (Expr Unit) × Span → Reader β) (otherwise : Reader β) :
    Leads tokens (call tape inner fuel callee) cursor
      (ifNext .leftParen
        (do
          let found ← reader (parseArguments stop)
          behind (found.1, callee.span.cover found.2.span))
        otherwise)
      behind (cursor + 1) := by
  refine .of_whole_eq ?_ ((follows_call shows nested callee (Nat.le_of_lt inside)
    enough).behind_of_follows behind)
  rw [readCall, bind_assoc, shows.drop_eq cursor inside, ifNext_of_kind opens,
    bind_apply (reader (expect stop .leftParen)), reader_expect_of_kind stop opens]
  simp only [bind_assoc, pure_bind]

theorem follows_primary (within : cursor ≤ tokens.length) (enough : tokens.length ≤ cursor + fuel) :
    Follows tokens (primary tape inner fuel) (reader (parsePrimary stop)) cursor (cursor + 1) := by
  rcases Nat.eq_or_lt_of_le within with rfl | inside
  · refine leads_advance_end shows (leads_refuse ?_)
    rw [List.drop_length, reader_primary_nil]
    rfl
  refine leads_advance shows inside ?_
  simp only [reader_primary_cons]
  cases (tape cursor).literal? with
  | some outcome =>
    cases outcome with
    | ok value => exact .pure (Nat.le_refl _) inside rfl
    | error error =>
      cases error with
      | intTooLarge => exact leads_refuse rfl
  | none =>
    have follows := nested _ inside (by omega)
    cases (tape cursor).kind with
    | identifier =>
      refine leads_ifNext shows (by decide) inside (fun inside opens => ?_) fun notOpening => ?_
      · dsimp only [afterIdentifier]
        rw [map_eq_pure_bind]
        exact (leads_call shows nested (identOf (tape cursor)) inside opens (by omega)
          (fun found => pure (Expr.call (identOf (tape cursor)) found.1 found.2 found.2)) _).bind
          fun found place forward within => .pure (by omega) within rfl
      · exact .pure (Nat.le_refl _) inside (ifNext_of_head notOpening)
    | leftParen => exact (follows_upTo shows (by decide) follows _).weaken (by omega)
    | typeName ty =>
      dsimp only
      cases UnaryOperator.castTo? ty with
      | none => exact leads_refuse rfl
      | some op =>
        refine (follows_consume shows (by decide) inside).goOn fun _ next forward within => ?_
        exact (follows_upTo shows (by decide) (nested _ within (by omega)) _).weaken (by omega)
    | _ => exact leads_refuse rfl

theorem follows_operand (within : cursor ≤ tokens.length) (enough : tokens.length ≤ cursor + fuel) :
    Follows tokens (operand tape inner fuel) (reader (parseOperand stop)) cursor (cursor + 1) := by
  refine leads_peek ?_
  rcases Nat.eq_or_lt_of_le within with rfl | inside
  · rw [shows.at_end]
    refine .of_whole_eq ?_ (follows_primary shows nested within enough)
    rw [List.drop_length, reader_operand_nil]
  have next := reader_operand_cons stop (tape cursor) (tokens.drop (cursor + 1))
  cases unary : unaryOperator? (tape cursor).kind with
  | none =>
    refine .of_whole_eq ?_ (follows_primary shows nested within enough)
    rw [shows.drop_eq cursor inside, next, unary]
  | some op =>
    refine leads_advance shows inside ?_
    simp only [reader_operand_cons, unary]
    exact ((follows_primary shows nested inside (by omega)).give _).weaken (by omega)

theorem follows_tier (number : Nat) (within : cursor ≤ tokens.length)
    (enough : tokens.length ≤ cursor + fuel) :
    Follows tokens (tier tape inner fuel number) (reader (parseTier stop number)) cursor
      (cursor + 1) := by
  induction number generalizing cursor with
  | zero =>
    rw [reader_tier_zero]
    exact follows_operand shows nested within enough
  | succ number ih =>
    rw [reader_tier_succ]
    refine (ih within enough).goOn fun lhs place forward within => ?_
    exact (follows_operations shows within (by omega) fun place later within =>
      ih within (by omega)).weaken (by omega)

end Expressions

section Nesting

variable {fuel cursor : Nat} (shows : Shows tape tokens stop)

include shows

theorem follows_expr (within : cursor ≤ tokens.length) (enough : tokens.length < cursor + fuel) :
    Follows tokens (expr tape fuel) (reader (parseTier stop loosestTier)) cursor (cursor + 1) := by
  induction fuel generalizing cursor with
  | zero => omega
  | succ fuel ih =>
    -- What is nested is read behind a token at least, where the fuel that is left is enough.
    exact follows_tier shows (fun _ => ih) loosestTier within (by omega)

theorem follows_parenthesized (within : cursor ≤ tokens.length)
    (enough : tokens.length ≤ cursor + fuel) :
    Follows tokens (parenthesized tape fuel) (reader (parseTest stop)) cursor (cursor + 1) := by
  rw [reader_test]
  refine (follows_consume shows (by decide) within).goOn fun _ place forward within => ?_
  exact (follows_upTo shows (by decide) (follows_expr shows within (by omega)) _).weaken (by omega)

theorem leads_statements {statement : Walk (Stmt Unit)} (within : cursor ≤ tokens.length)
    (enough : tokens.length < cursor + fuel)
    (statementFollows : ∀ place, cursor ≤ place → place ≤ tokens.length →
      Follows tokens statement (reader (parseStatement stop)) place (place + 1)) :
    Leads tokens (statements tape .rightBrace statement fuel) cursor (reader (parseBlock stop))
      (fun body => (fun _ => body) <$> reader (expect stop .rightBrace)) cursor := by
  induction fuel generalizing cursor with
  | zero => omega
  | succ fuel ih =>
    refine leads_ifGoesOn shows within (fun inside isOpen => ?_) fun closed => ?_
    · have notClosing : (tape cursor).kind ≠ .rightBrace := by simpa using isOpen
      refine .of_whole_eq (by
        rw [shows.drop_eq cursor inside, reader_block_cons, if_neg notClosing]) ?_
      refine (statementFollows cursor (Nat.le_refl cursor) within).goOn
        fun first place forward within => ?_
      refine ((ih within (by omega) fun place later =>
        statementFollows place (by omega)).map _).bind fun body place further within => ?_
      exact .pure (by omega) within (by rw [← comp_map]; rfl)
    · refine .pure (Nat.le_refl cursor) within ?_
      cases rest : tokens.drop cursor with
      | nil =>
        rw [reader_block_nil]
        rfl
      | cons token rest =>
        have isClosing : token.kind = .rightBrace := by simpa [rest] using closed
        rw [reader_block_cons, if_pos isClosing, map_apply, reader_expect_of_kind stop isClosing]

/-- What is read behind the first name of a declaration, whose scope is extended by it. -/
def readMoreNames (stop : Nat)
    (add : Definitions Declaration → Ident → Result (Definitions Declaration))
    (scope : Definitions Declaration) : Reader (Definitions Declaration) :=
  ifNext .comma
    (do
      let next ← reader (parseIdent stop)
      reader (parseNames stop add scope next))
    ((fun _ => scope) <$> reader (expect stop .semicolon))

theorem leads_moreNames {add : Definitions Declaration → Ident → Result (Definitions Declaration)}
    {scope : Definitions Declaration} (within : cursor ≤ tokens.length)
    (enough : tokens.length < cursor + fuel) :
    Leads tokens (moreNames tape add fuel scope) cursor (readMoreNames stop add scope)
      (fun declared => (fun _ => declared) <$> reader (expect stop .semicolon)) cursor := by
  induction fuel generalizing cursor scope with
  | zero => omega
  | succ fuel ih =>
    refine leads_ifTaken shows (by decide) within (fun inside => ?_)
      (.pure (Nat.le_refl cursor) within rfl)
    refine (follows_ident shows inside).goOn fun name place forward within => ?_
    rw [reader_names]
    refine (leads_settled within (add scope name) _).bind fun extended place' later within => ?_
    exact (ih within (by omega)).weaken (by omega)

/-- The names of a declaration with the semicolon behind them. -/
theorem follows_names {α : Type} {least : Nat}
    {add : Definitions Declaration → Ident → Result (Definitions Declaration)}
    {scope : Definitions Declaration} {name : Ident} (within : cursor ≤ tokens.length)
    (enough : tokens.length < cursor + fuel) {following : Definitions Declaration → Walk α}
    {next : Definitions Declaration → Reader α}
    (goesOn : ∀ declared place, cursor < place → place ≤ tokens.length →
      Follows tokens (following declared) (next declared) place least) :
    Follows tokens
      (do
        let extended ← settled (add scope name)
        let declared ← moreNames tape add fuel extended
        let _ ← consume tape .semicolon
        following declared)
      (do
        let declared ← reader (parseNames stop add scope name)
        next declared)
      cursor least := by
  rw [reader_names, bind_assoc]
  refine (leads_settled within (add scope name) _).bind fun extended place forward within => ?_
  exact leads_closed shows (by decide) (leads_moreNames shows within (by omega))
    fun declared _ place later => goesOn declared place (by omega)

theorem follows_callOrAssignment (target : Ident) (within : cursor ≤ tokens.length)
    (enough : tokens.length ≤ cursor + fuel) :
    Follows tokens
      (do
        if ← isNext tape .leftParen then
          let (arguments, span) ← call tape (expr tape fuel) fuel target
          let _ ← consume tape .semicolon
          return .call target arguments span
        else
          let _ ← consume tape .assign
          let value ← expr tape fuel
          let _ ← consume tape .semicolon
          return .assign target value)
      (reader (parseCallOrAssignment stop target)) cursor (cursor + 1) := by
  rw [reader_callOrAssignment]
  refine leads_ifNext shows (by decide) within (fun inside opens => ?_) fun notOpening => ?_
  · exact (leads_call shows (fun _ => follows_expr shows) target inside opens enough
      (fun found => (fun _ => Stmt.call target found.1 found.2) <$>
        reader (expect stop .semicolon)) _).bind fun found place forward within =>
      ((follows_consume shows (by decide) within).give _).weaken (by omega)
  · refine .of_whole_eq (ifNext_of_head notOpening) ?_
    refine (follows_consume shows (by decide) within).goOn fun _ place forward within => ?_
    exact (follows_upTo shows (by decide) (follows_expr shows within (by omega)) _).weaken
      (by omega)

theorem follows_statement (within : cursor ≤ tokens.length)
    (enough : tokens.length < cursor + fuel) :
    Follows tokens (statement tape fuel) (reader (parseStatement stop)) cursor (cursor + 1) := by
  induction fuel generalizing cursor with
  | zero => omega
  | succ fuel ih =>
    refine leads_peek ?_
    rcases Nat.eq_or_lt_of_le within with rfl | inside
    · rw [shows.at_end]
      refine leads_refuse ?_
      rw [List.drop_length, reader_statement_nil]
      rfl
    have whole := reader_statement_cons stop (tape cursor)
    cases kind : (tape cursor).kind with
    | semicolon =>
      refine leads_advance shows inside ?_
      simp only [whole, kind]
      exact .pure (Nat.le_refl _) inside rfl
    | leftBrace =>
      refine leads_advance shows inside ?_
      simp only [whole, kind, map_eq_pure_bind]
      refine leads_closed shows (by decide) (leads_statements shows inside (by omega)
        fun place later within => ih within (by omega)) fun body _ place forward within => ?_
      exact .pure (by omega) within rfl
    | ifWord =>
      refine leads_advance shows inside ?_
      simp only [whole, kind]
      refine (follows_parenthesized shows inside (by omega)).goOn
        fun test place forward within => ?_
      refine (ih within (by omega)).goOn fun thenBranch place forward' within => ?_
      refine leads_ifTaken shows (by decide) within (fun inside => ?_) (.pure (by omega) within rfl)
      exact ((ih inside (by omega)).give _).weaken (by omega)
    | whileWord =>
      refine leads_advance shows inside ?_
      simp only [whole, kind]
      refine (follows_parenthesized shows inside (by omega)).goOn
        fun test place forward within => ?_
      exact ((ih within (by omega)).give _).weaken (by omega)
    | returnWord =>
      refine leads_advance shows inside ?_
      simp only [whole, kind, reader_givenBack]
      exact (follows_upTo shows (by decide) (follows_expr shows inside (by omega)) _).weaken
        (by omega)
    | identifier =>
      -- The walk takes the identifier by its kind once more, which cannot fail here.
      simp only [ident, bind_assoc, pure_bind]
      refine leads_consume_of_kind shows inside kind ?_
      simp only [whole, kind]
      exact (follows_callOrAssignment shows _ inside (by omega)).weaken (by omega)
    | _ =>
      refine leads_refuse ?_
      rw [shows.drop_eq cursor inside, whole, kind]

theorem follows_locals {params scope : Definitions Declaration} (within : cursor ≤ tokens.length)
    (enough : tokens.length < cursor + fuel) :
    Follows tokens (locals tape params fuel scope) (reader (parseLocals stop params scope)) cursor
      cursor := by
  induction fuel generalizing cursor scope with
  | zero => omega
  | succ fuel ih =>
    refine leads_peek ?_
    rcases Nat.eq_or_lt_of_le within with rfl | inside
    · rw [shows.at_end]
      refine .pure (Nat.le_refl _) within ?_
      rw [List.drop_length, reader_locals_nil]
      rfl
    have whole := reader_locals_cons stop params scope (tape cursor)
    cases kind : (tape cursor).kind with
    | typeName ty =>
      have withType : reader (parseLocals stop params scope) (tokens.drop cursor) =
          (do
            let ty ← reader (parseType stop)
            let name ← reader (parseIdent stop)
            let extended ← reader (parseNames stop
              (fun scope name => declareLocal params scope name ty) scope name)
            reader (parseLocals stop params extended)) (tokens.drop cursor) := by
        rw [shows.drop_eq cursor inside, whole, kind, bind_apply, reader_type_of_kind stop kind]
      refine .of_whole_eq withType ?_
      refine (follows_typeName shows within).goOn fun ty place forward within => ?_
      refine (follows_ident shows within).goOn fun name place forward' within => ?_
      exact follows_names shows within (by omega) fun declared place later within =>
        (ih within (by omega)).weaken (by omega)
    | _ =>
      refine .pure (Nat.le_refl _) within ?_
      rw [shows.drop_eq cursor inside, whole, kind]
      rfl

theorem follows_formal (within : cursor ≤ tokens.length) :
    Follows tokens (formal tape) (readFormal stop) cursor (cursor + 1) := by
  refine (follows_typeName shows within).goOn fun ty place forward within => ?_
  refine (follows_ident shows within).goOn fun name place forward' within => ?_
  exact .pure (by omega) within rfl

theorem follows_function (returnTy : Ty) (name : Ident) (within : cursor ≤ tokens.length)
    (enough : tokens.length ≤ cursor + fuel) :
    Follows tokens (function tape fuel returnTy name) (reader (parseFunction stop returnTy name))
      cursor (cursor + 1) := by
  rw [reader_function]
  refine (follows_consume shows (by decide) within).goOn fun _ place forward within => ?_
  refine leads_closed shows (by decide) (leads_list shows (readsLists_params stop) (by decide)
    (by decide) within (by omega) fun _ _ => follows_formal shows)
    fun formals _ place further within => ?_
  refine (leads_settled within (declareParams formals) _).bind fun params place later within => ?_
  rw [bodyStart, bind_assoc]
  refine (follows_consume shows (by decide) within).goOn fun _ place further' within => ?_
  refine (follows_locals shows within (by omega)).goOn fun declared place later' within => ?_
  rw [map_eq_pure_bind]
  refine leads_closed shows (by decide) (leads_statements shows within (by omega)
    fun place' latest within => follows_statement shows within (by omega))
    fun body _ place last within => ?_
  exact .pure (by omega) within rfl

theorem follows_definitions {program : Program Unit} (within : cursor ≤ tokens.length)
    (enough : tokens.length < cursor + fuel) :
    Follows tokens (definitions tape fuel program) (Parser.definitions stop program) cursor
      tokens.length := by
  induction fuel generalizing cursor program with
  | zero => omega
  | succ fuel ih =>
    refine leads_ifGoesOn shows within (fun inside _ => ?_) fun ended => ?_
    · have first : Parser.definitions stop program (tokens.drop cursor) =
          (do
            let ty ← reader (parseType stop)
            let name ← reader (parseIdent stop)
            afterFirstName stop program ty name) (tokens.drop cursor) := by
        rw [shows.drop_eq cursor inside, definitions_cons]
      refine .of_whole_eq first ?_
      refine (follows_typeName shows within).goOn fun ty place forward within => ?_
      refine (follows_ident shows within).goOn fun name place forward' within => ?_
      refine leads_ifNext shows (by decide) within (fun inside opens => ?_) fun notOpening => ?_
      · -- The walk sees the parenthesis here and takes it in the function, the reader takes it here.
        have isFunction : afterFirstName stop program ty name (tokens.drop place) =
            (do
              let function ← reader (parseFunction stop ty name)
              let extended ← Reader.settled (addFunction program name function)
              Parser.definitions stop extended) (tokens.drop place) := by
          rw [afterFirstName, reader_function, bind_assoc, shows.drop_eq place inside,
            ifNext_of_kind opens, bind_apply (reader (expect stop .leftParen)),
            reader_expect_of_kind stop opens]
        refine .of_whole_eq isFunction ?_
        refine (follows_function shows ty name within (by omega)).goOn
          fun function place further within => ?_
        refine (leads_settled within _ _).bind fun extended place later within => ?_
        exact ih within (by omega)
      · refine .of_whole_eq (ifNext_of_head notOpening) ?_
        exact follows_names shows within (by omega) fun globals place later within =>
          ih within (by omega)
    · rcases Nat.eq_or_lt_of_le within with rfl | inside
      · refine .pure (Nat.le_refl _) within ?_
        rw [List.drop_length, definitions_nil]
        rfl
      · exact absurd (ended (tape cursor) (by simp [shows.drop_eq cursor inside])) (by simp)

theorem follows_program (within : cursor ≤ tokens.length)
    (enough : tokens.length < cursor + fuel) :
    Follows tokens (program tape fuel) (Parser.definitions stop .empty) cursor tokens.length := by
  refine (follows_definitions shows within enough).bind fun whole place atLeast within => ?_
  obtain rfl := Nat.le_antisymm within atLeast
  rw [consume, bind_assoc]
  refine leads_peek ?_
  rw [shows.at_end, if_pos (show (Token.endAt stop).kind = .endOfInput from rfl), bind_assoc]
  refine leads_advance_end shows ?_
  exact .pure (Nat.le_refl _) within rfl

end Nesting

/-- The tokens of a source as a tape. -/
def tapeOf (all : List Token) (stop : Nat) : Nat → Token :=
  fun cursor => all.getD cursor (.endAt stop)

theorem shows_tapeOf {lexed : Lexed} {stop : Nat} (ending : lexed.ending = .ok stop)
    (unended : Unended lexed.tokens) : Shows (tapeOf lexed.all stop) lexed.tokens stop := by
  have here (cursor : Nat) (inside : cursor < lexed.tokens.length) :
      tapeOf lexed.all stop cursor = lexed.tokens[cursor] := by
    simp [tapeOf, Lexed.all_of_ending ending, List.getElem?_append_left inside, inside]
  refine ⟨fun cursor inside => ?_, fun cursor inside => ?_, ?_⟩
  · rw [here cursor inside]
    exact List.drop_eq_getElem_cons inside
  · rw [here cursor inside]
    exact unended _ (List.getElem_mem inside)
  · simp [tapeOf, Lexed.all_of_ending ending]

/-- What the walks from a cursor on do with some fuel.  Each of them is finished and does what the
parser of the same name does on the tokens from there on.  Where it gives a value it has moved the
cursor: past a token or more, or in the case of a loop, which may have no rounds, not backwards. -/
structure Progress (tape : Nat → Token) (tokens : List Token) (stop fuel cursor : Nat) : Prop where
  typeName : Follows tokens (typeName tape) (reader (parseType stop)) cursor (cursor + 1)
  primary : Follows tokens (primary tape (expr tape fuel) fuel) (reader (parsePrimary stop)) cursor
    (cursor + 1)
  tier : ∀ number, Follows tokens (tier tape (expr tape fuel) fuel number)
    (reader (parseTier stop number)) cursor (cursor + 1)
  expr : Follows tokens (expr tape fuel) (reader (parseExpr stop)) cursor (cursor + 1)
  call : ∀ callee, Follows tokens (call tape (Walk.expr tape fuel) fuel callee)
    (readCall stop callee) cursor (cursor + 1)
  statement : Follows tokens (statement tape fuel) (reader (parseStatement stop)) cursor
    (cursor + 1)
  function : ∀ returnTy name, Follows tokens (function tape fuel returnTy name)
    (reader (parseFunction stop returnTy name)) cursor (cursor + 1)
  operations : ∀ number lhs, Follows tokens
    (operations tape number (Walk.tier tape (Walk.expr tape fuel) fuel number) fuel lhs)
    (reader (parseOperations stop number lhs)) cursor cursor
  arguments : Leads tokens (list tape .rightParen .comma (Walk.expr tape fuel) fuel) cursor
    (reader (parseArguments stop))
    (fun arguments => Prod.mk arguments <$> reader (expect stop .rightParen)) cursor
  params : Leads tokens (list tape .rightParen .comma (formal tape) fuel) cursor
    (reader (parseParams stop))
    (fun formals => (fun _ => formals) <$> reader (expect stop .rightParen)) cursor
  statements : Leads tokens (statements tape .rightBrace (Walk.statement tape fuel) fuel) cursor
    (reader (parseBlock stop))
    (fun body => (fun _ => body) <$> reader (expect stop .rightBrace)) cursor
  definitions : ∀ program, Follows tokens (definitions tape fuel program)
    (Parser.definitions stop program) cursor tokens.length
  program : Follows tokens (program tape fuel) (Parser.definitions stop .empty) cursor tokens.length

/-- From every place in a source, fuel for the tokens that are left is enough for every walk. -/
theorem parsers_progress {source : String} {stop : Nat}
    (ending : (Lexed.ofSource source).ending = .ok stop) (cursor fuel : Nat)
    (within : cursor ≤ (Lexed.ofSource source).tokens.length)
    (enough : (Lexed.ofSource source).tokens.length < cursor + fuel) :
    Progress (tapeOf (Lexed.ofSource source).all stop) (Lexed.ofSource source).tokens stop fuel
      cursor := by
  have shows := shows_tapeOf ending (unended_ofScanner (.ofSource source))
  have nested : ∀ place ≤ (Lexed.ofSource source).tokens.length,
      (Lexed.ofSource source).tokens.length < place + fuel →
      Follows (Lexed.ofSource source).tokens (expr (tapeOf (Lexed.ofSource source).all stop) fuel)
        (reader (parseTier stop loosestTier)) place (place + 1) := fun _ => follows_expr shows
  exact {
    typeName := follows_typeName shows within
    primary := follows_primary shows nested within (by omega)
    tier := fun number => follows_tier shows nested number within (by omega)
    expr := nested cursor within enough
    call := fun callee => follows_call shows nested callee within (by omega)
    statement := follows_statement shows within enough
    function := fun returnTy name => follows_function shows returnTy name within (by omega)
    operations := fun number lhs => follows_operations shows within enough fun place later within =>
      follows_tier shows nested number within (by omega)
    arguments := leads_list shows (readsLists_arguments stop) (by decide) (by decide) within enough
      fun place later within => nested place within (by omega)
    params := leads_list shows (readsLists_params stop) (by decide) (by decide) within enough
      fun _ _ => follows_formal shows
    statements := leads_statements shows within enough fun place later within =>
      follows_statement shows within (by omega)
    definitions := fun _ => follows_definitions shows within enough
    program := follows_program shows within enough }

/-- An expression that the end of the source cuts off is refused with any fuel from six on, and the
literal in it moves the cursor by one. -/
theorem parsers_progress_of_truncated :
    let source := "x = (1 +"
    let tape := tapeOf (Lexed.ofSource source).all 8
    (Lexed.ofSource source).ending = .ok 8 ∧ (Lexed.ofSource source).tokens.length = 5 ∧
      (∀ fuel, 5 < fuel → ∃ error, statement tape fuel 0 = some (.error error) ∧
        error.content = .unexpectedInExpression .endOfInput) ∧
      ∃ value, primary tape (expr tape 3) 3 3 = some (.ok (value, 4)) := by
  intro source tape
  have ending : (Lexed.ofSource source).ending = .ok 8 := by
    have scanned : (Lexed.ofSource source).ending.toOption = some 8 := by decide +kernel
    cases found : (Lexed.ofSource source).ending with
    | error error =>
      rw [found] at scanned
      cases scanned
    | ok stop =>
      rw [found] at scanned
      exact congrArg Except.ok (Option.some.inj scanned)
  have length : (Lexed.ofSource source).tokens.length = 5 := by decide +kernel
  refine ⟨ending, length, fun fuel enough => ?_, ?_⟩
  · have checked : (match reader (parseStatement 8) (Lexed.ofSource source).tokens with
        | .error found => decide (found.content = .unexpectedInExpression .endOfInput)
        | .ok _ => false) = true := by
      decide +kernel
    cases (parsers_progress ending 0 fuel (Nat.zero_le _) (by omega)).statement with
    | fails walked refused =>
      rw [List.drop_zero] at refused
      rw [refused] at checked
      exact ⟨_, walked, of_decide_eq_true checked⟩
    | moves walked forward within continued =>
      rw [List.drop_zero] at continued
      rw [continued] at checked
      cases checked
  · have checked : (match reader (parsePrimary 8) ((Lexed.ofSource source).tokens.drop 3) with
        | .error _ => false
        | .ok found => decide (found.2.length = 1)) = true := by
      decide +kernel
    cases (parsers_progress ending 3 3 (by omega) (by omega)).primary with
    | fails walked refused =>
      rw [refused] at checked
      cases checked
    | @moves value next walked forward within continued =>
      rw [continued] at checked
      have left : ((Lexed.ofSource source).tokens.drop next).length = 1 := of_decide_eq_true checked
      rw [List.length_drop, length] at left
      obtain rfl : next = 4 := by omega
      exact ⟨value, walked⟩

end TypedImp.Walk
