import TypedImp.Proofs.Grammar.ProgramPrediction

/-!
# Sentences are not refused

A reader that stands in front of what a rule of the grammar writes goes over it.  It can fail on
the way for a repeated name, a variable without a type or a literal that is too large, but it
refuses no token.
-/

namespace TypedImp.Grammar

open TypedImp.Parser

variable {α β : Type}

/-- A reader goes over the tokens in front of others, or fails without refusing a token. -/
structure Passes (read : Reader α) (tokens rest : List Token) : Prop where
  reads : ∀ value behind, read tokens = .ok (value, behind) → behind = rest
  fails : ∀ error, read tokens = .error error → error.content.isRefusal = false

section Rules

variable {read read' : Reader α} {tokens tokens' rest : List Token}

theorem Passes.congr (passes : Passes read' tokens' rest) (same : read tokens = read' tokens') :
    Passes read tokens rest := by
  constructor
  · rw [same]
    exact passes.reads
  · rw [same]
    exact passes.fails

theorem passes_of_ok {value : α} (done : read tokens = .ok (value, rest)) :
    Passes read tokens rest := by
  constructor
  · intro _ _ found
    rw [done] at found
    cases found
    rfl
  · intro _ failed
    rw [done] at failed
    cases failed

theorem passes_of_error {error : Spanned SyntaxError} (failed : read tokens = .error error)
    (isOther : error.content.isRefusal = false) : Passes read tokens rest := by
  constructor
  · intro _ _ done
    rw [failed] at done
    cases done
  · intro _ found
    rw [failed] at found
    cases found
    exact isOther

theorem Passes.map (passes : Passes read tokens rest) (f : α → β) :
    Passes (f <$> read) tokens rest := by
  cases done : read tokens with
  | error error =>
    exact passes_of_error (by rw [Reader.map_apply, done]) (passes.fails error done)
  | ok result =>
    obtain ⟨value, behind⟩ := result
    obtain rfl := passes.reads value behind done
    exact passes_of_ok (by rw [Reader.map_apply, done])

theorem Passes.bind {following : α → Reader β} {middle : List Token}
    (passes : Passes read tokens middle) (next : ∀ value, Passes (following value) middle rest) :
    Passes (read >>= following) tokens rest := by
  cases done : read tokens with
  | error error =>
    exact passes_of_error (by rw [Reader.bind_apply, done]) (passes.fails error done)
  | ok result =>
    obtain ⟨value, behind⟩ := result
    obtain rfl := passes.reads value behind done
    exact (next value).congr (by rw [Reader.bind_apply, done])

theorem passes_settled {outcome : Except (Spanned SyntaxError) α}
    (isOther : ∀ error, outcome = .error error → error.content.isRefusal = false) :
    Passes (.settled outcome) tokens tokens := by
  cases outcome with
  | ok value => exact passes_of_ok rfl
  | error error => exact passes_of_error rfl (isOther error rfl)

theorem passes_ifNext_of_kind {kind : TokenKind} {taken otherwise : Reader α} {token : Token}
    {behind : List Token} (isKind : token.kind = kind) (passes : Passes taken behind rest) :
    Passes (.ifNext kind taken otherwise) (token :: behind) rest :=
  passes.congr (Reader.ifNext_of_kind isKind behind)

theorem passes_ifNext_of_head {kind : TokenKind} {taken otherwise : Reader α}
    (notKind : ∀ token ∈ tokens.head?, token.kind ≠ kind) (passes : Passes otherwise tokens rest) :
    Passes (.ifNext kind taken otherwise) tokens rest :=
  passes.congr (Reader.ifNext_of_head notKind)

/-- Another token than the expected one comes next. -/
theorem head_ne {token : Token} {kind : TokenKind} (notKind : token.kind ≠ kind)
    (rest : List Token) : ∀ first ∈ (token :: rest).head?, first.kind ≠ kind := by
  intro first isFirst
  cases isFirst
  exact notKind

variable (stop : Nat)

theorem passes_expect {kind : TokenKind} {token : Token} (isKind : token.kind = kind)
    (rest : List Token) : Passes (reader (expect stop kind)) (token :: rest) rest :=
  passes_of_ok (reader_expect_of_kind stop isKind rest)

theorem passes_ident {token : Token} (isName : token.kind = .identifier) (rest : List Token) :
    Passes (reader (parseIdent stop)) (token :: rest) rest := by
  rw [reader_ident]
  exact (passes_expect stop isName rest).map identOf

theorem passes_type {token : Token} {ty : Ty} (isType : token.kind = .typeName ty)
    (rest : List Token) : Passes (reader (parseType stop)) (token :: rest) rest :=
  passes_of_ok (reader_type_of_kind stop isType rest)

theorem passes_upTo {close : Token} {kind : TokenKind} {f : Expr Unit → Token → α}
    (expression : Passes (reader (parseTier stop loosestTier)) tokens (close :: rest))
    (closes : close.kind = kind) : Passes (upTo stop kind f) tokens rest :=
  expression.bind fun expr => (passes_expect stop closes rest).map (f expr)

end Rules

section Expressions

variable (stop : Nat)

theorem exists_literal?_of_literal {token : Token} {value : Value}
    (isLiteral : Literal token value) : ∃ outcome, token.literal? = some outcome := by
  cases isLiteral with
  | int kind | float kind | char kind | true kind | false kind =>
    exact ⟨_, by rw [Token.literal?, kind]⟩

theorem passes_literal {token : Token} {value : Value} (isLiteral : Literal token value)
    (rest : List Token) : Passes (reader (parsePrimary stop)) (token :: rest) rest := by
  have step := reader_primary_cons stop token rest
  obtain ⟨outcome, found⟩ := exists_literal?_of_literal isLiteral
  simp only [found] at step
  cases outcome with
  | ok value => exact passes_of_ok step
  | error error =>
    cases error with
    | intTooLarge => exact passes_of_error step rfl

/-- No operator of the tier comes next. -/
theorem passes_operations_of_ends {tier inner : Tier} (isOperand : tier.operand? = some inner)
    {rest : List Token} (ends : Ends tier rest) (lhs : Expr Unit) :
    Passes (reader (parseOperations stop inner.level lhs)) rest rest := by
  cases rest with
  | nil => exact passes_of_ok (reader_operations_nil stop inner.level lhs)
  | cons token behind =>
    have step := reader_operations_cons stop inner.level lhs token behind
    cases sign : operatorInTier? (inner.level + 1) token.kind with
    | none =>
      simp only [sign] at step
      exact passes_of_ok step
    | some op =>
      obtain ⟨written, inTier⟩ := Option.filter_eq_some_iff.mp sign
      have looser := (ends token rfl).2 op written
      have level := level_of_operand? isOperand
      simp only [decide_eq_true_eq] at inTier
      omega

/-- A token of a kind that neither opens a call nor writes an operator ends an expression. -/
theorem ends_of_isKind {tier : Tier} {token : Token} {kind : TokenKind} (isKind : token.kind = kind)
    (noCall : kind ≠ .leftParen) (noOperator : binaryOperator? kind = none) (rest : List Token) :
    Ends tier (token :: rest) :=
  ends_of_kind (isKind ▸ noCall) (isKind ▸ noOperator)

theorem head_of_argumentList {tokens : List Token} {arguments : List (Expr Unit)}
    (listed : ArgumentList tokens arguments) :
    ∃ token others, tokens = token :: others ∧ token.kind ≠ .rightParen := by
  cases listed with
  | last first => exact head_of_expression first
  | more first _ _ =>
    obtain ⟨token, others, rfl, notClosing⟩ := head_of_expression first
    exact ⟨token, _, rfl, notClosing⟩

mutual

theorem passes_of_expression {tier : Tier} {tokens : List Token} {expr : Expr Unit}
    (derived : Expression tier tokens expr) (rest : List Token) (ends : Ends tier rest) :
    Passes (reader (parseTier stop tier.level)) (tokens ++ rest) rest := by
  match derived with
  | .chain isOperand operand operations =>
    rw [level_of_operand? isOperand, reader_tier_succ, List.append_assoc]
    exact (passes_of_expression operand _ (ends_of_operations isOperand operations ends)).bind
      (passes_of_operations isOperand operations rest ends)
  | .primary plain =>
    have primary := passes_of_primary plain rest fun token isFirst => (ends token isFirst).1
    obtain ⟨token, others, rfl, noSign, _⟩ := head_of_primary plain
    refine primary.congr ?_
    rw [Tier.level, reader_tier_zero, List.cons_append, reader_operand_cons, noSign]
  | @Expression.signed sign op tokens operand isSign plain =>
    have primary := passes_of_primary plain rest fun token isFirst => (ends token isFirst).1
    refine (primary.map fun operand =>
      .unary op () operand (sign.span.cover operand.span)).congr ?_
    rw [Tier.level, reader_tier_zero, List.cons_append, reader_operand_cons, sign_iff.mp isSign]

theorem passes_of_operations {tier inner : Tier} {lhs expr : Expr Unit} {tokens : List Token}
    (isOperand : tier.operand? = some inner) (derived : Operations tier lhs tokens expr)
    (rest : List Token) (ends : Ends tier rest) (left : Expr Unit) :
    Passes (reader (parseOperations stop inner.level left)) (tokens ++ rest) rest := by
  match derived with
  | .none => exact passes_operations_of_ends stop isOperand ends left
  | @Operations.more _ _ _ _ _ sign op _ others isOperand' isOperator operand following =>
    have rhs := passes_of_expression operand (others ++ rest)
      (ends_of_operations isOperand' following ends)
    have final := passes_of_operations isOperand' following rest ends
    cases isOperand.symm.trans isOperand'
    have found := operator_iff.mp isOperator
    rw [level_of_operand? isOperand] at found
    refine (rhs.bind fun rhs =>
      final (.binary op () left rhs (left.span.cover rhs.span))).congr ?_
    rw [List.cons_append, List.append_assoc, reader_operations_cons, found]

theorem passes_of_primary {tokens : List Token} {expr : Expr Unit}
    (derived : Primary tokens expr) (rest : List Token)
    (noCall : ∀ token ∈ rest.head?, token.kind ≠ .leftParen) :
    Passes (reader (parsePrimary stop)) (tokens ++ rest) rest := by
  match derived with
  | @Primary.var name isName =>
    have step := reader_primary_cons stop name rest
    simp only [show name.literal? = none by simp [Token.literal?, isName], isName] at step
    exact (passes_ifNext_of_head noCall (passes_of_ok rfl)).congr step
  | .literal isLiteral => exact passes_literal stop isLiteral rest
  | @Primary.call name opening closing inner _ isName opens between closes =>
    have step := reader_primary_cons stop name (opening :: (inner ++ closing :: rest))
    simp only [show name.literal? = none by simp [Token.literal?, isName], isName] at step
    rw [List.cons_append, List.cons_append, List.append_assoc, List.singleton_append]
    exact (passes_ifNext_of_kind opens
      ((passes_of_arguments between rest closes).map _)).congr step
  | @Primary.group opening closing inner _ opens between closes =>
    have step := reader_primary_cons stop opening (inner ++ closing :: rest)
    simp only [show opening.literal? = none by simp [Token.literal?, opens], opens] at step
    have expression := passes_of_expression between (closing :: rest)
      (ends_of_isKind closes nofun rfl rest)
    rw [List.cons_append, List.append_assoc, List.singleton_append]
    exact (passes_upTo stop expression closes).congr step
  | @Primary.cast word opening closing op inner _ isCast opens between closes =>
    obtain ⟨ty, isType⟩ : ∃ ty, word.kind = .typeName ty := by
      generalize word.kind = kind at isCast
      cases isCast <;> exact ⟨_, rfl⟩
    have step := reader_primary_cons stop word (opening :: (inner ++ closing :: rest))
    simp only [show word.literal? = none by simp [Token.literal?, isType], isType,
      castWord_iff.mp (isType ▸ isCast)] at step
    have expression := passes_of_expression between (closing :: rest)
      (ends_of_isKind closes nofun rfl rest)
    rw [List.cons_append, List.cons_append, List.append_assoc, List.singleton_append]
    exact ((passes_expect stop opens _).bind fun _ => passes_upTo stop expression closes).congr step

theorem passes_of_arguments {tokens : List Token} {arguments : List (Expr Unit)}
    (derived : Arguments tokens arguments) (rest : List Token) {close : Token}
    (closes : close.kind = .rightParen) :
    Passes (reader (parseArguments stop)) (tokens ++ close :: rest) rest := by
  match derived with
  | .none =>
    have step := reader_arguments_cons stop close rest
    rw [if_pos closes] at step
    exact passes_of_ok step
  | .some listed =>
    have list := passes_of_argumentList listed rest closes
    obtain ⟨token, others, rfl, notClosing⟩ := head_of_argumentList listed
    refine list.congr ?_
    rw [List.cons_append, reader_arguments_cons, if_neg notClosing]

theorem passes_of_argumentList {tokens : List Token} {arguments : List (Expr Unit)}
    (derived : ArgumentList tokens arguments) (rest : List Token) {close : Token}
    (closes : close.kind = .rightParen) :
    Passes (reader (parseArgumentList stop)) (tokens ++ close :: rest) rest := by
  rw [reader_argumentList]
  match derived with
  | .last first =>
    refine (passes_of_expression first (close :: rest)
      (ends_of_isKind closes nofun rfl rest)).bind fun _ => ?_
    exact passes_ifNext_of_head (head_ne (by simp [closes]) rest)
      ((passes_expect stop closes rest).map _)
  | @ArgumentList.more _ others comma _ _ first separates following =>
    rw [List.append_assoc]
    refine (passes_of_expression first (comma :: (others ++ close :: rest))
      (ends_of_isKind separates nofun rfl _)).bind fun _ => ?_
    exact passes_ifNext_of_kind separates ((passes_of_argumentList following rest closes).map _)

end

end Expressions

end TypedImp.Grammar
