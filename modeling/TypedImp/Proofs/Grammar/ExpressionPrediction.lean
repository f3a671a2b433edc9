import TypedImp.Proofs.Grammar.ExpressionReading
import TypedImp.Proofs.Grammar.Prediction

/-!
# Prediction of expressions

The readers of expressions follow the rules of the grammar.  The induction is on the number of
tokens; of the readers that call each other on the same tokens each one is treated behind those
that it calls.
-/

namespace TypedImp.Grammar

open TypedImp.Parser

/-- An expression of a tier. -/
def IsExpression (tier : Tier) (tokens : List Token) : Prop :=
  ∃ expr, Expression tier tokens expr

/-- The rest of an expression of a tier, whatever stands before it. -/
def AreOperations (tier : Tier) (tokens : List Token) : Prop :=
  ∀ lhs, ∃ expr, Operations tier lhs tokens expr

/-- A primary expression. -/
def IsPrimary (tokens : List Token) : Prop :=
  ∃ expr, Primary tokens expr

/-- The arguments of a call. -/
def AreArguments (tokens : List Token) : Prop :=
  ∃ arguments, Arguments tokens arguments

/-- One argument or more. -/
def IsArgumentList (tokens : List Token) : Prop :=
  ∃ arguments, ArgumentList tokens arguments

section Words

theorem exists_isPrimary : ∃ tokens, IsPrimary tokens :=
  ⟨[⟨.trueWord, default, ""⟩], _, .literal (.true rfl)⟩

theorem areOperations_nil (tier : Tier) : AreOperations tier [] :=
  fun lhs => ⟨lhs, .none⟩

theorem IsExpression.chain {tier inner : Tier} {first others : List Token}
    (isOperand : tier.operand? = some inner) (operand : IsExpression inner first)
    (operations : AreOperations tier others) : IsExpression tier (first ++ others) := by
  obtain ⟨lhs, operand⟩ := operand
  obtain ⟨expr, operations⟩ := operations lhs
  exact ⟨expr, .chain isOperand operand operations⟩

theorem exists_operand_of_level {tier : Tier} {level : Nat} (isLevel : tier.level = level + 1) :
    ∃ inner, tier.operand? = some inner ∧ inner.level = level := by
  cases tier with
  | factor => cases isLevel
  | _ => exact ⟨_, rfl, Nat.succ.inj isLevel⟩

theorem eq_factor_of_level {tier : Tier} (isLevel : tier.level = 0) : tier = .factor := by
  cases tier <;> first | rfl | cases isLevel

theorem exists_isExpression (tier : Tier) : ∃ tokens, IsExpression tier tokens := by
  induction level : tier.level generalizing tier with
  | zero =>
    obtain rfl := eq_factor_of_level level
    obtain ⟨tokens, expr, primary⟩ := exists_isPrimary
    exact ⟨tokens, expr, .primary primary⟩
  | succ level ih =>
    obtain ⟨inner, isOperand, innerLevel⟩ := exists_operand_of_level level
    obtain ⟨tokens, operand⟩ := ih inner innerLevel
    exact ⟨_, operand.chain isOperand (areOperations_nil tier)⟩

end Words

/-- On some tokens the readers of expressions follow the rules of the grammar. -/
structure PredictsExpressions (stop : Nat) (tokens : List Token) : Prop where
  primary : Predicts stop IsPrimary (fun stop => reader (parsePrimary stop)) tokens
  tier (tier : Tier) :
    Predicts stop (IsExpression tier) (fun stop => reader (parseTier stop tier.level)) tokens
  operations {tier inner : Tier} (isOperand : tier.operand? = some inner) (lhs : Expr Unit) :
    Predicts stop (AreOperations tier)
      (fun stop => reader (parseOperations stop inner.level lhs)) tokens
  argumentList : Predicts stop (UpTo .rightParen IsArgumentList)
    (fun stop => reader (parseArgumentList stop)) tokens
  arguments : Predicts stop (UpTo .rightParen AreArguments)
    (fun stop => reader (parseArguments stop)) tokens

section Induction

variable {α : Type} {stop : Nat} {tokens : List Token}

theorem predicts_upTo
    (tier : Predicts stop (IsExpression .expression)
      (fun stop => reader (parseTier stop loosestTier)) tokens)
    (kind : TokenKind) (f : Expr Unit → Token → α) :
    Predicts stop (UpTo kind (IsExpression .expression)) (fun stop => upTo stop kind f) tokens := by
  unfold upTo
  exact tier.bind (IsToken kind) (fun expr rest _ => (predicts_expect kind rest).map (f expr))
    ⟨_, isToken_mk kind⟩ fun _ _ => upTo_append

theorem predicts_afterIdentifier {name : Token} (isName : name.kind = .identifier)
    (ih : ∀ shorter : List Token, shorter.length < tokens.length →
      PredictsExpressions stop shorter) :
    Predicts stop (fun taken => IsPrimary (name :: taken))
      (fun stop => afterIdentifier stop name) tokens := by
  unfold afterIdentifier
  refine Predicts.ifNext .leftParen (UpTo .rightParen AreArguments)
    (fun opening rest split _ => ?_)
    (fun _ => predicts_pure _ ⟨_, .var isName⟩) ?_
  · exact ((ih rest (by simp [split])).arguments).map _
  · rintro opening _ opens ⟨front, close, rfl, ⟨arguments, between⟩, closes⟩
    exact ⟨_, .call isName opens between closes⟩

/-- An expression in parentheses. -/
def IsParenthesized : List Token → Prop :=
  Behind .leftParen (UpTo .rightParen (IsExpression .expression))

theorem predicts_parenthesized
    (ih : ∀ shorter : List Token, shorter.length < tokens.length →
      PredictsExpressions stop shorter) (f : Expr Unit → Token → α) :
    Predicts stop IsParenthesized
      (fun stop => do
        let _ ← reader (expect stop .leftParen)
        upTo stop .rightParen f) tokens := by
  refine (predicts_expect .leftParen tokens).bind (UpTo .rightParen (IsExpression .expression))
    (fun opening rest opened => ?_)
    (exists_upTo .rightParen (exists_isExpression .expression)) fun _ _ => behind_append
  have shorter : rest.length < tokens.length := length_lt_of_reader opened
  exact predicts_upTo ((ih rest shorter).tier .expression) .rightParen f

theorem predicts_primary
    (ih : ∀ shorter : List Token, shorter.length < tokens.length →
      PredictsExpressions stop shorter) :
    Predicts stop IsPrimary (fun stop => reader (parsePrimary stop)) tokens := by
  cases tokens with
  | nil => exact (predicts_refusal _ exists_isPrimary).congr_nil reader_primary_nil
  | cons token rest =>
    have step := fun stop' => reader_primary_cons stop' token
    cases literal : token.literal? with
    | some outcome =>
      simp only [literal] at step
      cases outcome with
      | ok value =>
        exact predicts_single step ⟨_, .literal (literal?_eq_ok_iff.mp literal).1⟩
      | error error =>
        cases error with
        | intTooLarge => exact predicts_failure (step stop rest) rfl
    | none =>
      simp only [literal] at step
      cases kind : token.kind with
      | identifier =>
        simp only [kind] at step
        exact (predicts_afterIdentifier kind fun shorter less =>
          ih shorter (Nat.lt_succ_of_lt less)).behind step fun _ => id
      | leftParen =>
        simp only [kind] at step
        have tier := (ih rest (Nat.lt_succ_self _)).tier .expression
        refine (predicts_upTo tier .rightParen _).behind step ?_
        rintro _ ⟨front, close, rfl, ⟨expr, between⟩, closes⟩
        exact ⟨expr, .group kind between closes⟩
      | typeName ty =>
        simp only [kind] at step
        cases cast : UnaryOperator.castTo? ty with
        | none =>
          simp only [cast] at step
          exact (predicts_refusal _ exists_isPrimary).congr_cons step
        | some op =>
          simp only [cast] at step
          have ihRest (shorter : List Token) (less : shorter.length < rest.length) :
              PredictsExpressions stop shorter := ih shorter (Nat.lt_succ_of_lt less)
          refine (predicts_parenthesized ihRest _).behind step ?_
          rintro _ ⟨opening, _, rfl, opens, front, close, rfl, ⟨operand, between⟩, closes⟩
          exact ⟨_, .cast (kind ▸ castWord_iff.mpr cast) opens between closes⟩
      | _ =>
        simp only [kind] at step
        exact (predicts_refusal _ exists_isPrimary).congr_cons step

theorem predicts_operand
    (primary : Predicts stop IsPrimary (fun stop => reader (parsePrimary stop)) tokens)
    (ih : ∀ shorter : List Token, shorter.length < tokens.length →
      PredictsExpressions stop shorter) :
    Predicts stop (IsExpression .factor) (fun stop => reader (parseOperand stop)) tokens := by
  have plain : Predicts stop (IsExpression .factor) (fun stop => reader (parsePrimary stop))
      tokens := primary.mono fun _ ⟨expr, written⟩ => ⟨expr, .primary written⟩
  cases tokens with
  | nil => exact plain.congr_nil reader_operand_nil
  | cons token rest =>
    have step := fun stop' => reader_operand_cons stop' token
    cases sign : unaryOperator? token.kind with
    | none =>
      simp only [sign] at step
      exact plain.congr_cons step
    | some op =>
      simp only [sign] at step
      refine ((ih rest (Nat.lt_succ_self _)).primary.map _).behind step ?_
      rintro taken ⟨operand, written⟩
      exact ⟨_, .signed (sign_iff.mpr sign) written⟩

theorem predicts_tier
    (operand : Predicts stop (IsExpression .factor) (fun stop => reader (parseOperand stop)) tokens)
    (ih : ∀ shorter : List Token, shorter.length < tokens.length →
      PredictsExpressions stop shorter) (tier : Tier) :
    Predicts stop (IsExpression tier) (fun stop => reader (parseTier stop tier.level)) tokens := by
  induction level : tier.level generalizing tier with
  | zero =>
    obtain rfl := eq_factor_of_level level
    exact operand.congr fun stop' others _ => congrFun (reader_tier_zero stop') others
  | succ level levelIH =>
    obtain ⟨inner, isOperand, rfl⟩ := exists_operand_of_level level
    simp only [reader_tier_succ]
    refine (levelIH inner rfl).bind (AreOperations tier) (fun lhs rest read => ?_)
      ⟨[], areOperations_nil tier⟩ fun _ _ operand operations => operand.chain isOperand operations
    have shorter : rest.length < tokens.length := length_lt_of_reader read
    exact (ih rest shorter).operations isOperand lhs

theorem predicts_operations
    (ih : ∀ shorter : List Token, shorter.length < tokens.length →
      PredictsExpressions stop shorter) {tier inner : Tier}
    (isOperand : tier.operand? = some inner) (lhs : Expr Unit) :
    Predicts stop (AreOperations tier)
      (fun stop => reader (parseOperations stop inner.level lhs)) tokens := by
  have none : Predicts stop (AreOperations tier) (fun _ => pure lhs) tokens :=
    predicts_pure lhs (areOperations_nil tier)
  cases tokens with
  | nil => exact none.congr_nil fun stop' => reader_operations_nil stop' inner.level lhs
  | cons token rest =>
    have step := fun stop' => reader_operations_cons stop' inner.level lhs token
    cases sign : operatorInTier? (inner.level + 1) token.kind with
    | none =>
      simp only [sign] at step
      exact none.congr_cons step
    | some op =>
      simp only [sign] at step
      rw [← level_of_operand? isOperand] at sign
      have both : Predicts stop (Joined (IsExpression inner) (AreOperations tier))
          (fun stop => do
            let rhs ← reader (parseTier stop inner.level)
            reader (parseOperations stop inner.level
              (.binary op () lhs rhs (lhs.span.cover rhs.span)))) rest := by
        refine ((ih rest (Nat.lt_succ_self _)).tier inner).bind (AreOperations tier)
          (fun rhs left read => ?_) ⟨[], areOperations_nil tier⟩ fun _ _ => joined_append
        have shorter : left.length < rest.length := length_lt_of_reader read
        exact (ih left (Nat.lt_succ_of_lt shorter)).operations isOperand _
      -- The rule is for every expression on the left, since the one that was read grows here.
      refine both.behind step ?_
      rintro _ ⟨front, behind, rfl, ⟨rhs, operand⟩, operations⟩ lhs
      obtain ⟨expr, operations⟩ := operations (.binary op () lhs rhs (lhs.span.cover rhs.span))
      exact ⟨expr, .more isOperand (operator_iff.mpr sign) operand operations⟩

/-- What may stand behind an argument, up to the closing parenthesis. -/
def IsBehindArgument (tokens : List Token) : Prop :=
  IsToken .rightParen tokens ∨ Behind .comma (UpTo .rightParen IsArgumentList) tokens

theorem predicts_afterArgument (argument : Expr Unit)
    (ih : ∀ shorter : List Token, shorter.length < tokens.length →
      PredictsExpressions stop shorter) :
    Predicts stop IsBehindArgument (fun stop => afterArgument stop argument) tokens := by
  unfold afterArgument
  refine Predicts.ifNext .comma (UpTo .rightParen IsArgumentList) (fun comma rest split _ => ?_)
    (fun _ => ((predicts_expect .rightParen tokens).map _).mono fun _ => .inl) ?_
  · exact ((ih rest (by simp [split])).argumentList).map _
  · exact fun _ _ isComma following => .inr (behind_cons isComma following)

theorem IsExpression.behindArgument {front behind : List Token}
    (first : IsExpression .expression front) (following : IsBehindArgument behind) :
    UpTo .rightParen IsArgumentList (front ++ behind) := by
  obtain ⟨argument, first⟩ := first
  rcases following with ⟨close, rfl, closes⟩ |
    ⟨comma, _, rfl, isComma, others, close, rfl, ⟨arguments, listed⟩, closes⟩
  · exact ⟨front, close, rfl, ⟨_, .last first⟩, closes⟩
  · exact ⟨front ++ comma :: others, close, by simp, ⟨_, .more first isComma listed⟩, closes⟩

theorem predicts_argumentList
    (tier : Predicts stop (IsExpression .expression)
      (fun stop => reader (parseTier stop loosestTier)) tokens)
    (ih : ∀ shorter : List Token, shorter.length < tokens.length →
      PredictsExpressions stop shorter) :
    Predicts stop (UpTo .rightParen IsArgumentList)
      (fun stop => reader (parseArgumentList stop)) tokens := by
  simp only [reader_argumentList]
  refine tier.bind IsBehindArgument (fun argument rest read => ?_)
    ⟨_, .inl (isToken_mk .rightParen)⟩ fun _ _ => IsExpression.behindArgument
  have shorter : rest.length < tokens.length := length_lt_of_reader read
  exact predicts_afterArgument argument fun left less => ih left (Nat.lt_trans less shorter)

theorem predicts_arguments
    (argumentList : Predicts stop (UpTo .rightParen IsArgumentList)
      (fun stop => reader (parseArgumentList stop)) tokens) :
    Predicts stop (UpTo .rightParen AreArguments)
      (fun stop => reader (parseArguments stop)) tokens := by
  have listed : Predicts stop (UpTo .rightParen AreArguments)
      (fun stop => reader (parseArgumentList stop)) tokens :=
    argumentList.mono fun _ => upTo_mono fun _ ⟨arguments, listed⟩ => ⟨arguments, .some listed⟩
  cases tokens with
  | nil => exact listed.congr_nil reader_arguments_nil
  | cons token rest =>
    have step := fun stop' => reader_arguments_cons stop' token
    by_cases closes : token.kind = .rightParen
    · simp only [if_pos closes] at step
      exact predicts_single step ⟨[], token, rfl, ⟨[], .none⟩, closes⟩
    · simp only [if_neg closes] at step
      exact listed.congr_cons step

/-- The readers of expressions follow the rules of the grammar. -/
theorem predictsExpressions (stop : Nat) (tokens : List Token) :
    PredictsExpressions stop tokens := by
  induction length : tokens.length using Nat.strongRecOn generalizing tokens with
  | ind _ lengthIH =>
    have ih (shorter : List Token) (less : shorter.length < tokens.length) :
        PredictsExpressions stop shorter := lengthIH _ (length ▸ less) shorter rfl
    have primary := predicts_primary ih
    have tier := predicts_tier (predicts_operand primary ih) ih
    have argumentList := predicts_argumentList (tier .expression) ih
    exact ⟨primary, tier, predicts_operations ih, argumentList, predicts_arguments argumentList⟩

end Induction

end TypedImp.Grammar
