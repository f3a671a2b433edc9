import TypedImp.Program.Parser.Definition
import TypedImp.Proofs.Alignment.Basic

/-!
# Reading the same tokens at other places

A parser looks at the kinds and the texts of tokens.  Where two sources have the same
tokens, it reads the same expression from both, or refuses both for the same reason at
places that correspond.

The induction follows the parsers that call each other, on the number of tokens that are
left.
-/

namespace TypedImp

/-- The place of an earlier definition that an error names. -/
def SyntaxError.earlier? : SyntaxError → Option Span
  | .duplicateDeclaration _ earlier | .duplicateFunction _ earlier => some earlier
  | _ => none

namespace Alignment

open TypedImp.Parser

variable (alignment : Alignment)

/-- One reason to refuse a source, with places that correspond. -/
inductive SameSyntaxError : SyntaxError → SyntaxError → Prop where
  | duplicateDeclaration (name : String) {earlier earlier' : Span}
      (spans : alignment.spans earlier earlier') :
      SameSyntaxError (.duplicateDeclaration name earlier) (.duplicateDeclaration name earlier')
  | duplicateFunction (name : String) {earlier earlier' : Span}
      (spans : alignment.spans earlier earlier') :
      SameSyntaxError (.duplicateFunction name earlier) (.duplicateFunction name earlier')
  | placeless {error : SyntaxError} (noPlace : error.earlier? = none) :
      SameSyntaxError error error

/-- Two refusals for one reason. -/
abbrev SameRefusal : Spanned SyntaxError → Spanned SyntaxError → Prop :=
  alignment.SameFound alignment.SameSyntaxError

/-- Two parsers read related values and leave the same tokens. -/
def SameParsed {α β : Type} (related : α → β → Prop) {limit limit' : Nat}
    (first : Parsed limit α) (second : Parsed limit' β) : Prop :=
  related first.value second.value ∧ alignment.SameTokens first.rest second.rest

/-- Two parsers both refuse what they see, or read related values. -/
abbrev SameReading {α β : Type} (related : α → β → Prop) {limit limit' : Nat} :
    Result (Parsed limit α) → Result (Parsed limit' β) → Prop :=
  EndAlike alignment.SameRefusal (alignment.SameParsed related)

variable {alignment} {stop stop' : Nat}

section Combinators

variable {α β γ δ : Type} {related : α → β → Prop} {final : γ → δ → Prop} {limit limit' : Nat}
  {token token' : Token} {tokens tokens' rest rest' : List Token}

theorem SameToken.refuse (same : alignment.SameToken token token') {error : SyntaxError}
    (noPlace : error.earlier? = none) :
    alignment.SameReading related (refuse token error : Result (Parsed limit α))
      (refuse token' error : Result (Parsed limit' β)) :=
  .error ⟨same.span, .placeless noPlace⟩

theorem sameToken_endAt (stops : alignment.spans (.emptyAt stop) (.emptyAt stop')) :
    alignment.SameToken (.endAt stop) (.endAt stop') :=
  .mk _ _ stops

theorem sameReading_nothing {value : α} {value' : β} (values : related value value')
    (same : alignment.SameTokens tokens tokens') :
    alignment.SameReading related (nothing value tokens) (nothing value' tokens') :=
  .ok ⟨values, same⟩

theorem sameReading_single {value : α} {value' : β} (values : related value value')
    (same : alignment.SameTokens rest rest') :
    alignment.SameReading related (single value token rest) (single value' token' rest') :=
  .ok ⟨values, same⟩

theorem SameReading.after {following : Result (Parsed rest.length α)}
    {following' : Result (Parsed rest'.length β)}
    (same : alignment.SameReading related following following') {taken : rest.length < limit}
    {taken' : rest'.length < limit'} :
    alignment.SameReading related (after taken following) (after taken' following') := by
  cases same with
  | error refusals => exact .error refusals
  | ok parsed => exact .ok parsed

theorem SameReading.afterToken {following : Result (Parsed rest.length α)}
    {following' : Result (Parsed rest'.length β)}
    (same : alignment.SameReading related following following') :
    alignment.SameReading related (afterToken token following) (afterToken token' following') :=
  SameReading.after same

theorem SameReading.optional {first : Result (Parsed limit α)} {second : Result (Parsed limit' β)}
    (same : alignment.SameReading related first second) :
    alignment.SameReading related (optional first) (optional second) := by
  cases same with
  | error refusals => exact .error refusals
  | ok parsed => exact .ok parsed

theorem SameReading.give {first : Result (Parsed limit α)} {second : Result (Parsed limit' β)}
    (same : alignment.SameReading related first second) {f : α → γ} {g : β → δ}
    (values : ∀ value value', related value value' → final (f value) (g value')) :
    alignment.SameReading final (give first f) (give second g) := by
  cases same with
  | error refusals => exact .error refusals
  | ok parsed => exact .ok ⟨values _ _ parsed.1, parsed.2⟩

theorem SameReading.andThen {first : Result (Parsed limit α)} {second : Result (Parsed limit' β)}
    (same : alignment.SameReading related first second)
    {next : α → (rest : List Token) → rest.length < limit → Result (Parsed rest.length γ)}
    {next' : β → (rest : List Token) → rest.length < limit' → Result (Parsed rest.length δ)}
    (following : ∀ value value', related value value' → ∀ rest rest',
      alignment.SameTokens rest rest' → ∀ within within',
        alignment.SameReading final (next value rest within) (next' value' rest' within')) :
    alignment.SameReading final (andThen first next) (andThen second next') := by
  cases same with
  | error refusals => exact .error refusals
  | @ok parsed parsed' sameParsed =>
    have read := following _ _ sameParsed.1 _ _ sameParsed.2 parsed.within parsed'.within
    simp only [Parser.andThen]
    exact read.after

theorem SameReading.andMaybe {first : Result (Parsed limit α)}
    {second : Result (Parsed limit' β)} (same : alignment.SameReading related first second)
    {next : α → (rest : List Token) → rest.length < limit → Result (Parsed (rest.length + 1) γ)}
    {next' : β → (rest : List Token) → rest.length < limit' →
      Result (Parsed (rest.length + 1) δ)}
    (following : ∀ value value', related value value' → ∀ rest rest',
      alignment.SameTokens rest rest' → ∀ within within',
        alignment.SameReading final (next value rest within) (next' value' rest' within')) :
    alignment.SameReading final (andMaybe first next) (andMaybe second next') := by
  cases same with
  | error refusals => exact .error refusals
  | @ok parsed parsed' sameParsed =>
    have read := following _ _ sameParsed.1 _ _ sameParsed.2 parsed.within parsed'.within
    simp only [Parser.andMaybe]
    generalize next parsed.value parsed.rest parsed.within = result,
      next' parsed'.value parsed'.rest parsed'.within = result' at read
    cases read with
    | error refusals => exact .error refusals
    | ok parsed => exact .ok parsed

theorem rel_take? (same : alignment.SameTokens tokens tokens') (expected : TokenKind) :
    Option.Rel (alignment.SameParsed alignment.SameToken) (take? expected tokens)
      (take? expected tokens') := by
  cases same with
  | nil => exact .none
  | @cons token token' rest rest' head following =>
    simp only [Parser.take?, ← head.kind]
    split
    · exact .some ⟨head, following⟩
    · exact .none

end Combinators

section Words

variable (stops : alignment.spans (.emptyAt stop) (.emptyAt stop')) {tokens tokens' : List Token}
  (same : alignment.SameTokens tokens tokens')

include stops same

theorem sameReading_expect (expected : TokenKind) :
    alignment.SameReading alignment.SameToken (expect stop expected tokens)
      (expect stop' expected tokens') := by
  cases same with
  | nil => exact (sameToken_endAt stops).refuse rfl
  | @cons token token' rest rest' head following =>
    simp only [expect, ← head.kind]
    split
    · exact sameReading_single head following
    · exact head.refuse rfl

theorem sameReading_parseIdent :
    alignment.SameReading alignment.SameIdent (parseIdent stop tokens)
      (parseIdent stop' tokens') := by
  refine (sameReading_expect stops same .identifier).give fun _ _ names => ?_
  cases names with
  | mk _ name spans => exact .mk name spans

theorem sameReading_parseType :
    alignment.SameReading Eq (parseType stop tokens) (parseType stop' tokens') := by
  cases same with
  | nil => exact (sameToken_endAt stops).refuse rfl
  | @cons token token' rest rest' head following =>
    cases head with
    | mk kind text spans =>
      cases kind with
      | typeName ty => exact sameReading_single rfl following
      | _ => exact (SameToken.mk _ text spans).refuse rfl

end Words

section Expressions

/-- The same arguments, up to the same closing parenthesis. -/
abbrev SameArguments (alignment : Alignment) (first second : List (Expr Unit) × Token) : Prop :=
  alignment.SameExprs first.1 second.1 ∧ alignment.SameToken first.2 second.2

mutual

theorem sameReading_parseTier
    (stops : alignment.spans (.emptyAt stop) (.emptyAt stop')) (tier : Nat)
    {tokens tokens' : List Token} (same : alignment.SameTokens tokens tokens') :
    alignment.SameReading alignment.SameExpr (parseTier stop tier tokens)
      (parseTier stop' tier tokens') := by
  cases tier with
  | zero =>
    rw [parseTier, parseTier]
    exact sameReading_parseOperand stops same
  | succ tier =>
    rw [parseTier, parseTier]
    refine (sameReading_parseTier stops tier same).andMaybe ?_
    intro lhs lhs' operands rest rest' sameRest within _
    exact sameReading_parseOperations stops tier operands sameRest
termination_by 9 * tokens.length + tier + 2
decreasing_by all_goals omega

theorem sameReading_parseOperations
    (stops : alignment.spans (.emptyAt stop) (.emptyAt stop')) (tier : Nat) {lhs lhs' : Expr Unit}
    (operands : alignment.SameExpr lhs lhs') {tokens tokens' : List Token}
    (same : alignment.SameTokens tokens tokens') :
    alignment.SameReading alignment.SameExpr (parseOperations stop tier lhs tokens)
      (parseOperations stop' tier lhs' tokens') := by
  cases same with
  | nil =>
    rw [parseOperations, parseOperations]
    exact sameReading_nothing operands .nil
  | @cons token token' behind behind' head following =>
    rw [parseOperations, parseOperations, ← head.kind]
    cases operatorInTier? (tier + 1) token.kind with
    | none => exact sameReading_nothing operands (.cons head following)
    | some op =>
      refine .optional <| .afterToken <| (sameReading_parseTier stops tier following).andMaybe ?_
      intro rhs rhs' others rest rest' sameRest within _
      exact sameReading_parseOperations stops tier
        (.binary op () operands others (alignment.cover operands.span others.span)) sameRest
termination_by 9 * tokens.length + tier + 3
decreasing_by all_goals simp only [List.length_cons]; omega

theorem sameReading_parseOperand
    (stops : alignment.spans (.emptyAt stop) (.emptyAt stop')) {tokens tokens' : List Token}
    (same : alignment.SameTokens tokens tokens') :
    alignment.SameReading alignment.SameExpr (parseOperand stop tokens)
      (parseOperand stop' tokens') := by
  cases same with
  | nil =>
    rw [parseOperand, parseOperand]
    exact sameReading_parsePrimary stops .nil
  | @cons token token' behind behind' head following =>
    rw [parseOperand, parseOperand, ← head.kind]
    cases unaryOperator? token.kind with
    | none => exact sameReading_parsePrimary stops (.cons head following)
    | some op =>
      refine .afterToken <| (sameReading_parsePrimary stops following).give ?_
      intro operand operand' inner
      exact .unary op () inner (alignment.cover head.span inner.span)
termination_by 9 * tokens.length + 1
decreasing_by all_goals simp only [List.length_cons, List.length_nil]; omega

theorem sameReading_parsePrimary
    (stops : alignment.spans (.emptyAt stop) (.emptyAt stop')) {tokens tokens' : List Token}
    (same : alignment.SameTokens tokens tokens') :
    alignment.SameReading alignment.SameExpr (parsePrimary stop tokens)
      (parsePrimary stop' tokens') := by
  cases same with
  | nil =>
    rw [parsePrimary, parsePrimary]
    exact (sameToken_endAt stops).refuse rfl
  | @cons token token' behind behind' head following =>
    rw [parsePrimary, parsePrimary]
    cases head with
    | @mk kind text span span' spans =>
      have word : alignment.SameToken ⟨kind, span, text⟩ ⟨kind, span', text⟩ := .mk _ _ spans
      -- The value of a literal depends on its kind and its text.
      rw [show Token.literal? ⟨kind, span, text⟩ = Token.literal? ⟨kind, span', text⟩ from rfl]
      cases Token.literal? ⟨kind, span', text⟩ with
      | some literal =>
        cases literal with
        | ok value => exact sameReading_single (.literal value spans) following
        | error error => exact word.refuse rfl
      | none =>
        cases kind with
        | identifier =>
          have taken := rel_take? following .leftParen
          dsimp only
          generalize take? .leftParen behind = opening, take? .leftParen behind' = opening'
            at taken
          cases taken with
          | none => exact sameReading_single (.var (.mk text spans) spans) following
          | @some parsed parsed' sameParsed =>
            obtain ⟨_, inner, opened⟩ := parsed
            refine .afterToken <| .after <| (sameReading_parseArguments stops sameParsed.2).give ?_
            intro arguments arguments' passed
            have whole := alignment.cover spans passed.2.span
            exact .call (.mk text spans) passed.1 whole whole
        | leftParen =>
          refine .afterToken <| (sameReading_parseTier stops loosestTier following).andThen ?_
          intro expr expr' inner rest rest' sameRest _ _
          exact (sameReading_expect stops sameRest .rightParen).give fun _ _ _ => inner
        | typeName ty =>
          dsimp only
          cases UnaryOperator.castTo? ty with
          | none => exact word.refuse rfl
          | some op =>
            refine .afterToken <| (sameReading_expect stops following .leftParen).andThen ?_
            intro _ _ _ rest rest' sameRest opened _
            refine (sameReading_parseTier stops loosestTier sameRest).andThen ?_
            intro operand operand' inner rest rest' sameRest _ _
            refine (sameReading_expect stops sameRest .rightParen).give ?_
            intro close close' closes
            exact .unary op () inner (alignment.cover spans closes.span)
        | _ => exact word.refuse rfl
termination_by 9 * tokens.length
decreasing_by all_goals simp only [List.length_cons, loosestTier] at *; omega

theorem sameReading_parseArguments
    (stops : alignment.spans (.emptyAt stop) (.emptyAt stop')) {tokens tokens' : List Token}
    (same : alignment.SameTokens tokens tokens') :
    alignment.SameReading alignment.SameArguments (parseArguments stop tokens)
      (parseArguments stop' tokens') := by
  cases same with
  | nil =>
    rw [parseArguments, parseArguments]
    exact sameReading_parseArgumentList stops .nil
  | @cons token token' behind behind' head following =>
    rw [parseArguments, parseArguments, ← head.kind]
    split
    · exact sameReading_single ⟨.nil, head⟩ following
    · exact sameReading_parseArgumentList stops (.cons head following)
termination_by 9 * tokens.length + 10
decreasing_by all_goals simp only [List.length_cons, List.length_nil]; omega

theorem sameReading_parseArgumentList
    (stops : alignment.spans (.emptyAt stop) (.emptyAt stop')) {tokens tokens' : List Token}
    (same : alignment.SameTokens tokens tokens') :
    alignment.SameReading alignment.SameArguments (parseArgumentList stop tokens)
      (parseArgumentList stop' tokens') := by
  rw [parseArgumentList, parseArgumentList]
  refine (sameReading_parseTier stops loosestTier same).andThen ?_
  intro argument argument' arguments rest rest' sameRest within _
  have taken := rel_take? sameRest .comma
  generalize take? .comma rest = separator, take? .comma rest' = separator' at taken
  cases taken with
  | none =>
    refine (sameReading_expect stops sameRest .rightParen).give ?_
    intro close close' closes
    exact ⟨.cons arguments .nil, closes⟩
  | @some parsed parsed' sameParsed =>
    obtain ⟨_, behind, separated⟩ := parsed
    refine .after <| (sameReading_parseArgumentList stops sameParsed.2).give ?_
    intro others others' sameOthers
    exact ⟨.cons arguments sameOthers.1, sameOthers.2⟩
termination_by 9 * tokens.length + 9
decreasing_by
  · simp only [loosestTier]; omega
  · omega

end

theorem sameReading_parseExpr
    (stops : alignment.spans (.emptyAt stop) (.emptyAt stop')) {tokens tokens' : List Token}
    (same : alignment.SameTokens tokens tokens') :
    alignment.SameReading alignment.SameExpr (parseExpr stop tokens) (parseExpr stop' tokens') :=
  sameReading_parseTier stops loosestTier same

end Expressions

end Alignment

end TypedImp
