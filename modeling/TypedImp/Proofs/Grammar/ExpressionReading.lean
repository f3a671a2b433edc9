import TypedImp.Program.Parser.Expression
import TypedImp.Proofs.Grammar.Combinators
import TypedImp.Proofs.Grammar.Expression

/-!
# Reading expressions by the grammar

What the expression parser reads is an expression of the grammar, and it reads every
expression of the grammar up to its end, if what follows cannot continue it.

Soundness goes by induction on the number of tokens: of the parsers that call each other
on the same tokens each one is treated after those that it calls.
-/

namespace TypedImp.Grammar

open TypedImp.Parser

/-- The number by which the parser knows a tier. -/
def Tier.level : Tier → Nat
  | .expression => 6
  | .conjunction => 5
  | .equality => 4
  | .relation => 3
  | .addition => 2
  | .term => 1
  | .factor => 0

theorem level_of_operand? {tier inner : Tier} (isOperand : tier.operand? = some inner) :
    tier.level = inner.level + 1 := by
  cases tier <;> cases isOperand <;> rfl

theorem operator_iff {tier : Tier} {kind : TokenKind} {op : BinaryOperator} :
    Operator tier kind op ↔ operatorInTier? tier.level kind = some op := by
  constructor
  · intro isOperator
    cases isOperator <;> rfl
  · intro found
    obtain ⟨written, inTier⟩ := Option.filter_eq_some_iff.mp found
    cases kind <;> cases written <;> cases tier <;> first | constructor | cases inTier

theorem sign_iff {kind : TokenKind} {op : UnaryOperator} :
    Sign kind op ↔ unaryOperator? kind = some op := by
  constructor
  · intro isSign
    cases isSign <;> rfl
  · intro found
    cases kind <;> cases found <;> constructor

theorem castWord_iff {ty : Ty} {op : UnaryOperator} :
    CastWord (.typeName ty) op ↔ UnaryOperator.castTo? ty = some op := by
  constructor
  · intro isCast
    cases isCast <;> rfl
  · intro found
    cases ty <;> cases found <;> constructor

theorem literal?_eq_ok_iff {token : Token} {value : Value} :
    token.literal? = some (.ok value) ↔ Literal token value ∧ LiteralsFit [token] := by
  constructor
  · intro found
    have fitting : ∀ kindEq : token.kind = .intLiteral,
        Text.digitsValue token.text.toList ≤ 2147483647 := by
      intro kindEq
      simp only [Token.literal?, kindEq, Token.intValue] at found
      split at found
      case isTrue fits => exact fits
      case isFalse => cases found
    refine ⟨?_, by simpa using fitting⟩
    unfold Token.literal? at found
    split at found
    case _ kindEq =>
      rw [Token.intValue, if_pos (show _ ≤ Token.largestInt from fitting kindEq)] at found
      cases found
      exact .int kindEq
    case _ kindEq => cases found; exact .float kindEq
    case _ kindEq => cases found; exact .char kindEq
    case _ kindEq => cases found; exact .true kindEq
    case _ kindEq => cases found; exact .false kindEq
    case _ => cases found
  · rintro ⟨isLiteral, fits⟩
    cases isLiteral with
    | int kindEq =>
      have small : Text.digitsValue token.text.toList ≤ Token.largestInt :=
        fits token (by simp) kindEq
      simp [Token.literal?, kindEq, Token.intValue, small, Except.map]
    | float kindEq | char kindEq | true kindEq | false kindEq =>
      simp [Token.literal?, kindEq]

/-- The front of a list of tokens is written by a rule, and its literals fit. -/
def Spells (rule : List Token → Prop) (tokens rest : List Token) : Prop :=
  ∃ spelled, tokens = spelled ++ rest ∧ LiteralsFit spelled ∧ rule spelled

/-- What each parser reads from a list of tokens is written by a rule of the grammar. -/
structure ReadsSoundly (stop : Nat) (tokens : List Token) : Prop where
  primary {expr : Expr Unit} {rest : List Token} :
    Reads (parsePrimary stop tokens) expr rest → Spells (Primary · expr) tokens rest
  tier {tier : Tier} {expr : Expr Unit} {rest : List Token} :
    Reads (parseTier stop tier.level tokens) expr rest →
      Spells (Expression tier · expr) tokens rest
  operations {tier inner : Tier} {lhs expr : Expr Unit} {rest : List Token}
    (isOperand : tier.operand? = some inner) :
    Reads (parseOperations stop inner.level lhs tokens) expr rest →
      Spells (Operations tier lhs · expr) tokens rest
  argumentList {arguments : List (Expr Unit)} {close : Token} {rest : List Token} :
    Reads (parseArgumentList stop tokens) (arguments, close) rest →
      close.kind = .rightParen ∧ Spells (ArgumentList · arguments) tokens (close :: rest)
  arguments {arguments : List (Expr Unit)} {close : Token} {rest : List Token} :
    Reads (parseArguments stop tokens) (arguments, close) rest →
      close.kind = .rightParen ∧ Spells (Arguments · arguments) tokens (close :: rest)

section Soundness

variable {stop : Nat} {tokens : List Token}

theorem ReadsSoundly.expression (sound : ReadsSoundly stop tokens) {expr : Expr Unit}
    {rest : List Token} (reads : Reads (parseTier stop loosestTier tokens) expr rest) :
    Spells (Expression .expression · expr) tokens rest :=
  sound.tier reads

theorem primary_of_reads
    (ih : ∀ shorter : List Token, shorter.length < tokens.length → ReadsSoundly stop shorter)
    {expr : Expr Unit} {rest : List Token}
    (reads : Reads (parsePrimary stop tokens) expr rest) :
    Spells (Primary · expr) tokens rest := by
  cases tokens with
  | nil =>
    rw [parsePrimary] at reads
    exact (not_reads_refuse _ _ _ _ reads).elim
  | cons token behind =>
    rw [parsePrimary] at reads
    split at reads
    case _ value found =>
      obtain ⟨rfl, rfl⟩ := reads_single_iff.mp reads
      obtain ⟨isLiteral, fits⟩ := literal?_eq_ok_iff.mp found
      exact ⟨[token], rfl, fits, .literal isLiteral⟩
    case _ => exact (not_reads_refuse _ _ _ _ reads).elim
    case _ =>
      split at reads
      case _ isName =>
        split at reads
        case _ =>
          obtain ⟨rfl, rfl⟩ := reads_single_iff.mp reads
          exact ⟨[token], rfl, by simp [isName], .var isName⟩
        case _ opening following shorter found =>
          obtain ⟨rfl, opens⟩ := eq_cons_of_take? found
          simp only [reads_afterToken_iff, reads_after_iff, reads_give_iff] at reads
          obtain ⟨⟨arguments, close⟩, reads, rfl⟩ := reads
          obtain ⟨closes, spelled, rfl, fits, between⟩ :=
            (ih following (by simp only [List.length_cons]; omega)).arguments reads
          refine ⟨token :: opening :: (spelled ++ [close]), by simp, ?_,
            .call isName opens between closes⟩
          simp [isName, fits, show opening.kind = .leftParen from opens, closes]
      case _ opens =>
        simp only [reads_afterToken_iff, reads_andThen_iff, reads_give_iff,
          reads_expect_iff] at reads
        obtain ⟨inner, middle, shorter, reads, close, ⟨rfl, closes⟩, rfl⟩ := reads
        obtain ⟨spelled, rfl, fits, between⟩ :=
          (ih behind (by simp)).expression reads
        refine ⟨token :: (spelled ++ [close]), by simp, ?_, .group opens between closes⟩
        simp [opens, fits, closes]
      case _ ty isType =>
        split at reads
        case _ => exact (not_reads_refuse _ _ _ _ reads).elim
        case _ op found =>
          simp only [reads_afterToken_iff, reads_andThen_iff, reads_give_iff,
            reads_expect_iff] at reads
          obtain ⟨opening, following, _, ⟨rfl, opens⟩, operand, middle, _, reads, close,
            ⟨rfl, closes⟩, rfl⟩ := reads
          obtain ⟨spelled, rfl, fits, between⟩ :=
            (ih following (by simp only [List.length_cons]; omega)).expression reads
          refine ⟨token :: opening :: (spelled ++ [close]), by simp, ?_,
            .cast (isType ▸ castWord_iff.mpr found) opens between closes⟩
          simp [isType, fits, opens, closes]
      case _ => exact (not_reads_refuse _ _ _ _ reads).elim

theorem factor_of_reads
    (primary : ∀ {expr rest}, Reads (parsePrimary stop tokens) expr rest →
      Spells (Primary · expr) tokens rest)
    (ih : ∀ shorter : List Token, shorter.length < tokens.length → ReadsSoundly stop shorter)
    {expr : Expr Unit} {rest : List Token}
    (reads : Reads (parseOperand stop tokens) expr rest) :
    Spells (Expression .factor · expr) tokens rest := by
  have plain (reads : Reads (parsePrimary stop tokens) expr rest) :
      Spells (Expression .factor · expr) tokens rest := by
    obtain ⟨spelled, split, fits, derived⟩ := primary reads
    exact ⟨spelled, split, fits, .primary derived⟩
  cases tokens with
  | nil =>
    rw [parseOperand] at reads
    exact plain reads
  | cons token behind =>
    rw [parseOperand] at reads
    split at reads
    case _ => exact plain reads
    case _ op found =>
      simp only [reads_afterToken_iff, reads_give_iff] at reads
      obtain ⟨operand, reads, rfl⟩ := reads
      obtain ⟨spelled, rfl, fits, derived⟩ := (ih behind (by simp)).primary reads
      have isSign := sign_iff.mpr found
      refine ⟨token :: spelled, rfl, ?_, .signed isSign derived⟩
      rw [literalsFit_cons]
      refine ⟨fun isInt => ?_, fits⟩
      rw [isInt] at isSign
      cases isSign

theorem tier_of_reads
    (factor : ∀ {expr rest}, Reads (parseOperand stop tokens) expr rest →
      Spells (Expression .factor · expr) tokens rest)
    (ih : ∀ shorter : List Token, shorter.length < tokens.length → ReadsSoundly stop shorter)
    {tier : Tier} {expr : Expr Unit} {rest : List Token}
    (reads : Reads (parseTier stop tier.level tokens) expr rest) :
    Spells (Expression tier · expr) tokens rest := by
  induction level : tier.level generalizing tier expr rest with
  | zero =>
    have isFactor : tier = .factor := by cases tier <;> first | rfl | cases level
    subst isFactor
    rw [level, parseTier] at reads
    exact factor reads
  | succ n levelIH =>
    obtain ⟨inner, isOperand⟩ : ∃ inner, tier.operand? = some inner := by
      cases tier <;> first | exact ⟨_, rfl⟩ | cases level
    have innerLevel : inner.level = n := by
      have := level_of_operand? isOperand
      omega
    rw [level, parseTier, reads_andMaybe_iff] at reads
    obtain ⟨lhs, middle, shorter, operand, reads⟩ := reads
    obtain ⟨first, rfl, firstFits, firstDerived⟩ :=
      levelIH (innerLevel.symm ▸ operand) innerLevel
    obtain ⟨others, rfl, othersFit, othersDerived⟩ :=
      (ih middle shorter).operations isOperand (innerLevel.symm ▸ reads)
    exact ⟨first ++ others, by simp, by simp [firstFits, othersFit],
      .chain isOperand firstDerived othersDerived⟩

theorem operations_of_reads
    (ih : ∀ shorter : List Token, shorter.length < tokens.length → ReadsSoundly stop shorter)
    {tier inner : Tier} {lhs expr : Expr Unit} {rest : List Token}
    (isOperand : tier.operand? = some inner)
    (reads : Reads (parseOperations stop inner.level lhs tokens) expr rest) :
    Spells (Operations tier lhs · expr) tokens rest := by
  have finished (done : lhs = expr ∧ tokens = rest) :
      Spells (Operations tier lhs · expr) tokens rest := by
    obtain ⟨rfl, rfl⟩ := done
    exact ⟨[], rfl, literalsFit_nil, .none⟩
  cases tokens with
  | nil =>
    rw [parseOperations] at reads
    exact finished (reads_nothing_iff.mp reads)
  | cons token behind =>
    rw [parseOperations] at reads
    split at reads
    case _ => exact finished (reads_nothing_iff.mp reads)
    case _ op found =>
      rw [← level_of_operand? isOperand] at found
      simp only [reads_optional_iff, reads_afterToken_iff, reads_andMaybe_iff] at reads
      obtain ⟨rhs, middle, shorter, operand, reads⟩ := reads
      obtain ⟨spelled, rfl, spelledFits, derived⟩ := (ih behind (by simp)).tier operand
      obtain ⟨others, rfl, othersFit, following⟩ :=
        (ih middle (by simp only [List.length_cons]; omega)).operations isOperand reads
      have isOperator := operator_iff.mpr found
      refine ⟨token :: (spelled ++ others), by simp, ?_,
        .more isOperand isOperator derived following⟩
      rw [literalsFit_cons, literalsFit_append]
      refine ⟨fun isInt => ?_, spelledFits, othersFit⟩
      rw [isInt] at isOperator
      cases isOperator

theorem argumentList_of_reads
    (tier : ∀ {expr rest}, Reads (parseTier stop loosestTier tokens) expr rest →
      Spells (Expression .expression · expr) tokens rest)
    (ih : ∀ shorter : List Token, shorter.length < tokens.length → ReadsSoundly stop shorter)
    {arguments : List (Expr Unit)} {close : Token} {rest : List Token}
    (reads : Reads (parseArgumentList stop tokens) (arguments, close) rest) :
    close.kind = .rightParen ∧ Spells (ArgumentList · arguments) tokens (close :: rest) := by
  rw [parseArgumentList, reads_andThen_iff] at reads
  obtain ⟨argument, middle, shorter, first, reads⟩ := reads
  obtain ⟨spelled, rfl, fits, derived⟩ := tier first
  split at reads
  case _ =>
    simp only [reads_give_iff, reads_expect_iff, Prod.mk.injEq] at reads
    obtain ⟨_, ⟨rfl, closes⟩, rfl, rfl⟩ := reads
    exact ⟨closes, spelled, rfl, fits, .last derived⟩
  case _ comma behind _ found =>
    obtain ⟨rfl, separates⟩ := eq_cons_of_take? found
    simp only [reads_after_iff, reads_give_iff, Prod.exists, Prod.mk.injEq] at reads
    obtain ⟨others, _, reads, rfl, rfl⟩ := reads
    have shorterBehind : behind.length < (spelled ++ comma :: behind).length := by
      simp only [List.length_append, List.length_cons]
      omega
    obtain ⟨closes, following, rfl, followingFits, othersDerived⟩ :=
      (ih behind shorterBehind).argumentList reads
    refine ⟨closes, spelled ++ comma :: following, by simp, ?_,
      .more derived separates othersDerived⟩
    simp [fits, followingFits, show comma.kind = .comma from separates]

theorem arguments_of_reads
    (argumentList : ∀ {arguments close rest},
      Reads (parseArgumentList stop tokens) (arguments, close) rest →
        close.kind = .rightParen ∧ Spells (ArgumentList · arguments) tokens (close :: rest))
    {arguments : List (Expr Unit)} {close : Token} {rest : List Token}
    (reads : Reads (parseArguments stop tokens) (arguments, close) rest) :
    close.kind = .rightParen ∧ Spells (Arguments · arguments) tokens (close :: rest) := by
  have listed (reads : Reads (parseArgumentList stop tokens) (arguments, close) rest) :
      close.kind = .rightParen ∧ Spells (Arguments · arguments) tokens (close :: rest) := by
    obtain ⟨closes, spelled, split, fits, derived⟩ := argumentList reads
    exact ⟨closes, spelled, split, fits, .some derived⟩
  cases tokens with
  | nil =>
    rw [parseArguments] at reads
    exact listed reads
  | cons token behind =>
    rw [parseArguments] at reads
    split at reads
    case isTrue closes =>
      simp only [reads_single_iff, Prod.mk.injEq] at reads
      obtain ⟨⟨rfl, rfl⟩, rfl⟩ := reads
      exact ⟨closes, [], rfl, literalsFit_nil, .none⟩
    case isFalse => exact listed reads

/-- The parsers of expressions read what the grammar writes. -/
theorem readsSoundly (stop : Nat) (tokens : List Token) : ReadsSoundly stop tokens := by
  induction length : tokens.length using Nat.strongRecOn generalizing tokens with
  | ind _ lengthIH =>
    have ih (shorter : List Token) (less : shorter.length < tokens.length) :
        ReadsSoundly stop shorter := lengthIH _ (length ▸ less) shorter rfl
    have factor {expr rest} (reads : Reads (parseOperand stop tokens) expr rest) :=
      factor_of_reads (primary_of_reads ih) ih reads
    have expression {expr rest} (reads : Reads (parseTier stop loosestTier tokens) expr rest) :
        Spells (Expression .expression · expr) tokens rest := tier_of_reads factor ih reads
    have argumentList {arguments close rest}
        (reads : Reads (parseArgumentList stop tokens) (arguments, close) rest) :=
      argumentList_of_reads expression ih reads
    exact ⟨primary_of_reads ih, tier_of_reads factor ih, operations_of_reads ih, argumentList,
      arguments_of_reads argumentList⟩

end Soundness

section Completeness

/-- What follows cannot continue an expression of a tier. -/
def Ends (tier : Tier) (rest : List Token) : Prop :=
  ∀ token ∈ rest.head?, token.kind ≠ .leftParen ∧
    ∀ op, binaryOperator? token.kind = some op → tier.level < tierOf op

theorem ends_of_kind {tier : Tier} {token : Token} {rest : List Token}
    (noCall : token.kind ≠ .leftParen) (noOperator : binaryOperator? token.kind = none) :
    Ends tier (token :: rest) := by
  intro first isFirst
  cases isFirst
  exact ⟨noCall, by simp [noOperator]⟩

theorem Ends.operand {tier inner : Tier} {rest : List Token} (ends : Ends tier rest)
    (isOperand : tier.operand? = some inner) : Ends inner rest := by
  intro token isFirst
  obtain ⟨noCall, looser⟩ := ends token isFirst
  refine ⟨noCall, fun op isOperator => ?_⟩
  have := looser op isOperator
  have := level_of_operand? isOperand
  omega

theorem ends_of_operator {tier inner : Tier} {sign : Token} {op : BinaryOperator}
    {rest : List Token} (isOperand : tier.operand? = some inner)
    (isOperator : Operator tier sign.kind op) : Ends inner (sign :: rest) := by
  have found := operator_iff.mp isOperator
  obtain ⟨written, inTier⟩ := Option.filter_eq_some_iff.mp found
  intro first isFirst
  cases isFirst
  constructor
  · intro opens
    rw [opens] at written
    cases written
  · intro other isOther
    rw [written] at isOther
    cases isOther
    have := level_of_operand? isOperand
    have : tierOf op = tier.level := by simpa using inTier
    omega

theorem ends_of_operations {tier inner : Tier} {lhs expr : Expr Unit}
    {tokens rest : List Token} (isOperand : tier.operand? = some inner)
    (operations : Operations tier lhs tokens expr) (ends : Ends tier rest) :
    Ends inner (tokens ++ rest) := by
  cases operations with
  | none => exact ends.operand isOperand
  | more isOperand' isOperator _ _ => exact ends_of_operator isOperand isOperator

/-- A primary expression begins with a token that is neither a sign nor a closing
parenthesis. -/
theorem head_of_primary {tokens : List Token} {expr : Expr Unit}
    (derived : Primary tokens expr) :
    ∃ token others, tokens = token :: others ∧ unaryOperator? token.kind = none ∧
      token.kind ≠ .rightParen := by
  cases derived with
  | var isName => exact ⟨_, _, rfl, by simp [isName, unaryOperator?], by simp [isName]⟩
  | literal isLiteral =>
    cases isLiteral with
    | int kindEq | float kindEq | char kindEq | true kindEq | false kindEq =>
      exact ⟨_, _, rfl, by simp [kindEq, unaryOperator?], by simp [kindEq]⟩
  | call isName => exact ⟨_, _, rfl, by simp [isName, unaryOperator?], by simp [isName]⟩
  | group opens => exact ⟨_, _, rfl, by simp [opens, unaryOperator?], by simp [opens]⟩
  | cast isCast =>
    refine ⟨_, _, rfl, ?_, ?_⟩
    all_goals
      generalize Token.kind _ = kind at isCast
      cases isCast <;> simp [unaryOperator?]

theorem head_of_expression {tier : Tier} {tokens : List Token} {expr : Expr Unit}
    (derived : Expression tier tokens expr) :
    ∃ token others, tokens = token :: others ∧ token.kind ≠ .rightParen := by
  match derived with
  | .chain _ operand _ =>
    obtain ⟨token, others, rfl, notClosing⟩ := head_of_expression operand
    exact ⟨token, _, rfl, notClosing⟩
  | .primary plain =>
    obtain ⟨token, others, rfl, _, notClosing⟩ := head_of_primary plain
    exact ⟨token, others, rfl, notClosing⟩
  | .signed isSign _ =>
    refine ⟨_, _, rfl, fun closes => ?_⟩
    rw [closes] at isSign
    cases isSign

variable (stop : Nat)

mutual

theorem reads_of_expression {tier : Tier} {tokens : List Token} {expr : Expr Unit}
    (derived : Expression tier tokens expr) (fits : LiteralsFit tokens) (rest : List Token)
    (ends : Ends tier rest) : Reads (parseTier stop tier.level (tokens ++ rest)) expr rest := by
  match derived with
  | @Expression.chain _ _ _ others _ _ isOperand operand operations =>
    obtain ⟨firstFits, othersFit⟩ := literalsFit_append.mp fits
    have lhs := reads_of_expression operand firstFits (others ++ rest)
      (ends_of_operations isOperand operations ends)
    rw [level_of_operand? isOperand, parseTier, List.append_assoc, reads_andMaybe_iff]
    exact ⟨_, _, lhs.within, lhs,
      reads_of_operations isOperand operations othersFit rest ends⟩
  | .primary plain =>
    have operand := reads_of_primary plain fits rest fun token isFirst =>
      (ends token isFirst).1
    obtain ⟨token, others, rfl, noSign, _⟩ := head_of_primary plain
    rw [Tier.level, parseTier, List.cons_append, parseOperand, noSign]
    exact operand
  | .signed isSign plain =>
    rw [Tier.level, parseTier, List.cons_append, parseOperand, sign_iff.mp isSign]
    simp only [reads_afterToken_iff, reads_give_iff]
    have operand := reads_of_primary plain (literalsFit_cons.mp fits).2 rest
      fun token isFirst => (ends token isFirst).1
    exact ⟨_, operand, rfl⟩

theorem reads_of_operations {tier inner : Tier} {lhs expr : Expr Unit} {tokens : List Token}
    (isOperand : tier.operand? = some inner) (derived : Operations tier lhs tokens expr)
    (fits : LiteralsFit tokens) (rest : List Token) (ends : Ends tier rest) :
    Reads (parseOperations stop inner.level lhs (tokens ++ rest)) expr rest := by
  match derived with
  | .none =>
    cases rest with
    | nil =>
      rw [List.append_nil, parseOperations]
      simp
    | cons token behind =>
      have noOperator : operatorInTier? (inner.level + 1) token.kind = none := by
        cases found : operatorInTier? (inner.level + 1) token.kind with
        | none => rfl
        | some op =>
          obtain ⟨written, inTier⟩ := Option.filter_eq_some_iff.mp found
          have := (ends token rfl).2 op written
          have := level_of_operand? isOperand
          simp only [decide_eq_true_eq] at inTier
          omega
      rw [List.nil_append, parseOperations, noOperator]
      simp
  | @Operations.more _ _ _ _ _ _ _ _ others isOperand' isOperator operand following =>
    obtain ⟨_, fits⟩ := literalsFit_cons.mp fits
    obtain ⟨tokensFit, othersFit⟩ := literalsFit_append.mp fits
    have rhs := reads_of_expression operand tokensFit (others ++ rest)
      (ends_of_operations isOperand' following ends)
    have final := reads_of_operations isOperand' following othersFit rest ends
    cases isOperand.symm.trans isOperand'
    have found := operator_iff.mp isOperator
    rw [level_of_operand? isOperand] at found
    rw [List.cons_append, List.append_assoc, parseOperations, found]
    simp only [reads_optional_iff, reads_afterToken_iff, reads_andMaybe_iff]
    exact ⟨_, _, rhs.within, rhs, final⟩

theorem reads_of_primary {tokens : List Token} {expr : Expr Unit}
    (derived : Primary tokens expr) (fits : LiteralsFit tokens) (rest : List Token)
    (noCall : ∀ token ∈ rest.head?, token.kind ≠ .leftParen) :
    Reads (parsePrimary stop (tokens ++ rest)) expr rest := by
  match derived with
  | @Primary.var name isName =>
    have noLiteral : name.literal? = none := by simp [Token.literal?, isName]
    rw [List.singleton_append, parsePrimary, noLiteral, isName,
      take?_eq_none_iff.mpr noCall]
    simp [identOf]
  | .literal isLiteral =>
    rw [List.singleton_append, parsePrimary, literal?_eq_ok_iff.mpr ⟨isLiteral, fits⟩]
    simp
  | @Primary.call name _ _ _ _ isName opens between closes =>
    have noLiteral : name.literal? = none := by simp [Token.literal?, isName]
    simp only [literalsFit_cons, literalsFit_append] at fits
    have inner := reads_of_arguments between fits.2.2.1 rest closes
    rw [List.cons_append, List.cons_append, List.append_assoc, List.singleton_append,
      parsePrimary, noLiteral, isName, take?_of_kind opens]
    simp only [reads_afterToken_iff, reads_after_iff, reads_give_iff]
    exact ⟨_, inner, rfl⟩
  | @Primary.group opening closing _ _ opens between closes =>
    have noLiteral : opening.literal? = none := by simp [Token.literal?, opens]
    simp only [literalsFit_cons, literalsFit_append] at fits
    have inner := reads_of_expression between fits.2.1 (closing :: rest)
      (ends_of_kind (by simp [closes]) (by simp [closes, binaryOperator?]))
    rw [List.cons_append, List.append_assoc, List.singleton_append, parsePrimary, noLiteral,
      opens]
    simp only [reads_afterToken_iff, reads_andThen_iff, reads_give_iff, reads_expect_iff]
    exact ⟨_, _, inner.within, inner, _, ⟨rfl, closes⟩, rfl⟩
  | @Primary.cast word _ closing op _ _ isCast opens between closes =>
    obtain ⟨ty, isType⟩ : ∃ ty, word.kind = .typeName ty := by
      generalize word.kind = kind at isCast
      cases isCast <;> exact ⟨_, rfl⟩
    have noLiteral : word.literal? = none := by simp [Token.literal?, isType]
    simp only [literalsFit_cons, literalsFit_append] at fits
    have inner := reads_of_expression between fits.2.2.1 (closing :: rest)
      (ends_of_kind (by simp [closes]) (by simp [closes, binaryOperator?]))
    rw [List.cons_append, List.cons_append, List.append_assoc, List.singleton_append,
      parsePrimary, noLiteral, isType]
    simp only [castWord_iff.mp (isType ▸ isCast), reads_afterToken_iff, reads_andThen_iff,
      reads_give_iff, reads_expect_iff]
    exact ⟨_, _, Nat.lt_succ_self _, ⟨rfl, opens⟩, _, _, inner.within, inner, _,
      ⟨rfl, closes⟩, rfl⟩

theorem reads_of_arguments {tokens : List Token} {arguments : List (Expr Unit)}
    (derived : Arguments tokens arguments) (fits : LiteralsFit tokens) (rest : List Token)
    {close : Token} (closes : close.kind = .rightParen) :
    Reads (parseArguments stop (tokens ++ close :: rest)) (arguments, close) rest := by
  match derived with
  | .none =>
    rw [List.nil_append, parseArguments, if_pos closes]
    simp
  | .some listed =>
    have list := reads_of_argumentList listed fits rest closes
    obtain ⟨token, others, rfl, notClosing⟩ : ∃ token others,
        tokens = token :: others ∧ token.kind ≠ .rightParen := by
      cases listed with
      | last first => exact head_of_expression first
      | more first _ _ =>
        obtain ⟨token, others, rfl, notClosing⟩ := head_of_expression first
        exact ⟨token, _, rfl, notClosing⟩
    rw [List.cons_append, parseArguments, if_neg notClosing]
    exact list

theorem reads_of_argumentList {tokens : List Token} {arguments : List (Expr Unit)}
    (derived : ArgumentList tokens arguments) (fits : LiteralsFit tokens) (rest : List Token)
    {close : Token} (closes : close.kind = .rightParen) :
    Reads (parseArgumentList stop (tokens ++ close :: rest)) (arguments, close) rest := by
  match derived with
  | .last first =>
    have argument := reads_of_expression first fits (close :: rest)
      (ends_of_kind (by simp [closes]) (by simp [closes, binaryOperator?]))
    have notComma : take? .comma (close :: rest) = none := by simp [take?_cons, closes]
    rw [parseArgumentList, reads_andThen_iff]
    refine ⟨_, _, argument.within, argument, ?_⟩
    simp only [notComma, reads_give_iff, reads_expect_iff]
    exact ⟨_, ⟨rfl, closes⟩, rfl⟩
  | @ArgumentList.more _ others comma _ _ first separates following =>
    simp only [literalsFit_cons, literalsFit_append] at fits
    have argument := reads_of_expression first fits.1 (comma :: (others ++ close :: rest))
      (ends_of_kind (by simp [separates]) (by simp [separates, binaryOperator?]))
    have list := reads_of_argumentList following fits.2.2 rest closes
    rw [List.append_assoc, List.cons_append, parseArgumentList, reads_andThen_iff]
    refine ⟨_, _, argument.within, argument, ?_⟩
    simp only [take?_of_kind separates, reads_after_iff, reads_give_iff]
    exact ⟨_, list, rfl⟩

end

end Completeness

end TypedImp.Grammar
