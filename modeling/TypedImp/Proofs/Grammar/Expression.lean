import TypedImp.Token.Literal
import TypedImp.Program.Basic

/-!
# The grammar of expressions

Each tier of binary operators has the next tighter tier for operands.  A repetition
`operand {operator operand}` is a tree that is folded to the left, and parentheses leave
no node.  `Expression` relates the tokens of a tier to the tree that they write.
-/

namespace TypedImp.Grammar

/-- The tiers of expressions, from the loosest operators to the operands of the tightest. -/
inductive Tier where
  | expression
  | conjunction
  | equality
  | relation
  | addition
  | term
  | factor
  deriving DecidableEq

/-- The tier of the operands of a tier's operators. -/
def Tier.operand? : Tier → Option Tier
  | .expression => some .conjunction
  | .conjunction => some .equality
  | .equality => some .relation
  | .relation => some .addition
  | .addition => some .term
  | .term => some .factor
  | .factor => none

/-- The operators of each tier and the tokens that write them. -/
inductive Operator : Tier → TokenKind → BinaryOperator → Prop where
  | or : Operator .expression .or .or
  | and : Operator .conjunction .and .and
  | eq : Operator .equality .eqEq .eq
  | ne : Operator .equality .notEq .ne
  | lt : Operator .relation .less .lt
  | le : Operator .relation .lessEq .le
  | gt : Operator .relation .greater .gt
  | ge : Operator .relation .greaterEq .ge
  | add : Operator .addition .plus .add
  | sub : Operator .addition .minus .sub
  | mul : Operator .term .star .mul
  | div : Operator .term .slash .div

/-- The operators that stand before their operand. -/
inductive Sign : TokenKind → UnaryOperator → Prop where
  | not : Sign .not .not
  | neg : Sign .minus .neg

/-- The words that begin a cast. -/
inductive CastWord : TokenKind → UnaryOperator → Prop where
  | int : CastWord (.typeName .int) .intCast
  | float : CastWord (.typeName .float) .floatCast
  | char : CastWord (.typeName .char) .charCast

/-- The literals and their values. -/
inductive Literal : Token → Value → Prop where
  | int {token : Token} (isInt : token.kind = .intLiteral) :
      Literal token (.int (Int32.ofNat (Text.digitsValue token.text.toList)))
  | float {token : Token} (isFloat : token.kind = .floatLiteral) :
      Literal token (.float (Token.floatValue token.text))
  | char {token : Token} (isChar : token.kind = .charLiteral) :
      Literal token (.char (Token.charValue token.text))
  | true {token : Token} (isTrue : token.kind = .trueWord) : Literal token (.bool true)
  | false {token : Token} (isFalse : token.kind = .falseWord) : Literal token (.bool false)

/-- Every integer literal can be read as an integer of 32 bits. -/
def LiteralsFit (tokens : List Token) : Prop :=
  ∀ token ∈ tokens, token.kind = .intLiteral →
    Text.digitsValue token.text.toList ≤ 2147483647

mutual

/-- The expressions of a tier. -/
inductive Expression : Tier → List Token → Expr Unit → Prop where
  | chain {tier inner : Tier} {first others : List Token} {lhs expr : Expr Unit}
      (isOperand : tier.operand? = some inner) (operand : Expression inner first lhs)
      (operations : Operations tier lhs others expr) :
      Expression tier (first ++ others) expr
  | primary {tokens : List Token} {expr : Expr Unit} (plain : Primary tokens expr) :
      Expression .factor tokens expr
  | signed {sign : Token} {op : UnaryOperator} {tokens : List Token} {operand : Expr Unit}
      (isSign : Sign sign.kind op) (plain : Primary tokens operand) :
      Expression .factor (sign :: tokens) (.unary op () operand (sign.span.cover operand.span))

/-- The rest `{operator operand}` of an expression of a tier, which is applied to the
expression on its left. -/
inductive Operations : Tier → Expr Unit → List Token → Expr Unit → Prop where
  | none {tier : Tier} {lhs : Expr Unit} : Operations tier lhs [] lhs
  | more {tier inner : Tier} {lhs rhs expr : Expr Unit} {sign : Token} {op : BinaryOperator}
      {tokens others : List Token} (isOperand : tier.operand? = some inner)
      (isOperator : Operator tier sign.kind op) (operand : Expression inner tokens rhs)
      (following :
        Operations tier (.binary op () lhs rhs (lhs.span.cover rhs.span)) others expr) :
      Operations tier lhs (sign :: (tokens ++ others)) expr

/-- Variables, literals, calls, expressions in parentheses and casts. -/
inductive Primary : List Token → Expr Unit → Prop where
  | var {name : Token} (isName : name.kind = .identifier) :
      Primary [name] (.var ⟨name.text, name.span⟩ name.span)
  | literal {token : Token} {value : Value} (isLiteral : Literal token value) :
      Primary [token] (.literal value token.span)
  | call {name opening closing : Token} {tokens : List Token} {arguments : List (Expr Unit)}
      (isName : name.kind = .identifier) (opens : opening.kind = .leftParen)
      (between : Arguments tokens arguments) (closes : closing.kind = .rightParen) :
      Primary (name :: opening :: (tokens ++ [closing]))
        (.call ⟨name.text, name.span⟩ arguments (name.span.cover closing.span)
          (name.span.cover closing.span))
  | group {opening closing : Token} {tokens : List Token} {expr : Expr Unit}
      (opens : opening.kind = .leftParen) (between : Expression .expression tokens expr)
      (closes : closing.kind = .rightParen) :
      Primary (opening :: (tokens ++ [closing])) expr
  | cast {word opening closing : Token} {op : UnaryOperator} {tokens : List Token}
      {operand : Expr Unit} (isCast : CastWord word.kind op)
      (opens : opening.kind = .leftParen) (between : Expression .expression tokens operand)
      (closes : closing.kind = .rightParen) :
      Primary (word :: opening :: (tokens ++ [closing]))
        (.unary op () operand (word.span.cover closing.span))

/-- The arguments of a call. -/
inductive Arguments : List Token → List (Expr Unit) → Prop where
  | none : Arguments [] []
  | some {tokens : List Token} {arguments : List (Expr Unit)}
      (listed : ArgumentList tokens arguments) : Arguments tokens arguments

/-- One argument or more with commas between them. -/
inductive ArgumentList : List Token → List (Expr Unit) → Prop where
  | last {tokens : List Token} {argument : Expr Unit}
      (first : Expression .expression tokens argument) : ArgumentList tokens [argument]
  | more {tokens others : List Token} {comma : Token} {argument : Expr Unit}
      {arguments : List (Expr Unit)} (first : Expression .expression tokens argument)
      (separates : comma.kind = .comma) (following : ArgumentList others arguments) :
      ArgumentList (tokens ++ comma :: others) (argument :: arguments)

end

@[simp]
theorem literalsFit_nil : LiteralsFit [] := by
  simp [LiteralsFit]

@[simp]
theorem literalsFit_cons {token : Token} {tokens : List Token} :
    LiteralsFit (token :: tokens) ↔
      (token.kind = .intLiteral → Text.digitsValue token.text.toList ≤ 2147483647) ∧
        LiteralsFit tokens := by
  simp [LiteralsFit]

@[simp]
theorem literalsFit_append {first second : List Token} :
    LiteralsFit (first ++ second) ↔ LiteralsFit first ∧ LiteralsFit second := by
  simp [LiteralsFit, or_imp, forall_and]

end TypedImp.Grammar
