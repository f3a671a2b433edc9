import TypedImp.Program.Parser.Basic
import TypedImp.Token.Literal

/-!
# Reading expressions

Binary operators stand in six tiers, from the one that binds tightest to the loosest, and
associate to the left within a tier.  Tier zero holds the operands: a primary expression
with at most one unary operator before it.
-/

namespace TypedImp.Parser

/-- The tier of a binary operator: the smaller, the tighter it binds. -/
def tierOf : BinaryOperator → Nat
  | .mul | .div => 1
  | .add | .sub => 2
  | .lt | .le | .gt | .ge => 3
  | .eq | .ne => 4
  | .and => 5
  | .or => 6

/-- The tier of the loosest operators. -/
def loosestTier : Nat :=
  6

/-- The binary operator that a token writes. -/
def binaryOperator? : TokenKind → Option BinaryOperator
  | .or => some .or
  | .and => some .and
  | .eqEq => some .eq
  | .notEq => some .ne
  | .less => some .lt
  | .lessEq => some .le
  | .greater => some .gt
  | .greaterEq => some .ge
  | .plus => some .add
  | .minus => some .sub
  | .star => some .mul
  | .slash => some .div
  | _ => none

/-- The operator that a token writes, if it belongs to the tier. -/
def operatorInTier? (tier : Nat) (kind : TokenKind) : Option BinaryOperator :=
  (binaryOperator? kind).filter fun op => tierOf op = tier

/-- The operator that a token writes before an operand. -/
def unaryOperator? : TokenKind → Option UnaryOperator
  | .not => some .not
  | .minus => some .neg
  | _ => none

variable (stop : Nat)

mutual

/-- Read an expression with operators up to a tier. -/
def parseTier (tier : Nat) (tokens : List Token) : Result (Parsed tokens.length (Expr Unit)) :=
  match tier with
  | 0 => parseOperand tokens
  | tier + 1 =>
    andMaybe (parseTier tier tokens) fun lhs rest _shorter => parseOperations tier lhs rest
termination_by 9 * tokens.length + tier + 2
decreasing_by all_goals omega

/-- Read operators of the tier above `tier` with their right operands, and apply them to
what stands on the left. -/
def parseOperations (tier : Nat) (lhs : Expr Unit) (tokens : List Token) :
    Result (Parsed (tokens.length + 1) (Expr Unit)) :=
  match tokens with
  | [] => nothing lhs []
  | token :: rest =>
    match operatorInTier? (tier + 1) token.kind with
    | none => nothing lhs (token :: rest)
    | some op =>
      optional <| afterToken token <|
        andMaybe (parseTier tier rest) fun rhs rest _shorter =>
          parseOperations tier (.binary op () lhs rhs (lhs.span.cover rhs.span)) rest
termination_by 9 * tokens.length + tier + 3
decreasing_by all_goals simp only [List.length_cons]; omega

/-- Read a primary expression with or without an operator before it. -/
def parseOperand (tokens : List Token) : Result (Parsed tokens.length (Expr Unit)) :=
  match tokens with
  | [] => parsePrimary []
  | token :: rest =>
    match unaryOperator? token.kind with
    | none => parsePrimary (token :: rest)
    | some op =>
      afterToken token <| give (parsePrimary rest) fun operand =>
        .unary op () operand (token.span.cover operand.span)
termination_by 9 * tokens.length + 1
decreasing_by
  · omega
  · omega
  · simp only [List.length_cons]; omega

/-- Read a variable, a call, a literal, an expression in parentheses or a cast.
Parentheses leave no trace in what is read. -/
def parsePrimary (tokens : List Token) : Result (Parsed tokens.length (Expr Unit)) :=
  match tokens with
  | [] => refuse (Token.endAt stop) (.unexpectedInExpression .endOfInput)
  | token :: rest =>
    match token.literal? with
    | some (.ok value) => single (.literal value token.span) token rest
    | some (.error .intTooLarge) => refuse token .intOutOfRange
    | none =>
      match token.kind with
      | .identifier =>
        match take? .leftParen rest with
        | none => single (.var (identOf token) token.span) token rest
        | some ⟨_, behind, opened⟩ =>
          afterToken token <| after opened <|
            give (parseArguments behind) fun (arguments, close) =>
              let span := token.span.cover close.span
              .call (identOf token) arguments span span
      | .leftParen =>
        afterToken token <| andThen (parseTier loosestTier rest) fun expr rest _ =>
          give (expect stop .rightParen rest) fun _ => expr
      | .typeName ty =>
        match UnaryOperator.castTo? ty with
        | none => refuse token (.invalidCast ty)
        | some op =>
          afterToken token <|
            andThen (expect stop .leftParen rest) fun _ rest _opened =>
            andThen (parseTier loosestTier rest) fun operand rest _ =>
            give (expect stop .rightParen rest) fun close =>
              .unary op () operand (token.span.cover close.span)
      | kind => refuse token (.unexpectedInExpression kind)
termination_by 9 * tokens.length
decreasing_by all_goals simp only [List.length_cons, loosestTier]; omega

/-- Read the arguments of a call behind its opening parenthesis, and the closing one. -/
def parseArguments (tokens : List Token) :
    Result (Parsed tokens.length (List (Expr Unit) × Token)) :=
  match tokens with
  | [] => parseArgumentList []
  | token :: rest =>
    if token.kind = .rightParen then
      single ([], token) token rest
    else
      parseArgumentList (token :: rest)
termination_by 9 * tokens.length + 10
decreasing_by all_goals omega

/-- Read one argument or more with commas between them, and the closing parenthesis. -/
def parseArgumentList (tokens : List Token) :
    Result (Parsed tokens.length (List (Expr Unit) × Token)) :=
  andThen (parseTier loosestTier tokens) fun argument rest _shorter =>
    match take? .comma rest with
    | none => give (expect stop .rightParen rest) fun close => ([argument], close)
    | some ⟨_, rest, separated⟩ =>
      after separated <| give (parseArgumentList rest) fun (arguments, close) =>
        (argument :: arguments, close)
termination_by 9 * tokens.length + 9
decreasing_by
  · simp only [loosestTier]; omega
  · omega

end

/-- Read an expression. -/
def parseExpr (tokens : List Token) : Result (Parsed tokens.length (Expr Unit)) :=
  parseTier stop loosestTier tokens

end TypedImp.Parser
