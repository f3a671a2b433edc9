import TypedImp.Program.Parser.Expression

/-!
# Reading statements

A statement is known by its first token.  An `else` belongs to the nearest `if` that is
still open.
-/

namespace TypedImp.Parser

variable (stop : Nat)

/-- Read an expression in parentheses. -/
def parseTest (tokens : List Token) : Result (Parsed tokens.length (Expr Unit)) :=
  andThen (expect stop .leftParen tokens) fun _ rest _ =>
  andThen (parseExpr stop rest) fun test rest _ =>
  give (expect stop .rightParen rest) fun _ => test

/-- Read what follows an identifier at the start of a statement: a call or an
assignment. -/
def parseCallOrAssignment (target : Ident) (tokens : List Token) :
    Result (Parsed tokens.length (Stmt Unit)) :=
  match take? .leftParen tokens with
  | some ⟨_, rest, opened⟩ =>
    after opened <|
      andThen (parseArguments stop rest) fun (arguments, close) rest _ =>
      give (expect stop .semicolon rest) fun _ =>
        .call target arguments (target.span.cover close.span)
  | none =>
    andThen (expect stop .assign tokens) fun _ rest _ =>
    andThen (parseExpr stop rest) fun value rest _ =>
    give (expect stop .semicolon rest) fun _ => .assign target value

/-- Read the value of a `giveBack` behind its first word. -/
def parseGivenBack (word : Token) (tokens : List Token) :
    Result (Parsed tokens.length (Stmt Unit)) :=
  andThen (parseExpr stop tokens) fun value rest _ =>
  give (expect stop .semicolon rest) fun _ => .giveBack value word.span

mutual

/-- Read a statement. -/
def parseStatement (tokens : List Token) : Result (Parsed tokens.length (Stmt Unit)) :=
  match tokens with
  | [] => refuse (Token.endAt stop) (.unexpectedInStatement .endOfInput)
  | token :: rest =>
    match token.kind with
    | .semicolon => single .skip token rest
    | .leftBrace => afterToken token <| give (parseBlock rest) .block
    | .ifWord =>
      afterToken token <|
        andThen (parseTest stop rest) fun test rest _tested =>
        andMaybe (parseStatement rest) fun thenBranch rest _shorter =>
          match take? .elseWord rest with
          | none => nothing (.conditional test thenBranch .skip) rest
          | some ⟨_, rest, otherwise⟩ =>
            optional <| after otherwise <| give (parseStatement rest) fun elseBranch =>
              .conditional test thenBranch elseBranch
    | .whileWord =>
      afterToken token <|
        andThen (parseTest stop rest) fun test rest _tested =>
        give (parseStatement rest) fun body => .loop test body
    | .returnWord => afterToken token <| parseGivenBack stop token rest
    | .identifier => afterToken token <| parseCallOrAssignment stop (identOf token) rest
    | kind => refuse token (.unexpectedInStatement kind)
termination_by 2 * tokens.length
decreasing_by all_goals simp only [List.length_cons]; omega

/-- Read statements up to a closing brace, and the brace. -/
def parseBlock (tokens : List Token) :
    Result (Parsed tokens.length (List (Stmt Unit))) :=
  match tokens with
  | [] => refuse (Token.endAt stop) (.unexpected .endOfInput .rightBrace)
  | token :: rest =>
    if token.kind = .rightBrace then
      single [] token rest
    else
      andThen (parseStatement (token :: rest)) fun first rest _shorter =>
      give (parseBlock rest) fun following => first :: following
termination_by 2 * tokens.length + 1
decreasing_by
  · omega
  · simp only [List.length_cons] at *; omega

end

end TypedImp.Parser
