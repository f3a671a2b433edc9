import TypedImp.Proofs.Grammar.Reader

/-!
# Reading with a cursor

The grammar can be read with a cursor that is moved over a tape of tokens: loops go on as long as
the token at the cursor allows it, and what is nested calls itself.  Nothing in these definitions
says that a loop moves the cursor.  Instead `fuel` bounds the rounds of each loop and the depth of
what is nested, and a walk that would need more is not finished.
-/

namespace TypedImp

/-- What reads with a cursor and moves it.  It fails, it gives a value, or it is not finished. -/
abbrev Walk (α : Type) :=
  StateT Nat (ExceptT (Spanned SyntaxError) Option) α

namespace Walk

open TypedImp.Parser (identOf operatorInTier? unaryOperator? loosestTier declare declareLocal
  declareParams addFunction)

variable {α : Type}

/-- The fuel is used up. -/
def unfinished : Walk α :=
  fun _ => ExceptT.mk none

/-- Take over an outcome that does not depend on the cursor. -/
def settled (outcome : Except (Spanned SyntaxError) α) : Walk α :=
  fun cursor => ExceptT.mk (some (outcome.map fun value => (value, cursor)))

/-- Refuse a token. -/
def refuse (token : Token) (content : SyntaxError) : Walk α :=
  settled (.error ⟨token.span, content⟩)

variable (tape : Nat → Token)

/-- The token at the cursor. -/
def peek : Walk Token := do
  return tape (← get)

/-- Take the token at the cursor; behind the end of the source there is nothing to move to. -/
def advance : Walk Token := do
  let token ← peek tape
  if token.kind ≠ .endOfInput then modify (· + 1)
  return token

/-- Whether the token at the cursor is of a kind. -/
def isNext (kind : TokenKind) : Walk Bool := do
  return (← peek tape).kind = kind

/-- Take the token at the cursor if it is of a kind, and say whether it was. -/
def takeIf (kind : TokenKind) : Walk Bool := do
  if ← isNext tape kind then
    let _ ← advance tape
    return true
  else
    return false

/-- Take the token at the cursor, which has to be of a kind. -/
def consume (kind : TokenKind) : Walk Token := do
  let token ← peek tape
  if token.kind = kind then
    let _ ← advance tape
    return token
  else
    refuse token (.unexpected token.kind kind)

/-- Whether the token at the cursor is none of some kinds and not the end of the source. -/
def goesOn (closing : List TokenKind) : Walk Bool := do
  let token ← peek tape
  return token.kind ≠ .endOfInput ∧ token.kind ∉ closing

/-- Take the name of a type. -/
def typeName : Walk Ty := do
  let token ← peek tape
  match token.kind with
  | .typeName ty =>
    let _ ← advance tape
    return ty
  | kind => refuse token (.expectedType kind)

/-- Take an identifier. -/
def ident : Walk Ident := do
  return identOf (← consume tape .identifier)

/-- Read one item or more, as long as a separator comes behind each. -/
def items (separator : TokenKind) (item : Walk α) : Nat → Walk (List α)
  | 0 => unfinished
  | fuel + 1 => do
    let first ← item
    if ← takeIf tape separator then
      let following ← items separator item fuel
      return first :: following
    else
      return [first]

/-- Read items with a separator between them up to a closing token, which is left. -/
def list (closing separator : TokenKind) (item : Walk α) (fuel : Nat) : Walk (List α) := do
  if ← isNext tape closing then
    return []
  else
    items tape separator item fuel

section Expressions

variable (expr : Walk (Expr Unit)) (fuel : Nat)

/-- Read the arguments of a call in their parentheses, and give them with the span of the call. -/
def call (callee : Ident) : Walk (List (Expr Unit) × Span) := do
  let _ ← consume tape .leftParen
  let arguments ← list tape .rightParen .comma expr fuel
  let close ← consume tape .rightParen
  return (arguments, callee.span.cover close.span)

/-- Read a variable, a call, a literal, an expression in parentheses or a cast. -/
def primary : Walk (Expr Unit) := do
  let token ← advance tape
  match token.literal? with
  | some (.ok value) => return .literal value token.span
  | some (.error .intTooLarge) => refuse token .intOutOfRange
  | none =>
    match token.kind with
    | .identifier =>
      if ← isNext tape .leftParen then
        let (arguments, span) ← call tape expr fuel (identOf token)
        return .call (identOf token) arguments span span
      else
        return .var (identOf token) token.span
    | .leftParen =>
      let inner ← expr
      let _ ← consume tape .rightParen
      return inner
    | .typeName ty =>
      match UnaryOperator.castTo? ty with
      | none => refuse token (.invalidCast ty)
      | some op =>
        let _ ← consume tape .leftParen
        let operand ← expr
        let close ← consume tape .rightParen
        return .unary op () operand (token.span.cover close.span)
    | kind => refuse token (.unexpectedInExpression kind)

/-- Read a primary expression with or without an operator before it. -/
def operand : Walk (Expr Unit) := do
  let token ← peek tape
  match unaryOperator? token.kind with
  | none => primary tape expr fuel
  | some op =>
    let _ ← advance tape
    let operand ← primary tape expr fuel
    return .unary op () operand (token.span.cover operand.span)

/-- Apply operators of the tier above `tier` to what stands on their left, as long as one comes
next; `next` reads what stands on their right. -/
def operations (tier : Nat) (next : Walk (Expr Unit)) : Nat → Expr Unit → Walk (Expr Unit)
  | 0, _ => unfinished
  | fuel + 1, lhs => do
    let token ← peek tape
    match operatorInTier? (tier + 1) token.kind with
    | none => return lhs
    | some op =>
      let _ ← advance tape
      let rhs ← next
      operations tier next fuel (.binary op () lhs rhs (lhs.span.cover rhs.span))

/-- Read an expression with operators up to a tier; `expr` reads what stands in parentheses. -/
def tier : Nat → Walk (Expr Unit)
  | 0 => operand tape expr fuel
  | number + 1 => do
    let lhs ← tier number
    operations tape number (tier number) fuel lhs

end Expressions

/-- Read an expression. -/
def expr : Nat → Walk (Expr Unit)
  | 0 => unfinished
  | fuel + 1 => tier tape (expr fuel) fuel loosestTier

/-- Read an expression in parentheses. -/
def parenthesized (fuel : Nat) : Walk (Expr Unit) := do
  let _ ← consume tape .leftParen
  let test ← expr tape fuel
  let _ ← consume tape .rightParen
  return test

/-- Read statements up to a closing token, which is left. -/
def statements (closing : TokenKind) (statement : Walk (Stmt Unit)) : Nat → Walk (List (Stmt Unit))
  | 0 => unfinished
  | fuel + 1 => do
    if ← goesOn tape [closing] then
      let first ← statement
      let following ← statements closing statement fuel
      return first :: following
    else
      return []

/-- Read a statement. -/
def statement : Nat → Walk (Stmt Unit)
  | 0 => unfinished
  | fuel + 1 => do
    let token ← peek tape
    match token.kind with
    | .semicolon =>
      let _ ← advance tape
      return .skip
    | .leftBrace =>
      let _ ← advance tape
      let body ← statements tape .rightBrace (statement fuel) fuel
      let _ ← consume tape .rightBrace
      return .block body
    | .ifWord =>
      let _ ← advance tape
      let test ← parenthesized tape fuel
      let thenBranch ← statement fuel
      if ← takeIf tape .elseWord then
        let elseBranch ← statement fuel
        return .conditional test thenBranch elseBranch
      else
        return .conditional test thenBranch .skip
    | .whileWord =>
      let _ ← advance tape
      let test ← parenthesized tape fuel
      let body ← statement fuel
      return .loop test body
    | .returnWord =>
      let _ ← advance tape
      let value ← expr tape fuel
      let _ ← consume tape .semicolon
      return .giveBack value token.span
    | .identifier =>
      let target ← ident tape
      if ← isNext tape .leftParen then
        let (arguments, span) ← call tape (expr tape fuel) fuel target
        let _ ← consume tape .semicolon
        return .call target arguments span
      else
        let _ ← consume tape .assign
        let value ← expr tape fuel
        let _ ← consume tape .semicolon
        return .assign target value
    | kind => refuse token (.unexpectedInStatement kind)

/-- Add more names to a scope, as long as a comma comes before each. -/
def moreNames (add : Definitions Declaration → Ident →
    Except (Spanned SyntaxError) (Definitions Declaration)) :
    Nat → Definitions Declaration → Walk (Definitions Declaration)
  | 0, _ => unfinished
  | fuel + 1, scope => do
    if ← takeIf tape .comma then
      let name ← ident tape
      let extended ← settled (add scope name)
      moreNames add fuel extended
    else
      return scope

/-- Read the declarations at the start of a body, as long as a type comes next. -/
def locals (params : Definitions Declaration) :
    Nat → Definitions Declaration → Walk (Definitions Declaration)
  | 0, _ => unfinished
  | fuel + 1, scope => do
    if (← peek tape).kind.isType then
      let ty ← typeName tape
      let add scope name := declareLocal params scope name ty
      let name ← ident tape
      let extended ← settled (add scope name)
      let declared ← moreNames tape add fuel extended
      let _ ← consume tape .semicolon
      locals params fuel declared
    else
      return scope

/-- Read a parameter. -/
def formal : Walk Declaration := do
  let ty ← typeName tape
  let name ← ident tape
  return ⟨name, ty⟩

/-- Read a function behind its name. -/
def function (fuel : Nat) (returnTy : Ty) (name : Ident) : Walk (Function Unit) := do
  let _ ← consume tape .leftParen
  let formals ← list tape .rightParen .comma (formal tape) fuel
  let _ ← consume tape .rightParen
  let params ← settled (declareParams formals)
  let _ ← consume tape .leftBrace
  let declared ← locals tape params fuel .empty
  let body ← statements tape .rightBrace (statement tape fuel) fuel
  let _ ← consume tape .rightBrace
  return ⟨returnTy, name, params, declared, body⟩

/-- Read definitions as long as the end of the source is not reached, and add them to those
before. -/
def definitions : Nat → Program Unit → Walk (Program Unit)
  | 0, _ => unfinished
  | fuel + 1, program => do
    if ← goesOn tape [] then
      let ty ← typeName tape
      let name ← ident tape
      if ← isNext tape .leftParen then
        let function ← function tape fuel ty name
        let extended ← settled (addFunction program name function)
        definitions fuel extended
      else
        let add scope name := declare scope name ty
        let extended ← settled (add program.globals name)
        let globals ← moreNames tape add fuel extended
        let _ ← consume tape .semicolon
        definitions fuel { program with globals }
    else
      return program

/-- Read a program that makes up the whole source. -/
def program (fuel : Nat) : Walk (Program Unit) := do
  let whole ← definitions tape fuel .empty
  let _ ← consume tape .endOfInput
  return whole

end Walk

end TypedImp
