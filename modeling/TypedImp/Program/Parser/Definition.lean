import TypedImp.Program.Parser.Statement
import TypedImp.Recorded

/-!
# Reading programs

A program is a sequence of global declarations and functions.  Names are checked while
they are read: a parameter when the list of parameters is complete, a function when its
body is complete, and any other variable at once.
-/

namespace TypedImp

/-- A function that was read, before its name is compared with earlier ones. -/
structure Registration where
  name : String
  params : Nat
  locals : Nat
  deriving DecidableEq

namespace Parser

/-- Add a variable to a scope. -/
def declare (scope : Definitions Declaration) (name : Ident) (ty : Ty) :
    Result (Definitions Declaration) :=
  if ty = .void then
    .error ⟨name.span, .voidVariable name.name⟩
  else
    match scope.insert ⟨name, ty⟩ with
    | .ok extended => .ok extended
    | .error earlier =>
      .error ⟨name.span, .duplicateDeclaration earlier.name.name earlier.name.span⟩

/-- Add a local variable to a scope; it may not have the name of a parameter. -/
def declareLocal (params scope : Definitions Declaration) (name : Ident) (ty : Ty) :
    Result (Definitions Declaration) :=
  match params.get? name.name with
  | some earlier =>
    .error ⟨name.span, .duplicateDeclaration name.name earlier.name.span⟩
  | none => declare scope name ty

variable (stop : Nat)

/-- Read the names of a declaration up to its semicolon, and add each with `add`. -/
def parseNames (add : Definitions Declaration → Ident → Result (Definitions Declaration))
    (scope : Definitions Declaration) (name : Ident) (tokens : List Token) :
    Result (Parsed tokens.length (Definitions Declaration)) := do
  let extended ← add scope name
  match take? .comma tokens with
  | none => give (expect stop .semicolon tokens) fun _ => extended
  | some ⟨_, rest, separated⟩ =>
    after separated <| andThen (parseIdent stop rest) fun next rest _named =>
      parseNames add extended next rest
termination_by tokens.length
decreasing_by omega

/-- Read one parameter or more, and the closing parenthesis. -/
def parseParamList (tokens : List Token) :
    Result (Parsed tokens.length (List Declaration)) :=
  andThen (parseType stop tokens) fun ty rest _typed =>
  andThen (parseIdent stop rest) fun name rest _named =>
    match take? .comma rest with
    | none => give (expect stop .rightParen rest) fun _ => [⟨name, ty⟩]
    | some ⟨_, rest, separated⟩ =>
      after separated <| give (parseParamList rest) fun following => ⟨name, ty⟩ :: following
termination_by tokens.length
decreasing_by omega

/-- Read the parameters of a function behind the opening parenthesis, and the closing
one. -/
def parseParams (tokens : List Token) :
    Result (Parsed tokens.length (List Declaration)) :=
  match take? .rightParen tokens with
  | some ⟨_, rest, closed⟩ => .ok ⟨[], rest, closed⟩
  | none => parseParamList stop tokens

/-- Read the declarations at the start of a body, as long as a type comes next. -/
def parseLocals (params scope : Definitions Declaration) (tokens : List Token) :
    Result (Parsed (tokens.length + 1) (Definitions Declaration)) :=
  match tokens with
  | [] => nothing scope []
  | token :: rest =>
    match token.kind with
    | .typeName ty =>
      let add scope name := declareLocal params scope name ty
      optional <| afterToken token <|
        andThen (parseIdent stop rest) fun name rest _named =>
        andMaybe (parseNames stop add scope name rest) fun scope rest _declared =>
          parseLocals params scope rest
    | _ => nothing scope (token :: rest)
termination_by tokens.length
decreasing_by simp only [List.length_cons]; omega

/-- The scope of the parameters of a function. -/
def declareParams (formals : List Declaration) : Result (Definitions Declaration) :=
  formals.foldlM (fun scope formal => declare scope formal.name formal.ty) .empty

/-- Read a function behind its name. -/
def parseFunction (returnTy : Ty) (name : Ident) (tokens : List Token) :
    Result (Parsed tokens.length (Function Unit)) :=
  andThen (expect stop .leftParen tokens) fun _ rest _ =>
  andThen (parseParams stop rest) fun formals rest _ => do
    let params ← declareParams formals
    andThen (andMaybe (expect stop .leftBrace rest) fun _ rest _ =>
      parseLocals stop params .empty rest) fun locals rest _ =>
    give (parseBlock stop rest) fun body => ⟨returnTy, name, params, locals, body⟩

/-- Read definitions up to the end of the source, and add them to those before. -/
def parseDefinitions (program : Program Unit) (tokens : List Token) :
    Recorded Registration (Spanned SyntaxError) (Program Unit) :=
  match tokens with
  | [] => return program
  | token :: rest => do
    let ⟨ty, rest, _typed⟩ ← .ofExcept (parseType stop (token :: rest))
    let ⟨name, rest, _named⟩ ← .ofExcept (parseIdent stop rest)
    match take? .leftParen rest with
    | some _ =>
      let ⟨function, rest, _shorter⟩ ← .ofExcept (parseFunction stop ty name rest)
      Recorded.record ⟨name.name, function.params.size, function.locals.size⟩
      match program.functions.insert function with
      | .ok functions => parseDefinitions { program with functions } rest
      | .error earlier =>
        .fail ⟨name.span, .duplicateFunction earlier.name.name earlier.name.span⟩
    | none =>
      let add scope name := declare scope name ty
      let ⟨globals, rest, _shorter⟩ ← .ofExcept (parseNames stop add program.globals name rest)
      parseDefinitions { program with globals } rest
termination_by tokens.length
decreasing_by
  · simp only [List.length_cons] at *; omega
  · simp only [List.length_cons] at *; omega

end Parser

namespace Program

/-- The program without definitions. -/
def empty {τ : Type} : Program τ :=
  ⟨.empty, .empty⟩

/-- Read a program from a scanned source, and record the functions on the way. -/
def ofLexed (lexed : Lexed) : Recorded Registration (Spanned SyntaxError) (Program Unit) :=
  match lexed.ending with
  | .error error => .fail (error.map SyntaxError.lexical)
  | .ok stop => Parser.parseDefinitions stop .empty lexed.tokens

end Program

/-- Read an expression that makes up the whole source. -/
def Expr.ofLexed (lexed : Lexed) : Except (Spanned SyntaxError) (Expr Unit) :=
  match lexed.ending with
  | .error error => .error (error.map SyntaxError.lexical)
  | .ok stop => do
    let ⟨expr, rest, _⟩ ← Parser.parseExpr stop lexed.tokens
    match rest with
    | [] => return expr
    | token :: _ => Parser.refuse token (.unexpected token.kind .endOfInput)

end TypedImp
