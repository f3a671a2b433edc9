import TypedImp.Program.Parser.Definition
import TypedImp.Proofs.Grammar.Combinators

/-!
# Parsers as readers

A parser without the bound on what it leaves is a state transformer on the tokens that are left.
In this form each parser is put together from those that it calls by sequences and by looks at
the next token; there is one equation for each of them.
-/

namespace TypedImp.Parser

variable {α β : Type} {limit : Nat}

/-- What reads something from the front of the tokens that are left. -/
abbrev Reader (α : Type) :=
  StateT (List Token) (Except (Spanned SyntaxError)) α

/-- Forget the bound on what is left. -/
def forget (result : Result (Parsed limit α)) :
    Except (Spanned SyntaxError) (α × List Token) :=
  match result with
  | .error error => .error error
  | .ok parsed => .ok (parsed.value, parsed.rest)

/-- A parser as a reader. -/
def reader {limit : List Token → Nat}
    (parse : (tokens : List Token) → Result (Parsed (limit tokens) α)) : Reader α :=
  fun tokens => forget (parse tokens)

theorem forget_eq_ok_iff {result : Result (Parsed limit α)} {value : α} {rest : List Token} :
    forget result = .ok (value, rest) ↔ Reads result value rest := by
  cases result with
  | error error => simp [forget, Reads]
  | ok parsed =>
    rw [reads_ok_iff]
    simp [forget]

/-- What a reader leaves is within the bound of its parser. -/
theorem length_lt_of_reader {limit : List Token → Nat}
    {parse : (tokens : List Token) → Result (Parsed (limit tokens) α)} {tokens rest : List Token}
    {value : α} (reads : reader parse tokens = .ok (value, rest)) :
    rest.length < limit tokens :=
  (forget_eq_ok_iff.mp reads).within

namespace Reader

/-- Read in one way behind a token of a kind, and in another way if something else comes next. -/
def ifNext (kind : TokenKind) (taken otherwise : Reader α) : Reader α :=
  fun tokens =>
    match take? kind tokens with
    | none => otherwise tokens
    | some ⟨_, rest, _⟩ => taken rest

/-- Take over an outcome that does not depend on the tokens. -/
def settled (outcome : Except (Spanned SyntaxError) α) : Reader α :=
  fun tokens =>
    match outcome with
    | .error error => .error error
    | .ok value => .ok (value, tokens)

/-- Refuse the next token; behind the last one that is the end of the source. -/
def refusal (stop : Nat) (content : SyntaxError) : Reader α :=
  fun tokens => .error ⟨(tokens.headD (.endAt stop)).span, content⟩

theorem ifNext_of_kind {kind : TokenKind} {taken otherwise : Reader α} {token : Token}
    (isKind : token.kind = kind) (rest : List Token) :
    ifNext kind taken otherwise (token :: rest) = taken rest := by
  rw [ifNext, take?_of_kind isKind]

theorem ifNext_of_head {kind : TokenKind} {taken otherwise : Reader α} {tokens : List Token}
    (notKind : ∀ token ∈ tokens.head?, token.kind ≠ kind) :
    ifNext kind taken otherwise tokens = otherwise tokens := by
  rw [ifNext, take?_eq_none_iff.mpr notKind]

theorem bind_apply (first : Reader α) (next : α → Reader β) (tokens : List Token) :
    (first >>= next) tokens =
      match first tokens with
      | .error error => .error error
      | .ok (value, rest) => next value rest := by
  change (first tokens >>= fun result => next result.1 result.2) = _
  cases first tokens <;> rfl

theorem map_apply (f : α → β) (first : Reader α) (tokens : List Token) :
    (f <$> first) tokens =
      match first tokens with
      | .error error => .error error
      | .ok (value, rest) => .ok (f value, rest) := by
  change (first tokens >>= fun result => pure (f result.1, result.2)) = _
  cases first tokens <;> rfl

theorem pure_apply (value : α) (tokens : List Token) :
    (pure value : Reader α) tokens = .ok (value, tokens) :=
  rfl

end Reader

section Combinators

@[simp]
theorem forget_refuse (token : Token) (error : SyntaxError) :
    forget (refuse token error : Result (Parsed limit α)) = .error ⟨token.span, error⟩ :=
  rfl

@[simp]
theorem forget_single (value : α) (token : Token) (rest : List Token) :
    forget (single value token rest) = .ok (value, rest) :=
  rfl

@[simp]
theorem forget_after {rest : List Token} (taken : rest.length < limit)
    (following : Result (Parsed rest.length α)) :
    forget (after taken following) = forget following := by
  cases following <;> rfl

@[simp]
theorem forget_afterToken (token : Token) {rest : List Token}
    (following : Result (Parsed rest.length α)) :
    forget (afterToken token following) = forget following :=
  forget_after _ following

@[simp]
theorem forget_optional (first : Result (Parsed limit α)) :
    forget (optional first) = forget first := by
  cases first <;> rfl

/-- Two results that are read alike are the same to a reader. -/
theorem forget_give {tokens : List Token} {first : Result (Parsed limit α)} {f : α → β}
    {read : Reader α} (same : forget first = read tokens) :
    forget (give first f) = (f <$> read) tokens := by
  rw [Reader.map_apply, ← same]
  cases first <;> rfl

theorem forget_andThen {tokens : List Token} {first : Result (Parsed limit α)}
    {next : α → (rest : List Token) → rest.length < limit → Result (Parsed rest.length β)}
    {read : Reader α} {following : α → Reader β} (same : forget first = read tokens)
    (goesOn : ∀ value rest within, forget (next value rest within) = following value rest) :
    forget (andThen first next) = (read >>= following) tokens := by
  rw [Reader.bind_apply, ← same]
  cases first with
  | error error => rfl
  | ok parsed =>
    obtain ⟨value, rest, within⟩ := parsed
    change forget (after within (next value rest within)) = following value rest
    rw [forget_after, goesOn]

theorem forget_andMaybe {tokens : List Token} {first : Result (Parsed limit α)}
    {next : α → (rest : List Token) → rest.length < limit → Result (Parsed (rest.length + 1) β)}
    {read : Reader α} {following : α → Reader β} (same : forget first = read tokens)
    (goesOn : ∀ value rest within, forget (next value rest within) = following value rest) :
    forget (andMaybe first next) = (read >>= following) tokens := by
  rw [Reader.bind_apply, ← same]
  cases first with
  | error error => rfl
  | ok parsed =>
    obtain ⟨value, rest, within⟩ := parsed
    change _ = following value rest
    rw [← goesOn value rest within, andMaybe]
    cases next value rest within <;> rfl

end Combinators

open Reader

variable (stop : Nat)

theorem reader_expect_of_kind {kind : TokenKind} {token : Token} (isKind : token.kind = kind)
    (rest : List Token) : reader (expect stop kind) (token :: rest) = .ok (token, rest) := by
  rw [reader, expect, if_pos isKind, forget_single]

theorem reader_expect_of_head {kind : TokenKind} {tokens : List Token}
    (notKind : ∀ token ∈ tokens.head?, token.kind ≠ kind) :
    reader (expect stop kind) tokens =
      refusal stop (.unexpected (tokens.headD (.endAt stop)).kind kind) tokens := by
  cases tokens with
  | nil => rfl
  | cons token rest =>
    rw [reader, expect, if_neg (notKind token rfl), forget_refuse]
    rfl

theorem reader_type_of_kind {ty : Ty} {token : Token} (isType : token.kind = .typeName ty)
    (rest : List Token) : reader (parseType stop) (token :: rest) = .ok (ty, rest) := by
  rw [reader, parseType, isType]
  rfl

theorem reader_type_of_head {tokens : List Token}
    (noType : ∀ token ∈ tokens.head?, ∀ ty, token.kind ≠ .typeName ty) :
    reader (parseType stop) tokens =
      refusal stop (.expectedType (tokens.headD (.endAt stop)).kind) tokens := by
  cases tokens with
  | nil => rfl
  | cons token rest =>
    have notType := noType token rfl
    rw [reader, parseType]
    cases kind : token.kind with
    | typeName ty => exact absurd kind (notType ty)
    | _ => simp [refusal, kind]

/-! ### Expressions -/

theorem reader_tier_succ (tier : Nat) :
    reader (parseTier stop (tier + 1)) =
      (do
        let lhs ← reader (parseTier stop tier)
        reader (parseOperations stop tier lhs)) := by
  funext tokens
  rw [reader, parseTier]
  exact forget_andMaybe rfl fun _ _ _ => rfl

theorem reader_tier_zero : reader (parseTier stop 0) = reader (parseOperand stop) := by
  funext tokens
  rw [reader, parseTier]
  rfl

theorem reader_operations_nil (tier : Nat) (lhs : Expr Unit) :
    reader (parseOperations stop tier lhs) [] = .ok (lhs, []) := by
  rw [reader, parseOperations]
  rfl

theorem reader_operations_cons (tier : Nat) (lhs : Expr Unit) (token : Token)
    (rest : List Token) :
    reader (parseOperations stop tier lhs) (token :: rest) =
      match operatorInTier? (tier + 1) token.kind with
      | none => .ok (lhs, token :: rest)
      | some op =>
        (do
          let rhs ← reader (parseTier stop tier)
          reader (parseOperations stop tier
            (.binary op () lhs rhs (lhs.span.cover rhs.span)))) rest := by
  rw [reader, parseOperations]
  cases operatorInTier? (tier + 1) token.kind with
  | none => rfl
  | some op =>
    rw [forget_optional, forget_afterToken]
    exact forget_andMaybe rfl fun _ _ _ => rfl

theorem reader_operand_nil :
    reader (parseOperand stop) [] = reader (parsePrimary stop) [] := by
  rw [reader, parseOperand]
  rfl

theorem reader_operand_cons (token : Token) (rest : List Token) :
    reader (parseOperand stop) (token :: rest) =
      match unaryOperator? token.kind with
      | none => reader (parsePrimary stop) (token :: rest)
      | some op =>
        ((fun operand => .unary op () operand (token.span.cover operand.span)) <$>
          reader (parsePrimary stop)) rest := by
  rw [reader, parseOperand]
  cases unaryOperator? token.kind with
  | none => rfl
  | some op =>
    rw [forget_afterToken]
    exact forget_give rfl

theorem reader_primary_nil :
    reader (parsePrimary stop) [] =
      .error ⟨(Token.endAt stop).span, .unexpectedInExpression .endOfInput⟩ := by
  rw [reader, parsePrimary]
  rfl

/-- What is read behind the identifier at the start of a primary expression. -/
def afterIdentifier (token : Token) : Reader (Expr Unit) :=
  ifNext .leftParen
    ((fun (arguments, close) =>
      let span := token.span.cover close.span
      .call (identOf token) arguments span span) <$> reader (parseArguments stop))
    (pure (.var (identOf token) token.span))

/-- Read an expression up to a token of a kind. -/
def upTo (kind : TokenKind) (f : Expr Unit → Token → α) : Reader α := do
  let expr ← reader (parseTier stop loosestTier)
  f expr <$> reader (expect stop kind)

theorem reader_primary_cons (token : Token) (rest : List Token) :
    reader (parsePrimary stop) (token :: rest) =
      match token.literal? with
      | some (.ok value) => .ok (.literal value token.span, rest)
      | some (.error .intTooLarge) => .error ⟨token.span, .intOutOfRange⟩
      | none =>
        match token.kind with
        | .identifier => afterIdentifier stop token rest
        | .leftParen => upTo stop .rightParen (fun expr _ => expr) rest
        | .typeName ty =>
          match UnaryOperator.castTo? ty with
          | none => .error ⟨token.span, .invalidCast ty⟩
          | some op =>
            (do
              let _ ← reader (expect stop .leftParen)
              upTo stop .rightParen fun operand close =>
                Expr.unary op () operand (token.span.cover close.span)) rest
        | kind => .error ⟨token.span, .unexpectedInExpression kind⟩ := by
  rw [reader, parsePrimary]
  cases token.literal? with
  | some outcome =>
    cases outcome with
    | ok value => rfl
    | error error =>
      cases error with
      | intTooLarge => rfl
  | none =>
    cases token.kind with
    | identifier =>
      rw [afterIdentifier, ifNext]
      dsimp only
      cases take? .leftParen rest with
      | none => rfl
      | some opening =>
        rw [forget_afterToken, forget_after]
        exact forget_give rfl
    | leftParen =>
      rw [forget_afterToken]
      exact forget_andThen rfl fun _ _ _ => forget_give rfl
    | typeName ty =>
      dsimp only
      cases UnaryOperator.castTo? ty with
      | none => rfl
      | some op =>
        rw [forget_afterToken]
        exact forget_andThen rfl fun _ _ _ => forget_andThen rfl fun _ _ _ => forget_give rfl
    | _ => rfl

theorem reader_arguments_nil :
    reader (parseArguments stop) [] = reader (parseArgumentList stop) [] := by
  rw [reader, parseArguments]
  rfl

theorem reader_arguments_cons (token : Token) (rest : List Token) :
    reader (parseArguments stop) (token :: rest) =
      if token.kind = .rightParen then .ok (([], token), rest)
      else reader (parseArgumentList stop) (token :: rest) := by
  rw [reader, parseArguments]
  split <;> rfl

/-- What is read behind an argument. -/
def afterArgument (argument : Expr Unit) : Reader (List (Expr Unit) × Token) :=
  ifNext .comma
    ((fun (arguments, close) => (argument :: arguments, close)) <$>
      reader (parseArgumentList stop))
    ((fun close => ([argument], close)) <$> reader (expect stop .rightParen))

theorem reader_argumentList :
    reader (parseArgumentList stop) =
      (do
        let argument ← reader (parseTier stop loosestTier)
        afterArgument stop argument) := by
  funext tokens
  rw [reader, parseArgumentList]
  refine forget_andThen rfl fun argument rest _ => ?_
  rw [afterArgument, ifNext]
  cases take? .comma rest with
  | none => exact forget_give rfl
  | some comma =>
    rw [forget_after]
    exact forget_give rfl

/-! ### Statements -/

theorem reader_test :
    reader (parseTest stop) =
      (do
        let _ ← reader (expect stop .leftParen)
        upTo stop .rightParen fun test _ => test) := by
  funext tokens
  exact forget_andThen rfl fun _ _ _ => forget_andThen rfl fun _ _ _ => forget_give rfl

theorem reader_callOrAssignment (target : Ident) :
    reader (parseCallOrAssignment stop target) =
      ifNext .leftParen
        (do
          let (arguments, close) ← reader (parseArguments stop)
          (fun _ => .call target arguments (target.span.cover close.span)) <$>
            reader (expect stop .semicolon))
        (do
          let _ ← reader (expect stop .assign)
          upTo stop .semicolon fun value _ => .assign target value) := by
  funext tokens
  rw [reader, parseCallOrAssignment, ifNext]
  cases take? .leftParen tokens with
  | none =>
    exact forget_andThen rfl fun _ _ _ => forget_andThen rfl fun _ _ _ => forget_give rfl
  | some opening =>
    rw [forget_after]
    exact forget_andThen rfl fun _ _ _ => forget_give rfl

theorem reader_givenBack (word : Token) :
    reader (parseGivenBack stop word) =
      upTo stop .semicolon fun value _ => .giveBack value word.span := by
  funext tokens
  exact forget_andThen rfl fun _ _ _ => forget_give rfl

theorem reader_statement_nil :
    reader (parseStatement stop) [] =
      .error ⟨(Token.endAt stop).span, .unexpectedInStatement .endOfInput⟩ := by
  rw [reader, parseStatement]
  rfl

/-- What is read behind the first branch of a condition. -/
def afterBranch (test : Expr Unit) (thenBranch : Stmt Unit) : Reader (Stmt Unit) :=
  ifNext .elseWord
    ((fun elseBranch => .conditional test thenBranch elseBranch) <$>
      reader (parseStatement stop))
    (pure (.conditional test thenBranch .skip))

theorem reader_statement_cons (token : Token) (rest : List Token) :
    reader (parseStatement stop) (token :: rest) =
      match token.kind with
      | .semicolon => .ok (.skip, rest)
      | .leftBrace => (.block <$> reader (parseBlock stop)) rest
      | .ifWord =>
        (do
          let test ← reader (parseTest stop)
          let thenBranch ← reader (parseStatement stop)
          afterBranch stop test thenBranch) rest
      | .whileWord =>
        (do
          let test ← reader (parseTest stop)
          (fun body => Stmt.loop test body) <$> reader (parseStatement stop)) rest
      | .returnWord => reader (parseGivenBack stop token) rest
      | .identifier => reader (parseCallOrAssignment stop (identOf token)) rest
      | kind => .error ⟨token.span, .unexpectedInStatement kind⟩ := by
  rw [reader, parseStatement]
  cases token.kind with
  | semicolon => rfl
  | leftBrace =>
    rw [forget_afterToken]
    exact forget_give rfl
  | ifWord =>
    rw [forget_afterToken]
    refine forget_andThen rfl fun test middle _ => forget_andMaybe rfl fun branch behind _ => ?_
    rw [afterBranch, ifNext]
    cases take? .elseWord behind with
    | none => rfl
    | some otherwise =>
      rw [forget_optional, forget_after]
      exact forget_give rfl
  | whileWord =>
    rw [forget_afterToken]
    exact forget_andThen rfl fun _ _ _ => forget_give rfl
  | returnWord | identifier => exact forget_afterToken token _
  | _ => rfl

theorem reader_block_nil :
    reader (parseBlock stop) [] =
      .error ⟨(Token.endAt stop).span, .unexpected .endOfInput .rightBrace⟩ := by
  rw [reader, parseBlock]
  rfl

theorem reader_block_cons (token : Token) (rest : List Token) :
    reader (parseBlock stop) (token :: rest) =
      if token.kind = .rightBrace then .ok ([], rest)
      else
        (do
          let first ← reader (parseStatement stop)
          (fun following => first :: following) <$> reader (parseBlock stop)) (token :: rest) := by
  rw [reader, parseBlock]
  split
  · rfl
  · exact forget_andThen rfl fun _ _ _ => forget_give rfl

/-! ### Definitions -/

theorem reader_ident :
    reader (parseIdent stop) = identOf <$> reader (expect stop .identifier) := by
  funext tokens
  exact forget_give rfl

theorem reader_names
    (add : Definitions Declaration → Ident → Result (Definitions Declaration))
    (scope : Definitions Declaration) (name : Ident) :
    reader (parseNames stop add scope name) =
      (do
        let extended ← settled (add scope name)
        ifNext .comma
          (do
            let next ← reader (parseIdent stop)
            reader (parseNames stop add extended next))
          ((fun _ => extended) <$> reader (expect stop .semicolon))) := by
  funext tokens
  rw [reader, parseNames, bind_apply]
  cases add scope name with
  | error error => rfl
  | ok extended =>
    change forget (Except.bind (Except.ok extended) _) = ifNext _ _ _ tokens
    rw [ifNext, Except.bind]
    cases take? .comma tokens with
    | none => exact forget_give rfl
    | some comma =>
      rw [forget_after]
      exact forget_andThen rfl fun _ _ _ => rfl

theorem reader_paramList :
    reader (parseParamList stop) =
      (do
        let ty ← reader (parseType stop)
        let name ← reader (parseIdent stop)
        ifNext .comma
          ((fun following => ⟨name, ty⟩ :: following) <$> reader (parseParamList stop))
          ((fun _ => [⟨name, ty⟩]) <$> reader (expect stop .rightParen))) := by
  funext tokens
  rw [reader, parseParamList]
  refine forget_andThen rfl fun ty middle _ => forget_andThen rfl fun name rest _ => ?_
  rw [ifNext]
  cases take? .comma rest with
  | none => exact forget_give rfl
  | some comma =>
    rw [forget_after]
    exact forget_give rfl

theorem reader_params :
    reader (parseParams stop) = ifNext .rightParen (pure []) (reader (parseParamList stop)) := by
  funext tokens
  rw [reader, parseParams, ifNext]
  cases take? .rightParen tokens <;> rfl

theorem reader_locals_nil (params scope : Definitions Declaration) :
    reader (parseLocals stop params scope) [] = .ok (scope, []) := by
  rw [reader, parseLocals]
  rfl

theorem reader_locals_cons (params scope : Definitions Declaration) (token : Token)
    (rest : List Token) :
    reader (parseLocals stop params scope) (token :: rest) =
      match token.kind with
      | .typeName ty =>
        (do
          let name ← reader (parseIdent stop)
          let extended ← reader (parseNames stop
            (fun scope name => declareLocal params scope name ty) scope name)
          reader (parseLocals stop params extended)) rest
      | _ => .ok (scope, token :: rest) := by
  rw [reader, parseLocals]
  cases token.kind with
  | typeName ty =>
    dsimp only
    rw [forget_optional, forget_afterToken]
    exact forget_andThen rfl fun _ _ _ => forget_andMaybe rfl fun _ _ _ => rfl
  | _ => rfl

/-- What is read at the start of the body of a function. -/
def bodyStart (params : Definitions Declaration) : Reader (Definitions Declaration) := do
  let _ ← reader (expect stop .leftBrace)
  reader (parseLocals stop params .empty)

/-- What is read of a function behind the opening parenthesis. -/
def functionBehind (returnTy : Ty) (name : Ident) : Reader (Function Unit) := do
  let formals ← reader (parseParams stop)
  let params ← settled (declareParams formals)
  let locals ← bodyStart stop params
  (fun body => ⟨returnTy, name, params, locals, body⟩) <$> reader (parseBlock stop)

theorem reader_function (returnTy : Ty) (name : Ident) :
    reader (parseFunction stop returnTy name) =
      (do
        let _ ← reader (expect stop .leftParen)
        functionBehind stop returnTy name) := by
  funext tokens
  refine forget_andThen rfl fun _ middle _ => forget_andThen rfl fun formals rest _ => ?_
  rw [bind_apply]
  cases declareParams formals with
  | error error => rfl
  | ok params =>
    exact forget_andThen (forget_andMaybe rfl fun _ _ _ => rfl) fun _ _ _ => forget_give rfl

/-- What is left behind a computation that reads all tokens. -/
def atEnd {ω : Type} (computation : Recorded ω (Spanned SyntaxError) α) :
    Except (Spanned SyntaxError) (α × List Token) :=
  match computation.outcome with
  | .error error => .error error
  | .ok result => .ok (result, [])

theorem atEnd_ofExcept_bind {ω : Type} {tokens : List Token} {first : Result (Parsed limit α)}
    {next : Parsed limit α → Recorded ω (Spanned SyntaxError) β} {read : Reader α}
    {following : α → Reader β} (same : forget first = read tokens)
    (goesOn : ∀ value rest within, atEnd (next ⟨value, rest, within⟩) = following value rest) :
    atEnd (.ofExcept first >>= next) = (read >>= following) tokens := by
  rw [bind_apply, ← same]
  cases first with
  | error error => rfl
  | ok parsed => exact goesOn parsed.value parsed.rest parsed.within

/-- Read definitions up to the end. -/
def definitions (program : Program Unit) : Reader (Program Unit) :=
  fun tokens => atEnd (parseDefinitions stop program tokens)

/-- Add a function to those before, unless its name was defined earlier. -/
def addFunction (program : Program Unit) (name : Ident) (function : Function Unit) :
    Except (Spanned SyntaxError) (Program Unit) :=
  match program.functions.insert function with
  | .ok functions => .ok { program with functions }
  | .error earlier =>
    .error ⟨name.span, .duplicateFunction earlier.name.name earlier.name.span⟩

theorem definitions_nil (program : Program Unit) :
    definitions stop program [] = .ok (program, []) := by
  rw [definitions, parseDefinitions]
  rfl

/-- What is read behind the name of the first definition. -/
def afterFirstName (program : Program Unit) (ty : Ty) (name : Ident) : Reader (Program Unit) :=
  ifNext .leftParen
    (do
      let function ← functionBehind stop ty name
      let extended ← settled (addFunction program name function)
      definitions stop extended)
    (do
      let globals ← reader (parseNames stop (fun scope name => declare scope name ty)
        program.globals name)
      definitions stop { program with globals })

theorem definitions_cons (program : Program Unit) (token : Token) (rest : List Token) :
    definitions stop program (token :: rest) =
      (do
        let ty ← reader (parseType stop)
        let name ← reader (parseIdent stop)
        afterFirstName stop program ty name) (token :: rest) := by
  rw [definitions, parseDefinitions]
  refine atEnd_ofExcept_bind rfl fun ty middle _ => atEnd_ofExcept_bind rfl fun name behind _ => ?_
  dsimp only
  cases taken : take? .leftParen behind with
  | none =>
    rw [afterFirstName, ifNext, taken]
    exact atEnd_ofExcept_bind rfl fun _ _ _ => rfl
  | some opening =>
    obtain ⟨opening, inner, within⟩ := opening
    obtain ⟨rfl, isOpening⟩ := eq_cons_of_take? taken
    rw [afterFirstName, ifNext_of_kind isOpening]
    dsimp only
    refine atEnd_ofExcept_bind ?_ fun function rest _ => ?_
    · have behindOpening := congrFun (reader_function stop ty name) (opening :: inner)
      rw [bind_apply, reader_expect_of_kind stop isOpening] at behindOpening
      exact behindOpening
    · rw [bind_apply, addFunction]
      cases program.functions.insert function <;> rfl

end TypedImp.Parser
