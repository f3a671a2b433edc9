import TypedImp.Proofs.Grammar.ProgramPrediction

/-!
# The grammar without trees

The rules of the language let an `else` stand behind every branch, so that several trees can write
the same tokens.  `Sentence` lets it stand behind closed statements only.  Both write the same
tokens: an `else` behind an open statement belongs to the last `if` in it.
-/

namespace TypedImp.Grammar

mutual

/-- The statements, with an `else` behind any branch. -/
inductive PlainStatement : List Token → Prop where
  | skip {semicolon : Token} (ends : semicolon.kind = .semicolon) : PlainStatement [semicolon]
  | block {opening closing : Token} {tokens : List Token} (opens : opening.kind = .leftBrace)
      (between : PlainStatements tokens) (closes : closing.kind = .rightBrace) :
      PlainStatement (opening :: (tokens ++ [closing]))
  | assign {name sign semicolon : Token} {tokens : List Token} (isName : name.kind = .identifier)
      (isSign : sign.kind = .assign) (right : IsExpression .expression tokens)
      (ends : semicolon.kind = .semicolon) :
      PlainStatement (name :: sign :: (tokens ++ [semicolon]))
  | call {name opening closing semicolon : Token} {tokens : List Token}
      (isName : name.kind = .identifier) (opens : opening.kind = .leftParen)
      (between : AreArguments tokens) (closes : closing.kind = .rightParen)
      (ends : semicolon.kind = .semicolon) :
      PlainStatement (name :: opening :: (tokens ++ [closing, semicolon]))
  | giveBack {word semicolon : Token} {tokens : List Token} (isReturn : word.kind = .returnWord)
      (given : IsExpression .expression tokens) (ends : semicolon.kind = .semicolon) :
      PlainStatement (word :: (tokens ++ [semicolon]))
  | ifThen {word : Token} {test others : List Token} (isIf : word.kind = .ifWord)
      (tested : IsParenthesized test) (chosen : PlainStatement others) :
      PlainStatement (word :: (test ++ others))
  | ifThenElse {word otherwise : Token} {test others alternative : List Token}
      (isIf : word.kind = .ifWord) (tested : IsParenthesized test)
      (chosen : PlainStatement others) (isElse : otherwise.kind = .elseWord)
      (rejected : PlainStatement alternative) :
      PlainStatement (word :: (test ++ (others ++ otherwise :: alternative)))
  | loop {word : Token} {test others : List Token} (isWhile : word.kind = .whileWord)
      (tested : IsParenthesized test) (repeated : PlainStatement others) :
      PlainStatement (word :: (test ++ others))

/-- Such statements one behind the other. -/
inductive PlainStatements : List Token → Prop where
  | none : PlainStatements []
  | more {tokens others : List Token} (head : PlainStatement tokens)
      (following : PlainStatements others) : PlainStatements (tokens ++ others)

end

/-- The programs, with such statements as the bodies of their functions. -/
inductive PlainProgram : List Token → Prop where
  | none : PlainProgram []
  | declaration {tokens others : List Token} (head : IsDeclaration tokens)
      (following : PlainProgram others) : PlainProgram (tokens ++ others)
  | function {word name opening closing begins ends : Token} {ty : Ty}
      {params locals body others : List Token} (isType : word.kind = .typeName ty)
      (isName : name.kind = .identifier) (opens : opening.kind = .leftParen)
      (taken : AreParams params) (closes : closing.kind = .rightParen)
      (isBegin : begins.kind = .leftBrace) (declared : AreDeclarations locals)
      (done : PlainStatements body) (isEnd : ends.kind = .rightBrace)
      (following : PlainProgram others) :
      PlainProgram (word :: name :: opening ::
        (params ++ closing :: begins :: (locals ++ (body ++ ends :: others))))

theorem isParenthesized_mk {opening closing : Token} {tokens : List Token} {test : Expr Unit}
    (opens : opening.kind = .leftParen) (tested : Expression .expression tokens test)
    (closes : closing.kind = .rightParen) : IsParenthesized (opening :: (tokens ++ [closing])) :=
  ⟨opening, _, rfl, opens, tokens, closing, rfl, ⟨test, tested⟩, closes⟩

mutual

theorem plainStatement_of_statement {isOpen : Bool} {tokens : List Token} {stmt : Stmt Unit}
    (derived : Statement isOpen tokens stmt) : PlainStatement tokens := by
  match derived with
  | .skip ends => exact .skip ends
  | .block opens between closes =>
    exact .block opens (plainStatements_of_statements between) closes
  | .assign isName isSign right ends => exact .assign isName isSign ⟨_, right⟩ ends
  | .call isName opens between closes ends => exact .call isName opens ⟨_, between⟩ closes ends
  | .giveBack isReturn given ends => exact .giveBack isReturn ⟨_, given⟩ ends
  | .ifThen isIf opens tested closes chosen =>
    have test := isParenthesized_mk opens tested closes
    have whole := PlainStatement.ifThen isIf test (plainStatement_of_statement chosen)
    simpa using whole
  | .ifThenElse isIf opens tested closes chosen isElse rejected =>
    have test := isParenthesized_mk opens tested closes
    have whole := PlainStatement.ifThenElse isIf test (plainStatement_of_statement chosen) isElse
      (plainStatement_of_statement rejected)
    simpa using whole
  | .loop isWhile opens tested closes repeated =>
    have test := isParenthesized_mk opens tested closes
    have whole := PlainStatement.loop isWhile test (plainStatement_of_statement repeated)
    simpa using whole

theorem plainStatements_of_statements {tokens : List Token} {body : List (Stmt Unit)}
    (derived : Statements tokens body) : PlainStatements tokens := by
  match derived with
  | .none => exact .none
  | .more head following =>
    exact .more (plainStatement_of_statement head) (plainStatements_of_statements following)

end

mutual

theorem isStatement_of_plain {tokens : List Token} (derived : PlainStatement tokens) :
    IsStatement tokens := by
  match derived with
  | .skip ends => exact ⟨_, _, .skip ends⟩
  | .block opens between closes =>
    obtain ⟨_, between⟩ := areStatements_of_plain between
    exact ⟨_, _, .block opens between closes⟩
  | .assign isName isSign ⟨_, right⟩ ends => exact ⟨_, _, .assign isName isSign right ends⟩
  | .call isName opens ⟨_, between⟩ closes ends =>
    exact ⟨_, _, .call isName opens between closes ends⟩
  | .giveBack isReturn ⟨_, given⟩ ends => exact ⟨_, _, .giveBack isReturn given ends⟩
  | .ifThen isIf tested chosen =>
    have noElse : IsBehindBranch [] := .inl rfl
    have branches := joined_append (isStatement_of_plain chosen) noElse
    rw [List.append_nil] at branches
    exact isStatement_condition isIf tested branches
  | .ifThenElse isIf tested chosen isElse rejected =>
    have behind : IsBehindBranch _ := .inr (behind_cons isElse (isStatement_of_plain rejected))
    exact isStatement_condition isIf tested (joined_append (isStatement_of_plain chosen) behind)
  | .loop isWhile tested repeated =>
    exact isStatement_loop isWhile tested (isStatement_of_plain repeated)

theorem areStatements_of_plain {tokens : List Token} (derived : PlainStatements tokens) :
    AreStatements tokens := by
  match derived with
  | .none => exact ⟨[], .none⟩
  | .more head following =>
    exact areStatements_cons (isStatement_of_plain head) (areStatements_of_plain following)

end

/-- The programs of the grammar are the sentences. -/
theorem plainProgram_iff {tokens : List Token} : PlainProgram tokens ↔ IsProgram tokens := by
  constructor
  · intro derived
    induction derived with
    | none => exact ⟨_, .none⟩
    | declaration head _ ih =>
      obtain ⟨_, head⟩ := head
      obtain ⟨_, following⟩ := ih
      exact ⟨_, .declaration head following⟩
    | function isType isName opens taken closes isBegin declared done isEnd _ ih =>
      obtain ⟨_, taken⟩ := taken
      obtain ⟨_, declared⟩ := declared
      obtain ⟨_, done⟩ := areStatements_of_plain done
      obtain ⟨_, following⟩ := ih
      have line := FunctionLine.mk isType isName opens taken closes isBegin declared done isEnd
      have whole := Sentence.function line following
      exact ⟨_, by simpa using whole⟩
  · rintro ⟨tree, sentence⟩
    induction sentence with
    | none => exact .none
    | declaration head _ ih => exact .declaration ⟨_, head⟩ ih
    | function head _ ih =>
      obtain ⟨isType, isName, opens, taken, closes, isBegin, declared, done, isEnd⟩ := head
      have whole := PlainProgram.function isType isName opens ⟨_, taken⟩ closes isBegin
        ⟨_, declared⟩ (plainStatements_of_statements done) isEnd ih
      simpa using whole

end TypedImp.Grammar
