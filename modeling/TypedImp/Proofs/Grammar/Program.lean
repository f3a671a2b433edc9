import TypedImp.Proofs.Grammar.Expression

/-!
# The grammar of programs

Statements, declarations, functions and programs, and the trees that they write.  The
trees of this grammar may repeat names; `ProgramTree.Admissible` says what the language
demands of them beside the grammar.
-/

namespace TypedImp.Grammar

mutual

/-- The statements.  A statement is open if it ends with an `if` without an `else`, to
which a following `else` would belong; so only a closed one may stand before an `else`. -/
inductive Statement : (isOpen : Bool) → List Token → Stmt Unit → Prop where
  | skip {semicolon : Token} (ends : semicolon.kind = .semicolon) :
      Statement false [semicolon] .skip
  | block {opening closing : Token} {tokens : List Token} {body : List (Stmt Unit)}
      (opens : opening.kind = .leftBrace) (between : Statements tokens body)
      (closes : closing.kind = .rightBrace) :
      Statement false (opening :: (tokens ++ [closing])) (.block body)
  | assign {name sign semicolon : Token} {tokens : List Token} {value : Expr Unit}
      (isName : name.kind = .identifier) (isSign : sign.kind = .assign)
      (right : Expression .expression tokens value) (ends : semicolon.kind = .semicolon) :
      Statement false (name :: sign :: (tokens ++ [semicolon]))
        (.assign ⟨name.text, name.span⟩ value)
  | call {name opening closing semicolon : Token} {tokens : List Token}
      {arguments : List (Expr Unit)} (isName : name.kind = .identifier)
      (opens : opening.kind = .leftParen) (between : Arguments tokens arguments)
      (closes : closing.kind = .rightParen) (ends : semicolon.kind = .semicolon) :
      Statement false (name :: opening :: (tokens ++ [closing, semicolon]))
        (.call ⟨name.text, name.span⟩ arguments (name.span.cover closing.span))
  | giveBack {word semicolon : Token} {tokens : List Token} {value : Expr Unit}
      (isReturn : word.kind = .returnWord) (given : Expression .expression tokens value)
      (ends : semicolon.kind = .semicolon) :
      Statement false (word :: (tokens ++ [semicolon])) (.giveBack value word.span)
  | ifThen {isOpen : Bool} {word opening closing : Token} {tokens others : List Token}
      {test : Expr Unit} {thenBranch : Stmt Unit} (isIf : word.kind = .ifWord)
      (opens : opening.kind = .leftParen) (tested : Expression .expression tokens test)
      (closes : closing.kind = .rightParen) (chosen : Statement isOpen others thenBranch) :
      Statement true (word :: opening :: (tokens ++ closing :: others))
        (.conditional test thenBranch .skip)
  | ifThenElse {isOpen : Bool} {word opening closing otherwise : Token}
      {tokens others alternative : List Token} {test : Expr Unit}
      {thenBranch elseBranch : Stmt Unit} (isIf : word.kind = .ifWord)
      (opens : opening.kind = .leftParen) (tested : Expression .expression tokens test)
      (closes : closing.kind = .rightParen) (chosen : Statement false others thenBranch)
      (isElse : otherwise.kind = .elseWord)
      (rejected : Statement isOpen alternative elseBranch) :
      Statement isOpen
        (word :: opening :: (tokens ++ closing :: (others ++ otherwise :: alternative)))
        (.conditional test thenBranch elseBranch)
  | loop {isOpen : Bool} {word opening closing : Token} {tokens others : List Token}
      {test : Expr Unit} {body : Stmt Unit} (isWhile : word.kind = .whileWord)
      (opens : opening.kind = .leftParen) (tested : Expression .expression tokens test)
      (closes : closing.kind = .rightParen) (repeated : Statement isOpen others body) :
      Statement isOpen (word :: opening :: (tokens ++ closing :: others)) (.loop test body)

/-- Statements one behind the other. -/
inductive Statements : List Token → List (Stmt Unit) → Prop where
  | none : Statements [] []
  | more {isOpen : Bool} {tokens others : List Token} {first : Stmt Unit}
      {rest : List (Stmt Unit)} (head : Statement isOpen tokens first)
      (following : Statements others rest) : Statements (tokens ++ others) (first :: rest)

end

/-- One name or more with commas between them. -/
inductive Names : List Token → List Ident → Prop where
  | last {name : Token} (isName : name.kind = .identifier) :
      Names [name] [⟨name.text, name.span⟩]
  | more {name comma : Token} {others : List Token} {names : List Ident}
      (isName : name.kind = .identifier) (separates : comma.kind = .comma)
      (following : Names others names) :
      Names (name :: comma :: others) (⟨name.text, name.span⟩ :: names)

/-- A type and the names of that type; each name is a declaration of its own. -/
inductive DeclarationLine : List Token → List Declaration → Prop where
  | mk {word semicolon : Token} {ty : Ty} {tokens : List Token} {names : List Ident}
      (isType : word.kind = .typeName ty) (named : Names tokens names)
      (ends : semicolon.kind = .semicolon) :
      DeclarationLine (word :: (tokens ++ [semicolon])) (names.map (⟨·, ty⟩))

/-- The declarations at the start of a body. -/
inductive DeclarationLines : List Token → List Declaration → Prop where
  | none : DeclarationLines [] []
  | more {tokens others : List Token} {declarations following : List Declaration}
      (head : DeclarationLine tokens declarations)
      (rest : DeclarationLines others following) :
      DeclarationLines (tokens ++ others) (declarations ++ following)

/-- One parameter or more with commas between them. -/
inductive ParamList : List Token → List Declaration → Prop where
  | last {word name : Token} {ty : Ty} (isType : word.kind = .typeName ty)
      (isName : name.kind = .identifier) :
      ParamList [word, name] [⟨⟨name.text, name.span⟩, ty⟩]
  | more {word name comma : Token} {ty : Ty} {others : List Token}
      {params : List Declaration} (isType : word.kind = .typeName ty)
      (isName : name.kind = .identifier) (separates : comma.kind = .comma)
      (following : ParamList others params) :
      ParamList (word :: name :: comma :: others) (⟨⟨name.text, name.span⟩, ty⟩ :: params)

/-- The parameters of a function. -/
inductive Params : List Token → List Declaration → Prop where
  | none : Params [] []
  | some {tokens : List Token} {params : List Declaration} (listed : ParamList tokens params) :
      Params tokens params

/-- A function as it is written; its names may be repeated. -/
structure FunctionTree where
  returnTy : Ty
  name : Ident
  params : List Declaration
  locals : List Declaration
  body : List (Stmt Unit)

/-- The definition of a function. -/
inductive FunctionLine : List Token → FunctionTree → Prop where
  | mk {word name opening closing begins ends : Token} {ty : Ty}
      {paramTokens localTokens bodyTokens : List Token} {params locals : List Declaration}
      {body : List (Stmt Unit)} (isType : word.kind = .typeName ty)
      (isName : name.kind = .identifier) (opens : opening.kind = .leftParen)
      (taken : Params paramTokens params) (closes : closing.kind = .rightParen)
      (isBegin : begins.kind = .leftBrace) (declared : DeclarationLines localTokens locals)
      (done : Statements bodyTokens body) (isEnd : ends.kind = .rightBrace) :
      FunctionLine
        (word :: name :: opening ::
          (paramTokens ++ closing :: begins :: (localTokens ++ (bodyTokens ++ [ends]))))
        ⟨ty, ⟨name.text, name.span⟩, params, locals, body⟩

/-- A program as it is written; its names may be repeated. -/
structure ProgramTree where
  globals : List Declaration
  functions : List FunctionTree

/-- A program is a sequence of global declarations and functions. -/
inductive Sentence : List Token → ProgramTree → Prop where
  | none : Sentence [] ⟨[], []⟩
  | declaration {tokens others : List Token} {declarations : List Declaration}
      {rest : ProgramTree} (head : DeclarationLine tokens declarations)
      (following : Sentence others rest) :
      Sentence (tokens ++ others) ⟨declarations ++ rest.globals, rest.functions⟩
  | function {tokens others : List Token} {function : FunctionTree} {rest : ProgramTree}
      (head : FunctionLine tokens function) (following : Sentence others rest) :
      Sentence (tokens ++ others) ⟨rest.globals, function :: rest.functions⟩

/-- Declarations of one scope have different names and no type `void`. -/
structure ScopeAdmissible (declarations : List Declaration) : Prop where
  typed : ∀ declaration ∈ declarations, declaration.ty ≠ .void
  distinct : declarations.Pairwise fun first second => first.name.name ≠ second.name.name

/-- What the language demands of a function beside the grammar. -/
structure FunctionTree.Admissible (function : FunctionTree) : Prop where
  params : ScopeAdmissible function.params
  locals : ScopeAdmissible function.locals
  disjoint : ∀ param ∈ function.params, ∀ declared ∈ function.locals,
    param.name.name ≠ declared.name.name

/-- What the language demands of a program beside the grammar. -/
structure ProgramTree.Admissible (program : ProgramTree) : Prop where
  globals : ScopeAdmissible program.globals
  functions : ∀ function ∈ program.functions, function.Admissible
  distinct : program.functions.Pairwise fun first second =>
    first.name.name ≠ second.name.name

end Grammar

/-- What is written of a function. -/
def Function.tree (function : Function Unit) : Grammar.FunctionTree :=
  ⟨function.returnTy, function.name, function.params.toList, function.locals.toList,
    function.body⟩

/-- What is written of a program. -/
def Program.tree (program : Program Unit) : Grammar.ProgramTree :=
  ⟨program.globals.toList, program.functions.toList.map Function.tree⟩

/-- A function is known from what is written of it. -/
theorem Function.tree_inj {first second : Function Unit} (same : first.tree = second.tree) :
    first = second := by
  obtain ⟨returnTy, name, params, locals, body⟩ := first
  obtain ⟨_, _, _, _, _⟩ := second
  simp only [Function.tree, Grammar.FunctionTree.mk.injEq] at same
  obtain ⟨rfl, rfl, paramsSame, localsSame, rfl⟩ := same
  rw [Definitions.ext_toList paramsSame, Definitions.ext_toList localsSame]

/-- A program is known from what is written of it. -/
theorem Program.tree_inj {first second : Program Unit} (same : first.tree = second.tree) :
    first = second := by
  obtain ⟨globals, functions⟩ := first
  obtain ⟨_, _⟩ := second
  simp only [Program.tree, Grammar.ProgramTree.mk.injEq] at same
  obtain ⟨globalsSame, functionsSame⟩ := same
  rw [List.map_inj_right fun _ _ => Function.tree_inj] at functionsSame
  rw [Definitions.ext_toList globalsSame, Definitions.ext_toList functionsSame]

end TypedImp
