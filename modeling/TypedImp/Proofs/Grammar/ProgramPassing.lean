import TypedImp.Proofs.Grammar.Passing

/-!
# Programs are not refused

What `Passing` shows of expressions holds of statements, declarations, functions and programs.
`passes_of_sentence` says it for the reader of a whole source.
-/

namespace TypedImp.Grammar

open TypedImp.Parser

variable (stop : Nat)

section Statements

variable {α : Type}

/-- An expression in front of a token that cannot continue it. -/
theorem passes_of_upTo {kind : TokenKind} (noCall : kind ≠ .leftParen)
    (noOperator : binaryOperator? kind = none) {tokens : List Token} {expr : Expr Unit}
    (derived : Expression .expression tokens expr) {close : Token} (closes : close.kind = kind)
    (f : Expr Unit → Token → α) (rest : List Token) :
    Passes (upTo stop kind f) (tokens ++ close :: rest) rest := by
  have ends : Ends .expression (close :: rest) := ends_of_isKind closes noCall noOperator rest
  exact passes_upTo stop (passes_of_expression stop derived (close :: rest) ends) closes

theorem passes_of_test {tokens : List Token} {test : Expr Unit} {opening close : Token}
    (opens : opening.kind = .leftParen) (tested : Expression .expression tokens test)
    (closes : close.kind = .rightParen) (rest : List Token) :
    Passes (reader (parseTest stop)) (opening :: (tokens ++ close :: rest)) rest := by
  rw [reader_test]
  exact (passes_expect stop opens _).bind fun _ =>
    passes_of_upTo stop (by simp) rfl tested closes _ rest

mutual

theorem passes_of_statement {isOpen : Bool} {tokens : List Token} {stmt : Stmt Unit}
    (derived : Statement isOpen tokens stmt) (rest : List Token)
    (ends : NoElseBehind isOpen rest) :
    Passes (reader (parseStatement stop)) (tokens ++ rest) rest := by
  match derived with
  | @Statement.skip semicolon kindEq =>
    have step := reader_statement_cons stop semicolon rest
    simp only [kindEq] at step
    exact passes_of_ok step
  | @Statement.block opening closing inner body opens between closes =>
    have step := reader_statement_cons stop opening (inner ++ closing :: rest)
    simp only [opens] at step
    rw [List.cons_append, List.append_assoc, List.singleton_append]
    exact ((passes_of_statements between rest closes).map _).congr step
  | @Statement.assign name sign semicolon inner _ isName isSign right ends =>
    have step := reader_statement_cons stop name (sign :: (inner ++ semicolon :: rest))
    simp only [isName, reader_callOrAssignment] at step
    rw [List.cons_append, List.cons_append, List.append_assoc, List.singleton_append]
    refine (passes_ifNext_of_head (head_ne (by simp [isSign]) _) ?_).congr step
    exact (passes_expect stop isSign _).bind fun _ =>
      passes_of_upTo stop (by simp) rfl right ends _ rest
  | @Statement.call name opening closing semicolon inner _ isName opens between closes ends =>
    have step := reader_statement_cons stop name
      (opening :: (inner ++ closing :: semicolon :: rest))
    simp only [isName, reader_callOrAssignment] at step
    rw [List.cons_append, List.cons_append, List.append_assoc]
    refine (passes_ifNext_of_kind opens ?_).congr step
    exact (passes_of_arguments stop between (semicolon :: rest) closes).bind fun _ =>
      (passes_expect stop ends rest).map _
  | @Statement.giveBack word semicolon inner _ isReturn given ends =>
    have step := reader_statement_cons stop word (inner ++ semicolon :: rest)
    simp only [isReturn, reader_givenBack] at step
    rw [List.cons_append, List.append_assoc, List.singleton_append]
    exact (passes_of_upTo stop (by simp) rfl given ends _ rest).congr step
  | @Statement.ifThen _ word opening closing inner others _ _ isIf opens tested closes chosen =>
    have step := reader_statement_cons stop word
      (opening :: (inner ++ closing :: (others ++ rest)))
    simp only [isIf] at step
    rw [List.cons_append, List.cons_append, List.append_assoc, List.cons_append]
    have noElse := ends rfl
    refine ((passes_of_test stop opens tested closes _).bind fun test => ?_).congr step
    refine (passes_of_statement chosen rest fun _ => noElse).bind fun thenBranch => ?_
    exact passes_ifNext_of_head noElse (passes_of_ok rfl)
  | @Statement.ifThenElse _ word opening closing otherwise inner others alternative _ _ _ isIf
      opens tested closes chosen isElse rejected =>
    have step := reader_statement_cons stop word
      (opening :: (inner ++ closing :: (others ++ otherwise :: (alternative ++ rest))))
    simp only [isIf] at step
    rw [List.cons_append, List.cons_append, List.append_assoc, List.cons_append,
      List.append_assoc, List.cons_append]
    refine ((passes_of_test stop opens tested closes _).bind fun test => ?_).congr step
    refine (passes_of_statement chosen _ fun isOpen => nomatch isOpen).bind fun thenBranch => ?_
    exact passes_ifNext_of_kind isElse ((passes_of_statement rejected rest ends).map _)
  | @Statement.loop _ word opening closing inner others _ _ isWhile opens tested closes
      repeated =>
    have step := reader_statement_cons stop word
      (opening :: (inner ++ closing :: (others ++ rest)))
    simp only [isWhile] at step
    rw [List.cons_append, List.cons_append, List.append_assoc, List.cons_append]
    exact ((passes_of_test stop opens tested closes _).bind fun test =>
      (passes_of_statement repeated rest ends).map _).congr step

theorem passes_of_statements {tokens : List Token} {body : List (Stmt Unit)}
    (derived : Statements tokens body) (rest : List Token) {close : Token}
    (closes : close.kind = .rightBrace) :
    Passes (reader (parseBlock stop)) (tokens ++ close :: rest) rest := by
  match derived with
  | .none =>
    have step := reader_block_cons stop close rest
    rw [if_pos closes] at step
    exact passes_of_ok step
  | @Statements.more _ _ others _ _ head following =>
    have noElse : ∀ token ∈ (others ++ close :: rest).head?, token.kind ≠ .elseWord := by
      cases following with
      | none => exact head_ne (by simp [closes]) rest
      | more second _ =>
        obtain ⟨_, _, rfl, noElse, _⟩ := head_of_statement second
        exact head_ne noElse _
    have first := passes_of_statement head (others ++ close :: rest) fun _ => noElse
    have block := passes_of_statements following rest closes
    rw [List.append_assoc]
    refine (first.bind fun first => block.map (first :: ·)).congr ?_
    obtain ⟨token, inner, rfl, _, noEnd, _⟩ := head_of_statement head
    rw [List.cons_append, reader_block_cons, if_neg noEnd]

end

end Statements

section Definitions

/-- The names of a declaration are read in the same way for every type. -/
theorem passes_of_names {tokens : List Token} {names : List Ident} (named : Names tokens names)
    {semicolon : Token} (ends : semicolon.kind = .semicolon) (rest : List Token) :
    ∃ name behind, tokens = name :: behind ∧ name.kind = .identifier ∧
      ∀ (add : Definitions Declaration → Ident → Result (Definitions Declaration)),
        (∀ scope name error, add scope name = .error error → error.content.isRefusal = false) →
        ∀ scope ident, Passes (reader (parseNames stop add scope ident))
          (behind ++ semicolon :: rest) rest := by
  induction named with
  | @last name isName =>
    refine ⟨name, [], rfl, isName, fun add isOther scope ident => ?_⟩
    rw [reader_names]
    refine (passes_settled (isOther scope ident)).bind fun extended => ?_
    exact passes_ifNext_of_head (head_ne (by simp [ends]) rest)
      ((passes_expect stop ends rest).map _)
  | @more name comma others names isName separates following ih =>
    obtain ⟨next, behind, rfl, isNext, passes⟩ := ih
    refine ⟨name, comma :: next :: behind, rfl, isName, fun add isOther scope ident => ?_⟩
    rw [reader_names]
    refine (passes_settled (isOther scope ident)).bind fun extended => ?_
    exact passes_ifNext_of_kind separates
      ((passes_ident stop isNext _).bind fun ident => passes add isOther extended ident)

theorem passes_of_paramList {tokens : List Token} {params : List Declaration}
    (listed : ParamList tokens params) {close : Token} (closes : close.kind = .rightParen)
    (rest : List Token) :
    Passes (reader (parseParamList stop)) (tokens ++ close :: rest) rest := by
  induction listed with
  | last isType isName =>
    rw [reader_paramList]
    refine (passes_type stop isType _).bind fun ty => ?_
    refine (passes_ident stop isName _).bind fun name => ?_
    exact passes_ifNext_of_head (head_ne (by simp [closes]) rest)
      ((passes_expect stop closes rest).map _)
  | more isType isName separates following ih =>
    rw [reader_paramList]
    refine (passes_type stop isType _).bind fun ty => ?_
    refine (passes_ident stop isName _).bind fun name => ?_
    exact passes_ifNext_of_kind separates (ih.map _)

theorem passes_of_params {tokens : List Token} {params : List Declaration}
    (taken : Params tokens params) {close : Token} (closes : close.kind = .rightParen)
    (rest : List Token) : Passes (reader (parseParams stop)) (tokens ++ close :: rest) rest := by
  rw [reader_params]
  cases taken with
  | none => exact passes_ifNext_of_kind closes (passes_of_ok rfl)
  | some listed =>
    refine passes_ifNext_of_head ?_ (passes_of_paramList stop listed closes rest)
    cases listed with
    | last isType _ | more isType _ _ _ => exact head_ne (by simp [isType]) _

theorem passes_of_declarationLines {tokens : List Token} {declarations : List Declaration}
    (lines : DeclarationLines tokens declarations) (params scope : Definitions Declaration)
    (rest : List Token) (noType : ∀ token ∈ rest.head?, ∀ ty, token.kind ≠ .typeName ty) :
    Passes (reader (parseLocals stop params scope)) (tokens ++ rest) rest := by
  induction lines generalizing scope with
  | none =>
    cases rest with
    | nil => exact passes_of_ok (reader_locals_nil stop params scope)
    | cons token behind =>
      have step := reader_locals_cons stop params scope token behind
      cases kind : token.kind with
      | typeName ty => exact absurd kind (noType token rfl ty)
      | _ =>
        simp only [kind] at step
        exact passes_of_ok step
  | @more _ others _ _ head _ ih =>
    obtain @⟨word, semicolon, ty, _, names, isType, named, ends⟩ := head
    obtain ⟨name, behind, rfl, isName, passes⟩ := passes_of_names stop named ends (others ++ rest)
    have step := reader_locals_cons stop params scope word
      (name :: (behind ++ semicolon :: (others ++ rest)))
    simp only [isType] at step
    rw [List.cons_append, List.cons_append, List.append_assoc, List.append_assoc, List.cons_append,
      List.singleton_append]
    refine ((passes_ident stop isName _).bind fun name => ?_).congr step
    exact (passes _ (fun _ _ _ => declareLocal_not_refusal) scope name).bind ih

/-- The body of a function begins no declaration. -/
theorem noType_of_statements {tokens : List Token} {body : List (Stmt Unit)}
    (done : Statements tokens body) {close : Token} (closes : close.kind = .rightBrace)
    (rest : List Token) :
    ∀ token ∈ (tokens ++ close :: rest).head?, ∀ ty, token.kind ≠ .typeName ty := by
  intro token isFirst ty
  cases done with
  | none => exact head_ne (by simp [closes]) rest token isFirst
  | more head _ =>
    obtain ⟨_, _, rfl, _, _, noType⟩ := head_of_statement head
    exact head_ne (noType ty) _ token isFirst

theorem head_of_functionLine {tokens : List Token} {function : FunctionTree}
    (line : FunctionLine tokens function) :
    ∃ word name opening behind ty, tokens = word :: name :: opening :: behind ∧
      word.kind = .typeName ty ∧ name.kind = .identifier ∧ opening.kind = .leftParen := by
  obtain ⟨isType, isName, opens⟩ := line
  exact ⟨_, _, _, _, _, rfl, isType, isName, opens⟩

theorem passes_of_functionLine {word name opening : Token} {tokens : List Token}
    {function : FunctionTree} (line : FunctionLine (word :: name :: opening :: tokens) function)
    (returnTy : Ty) (ident : Ident) (rest : List Token) :
    Passes (functionBehind stop returnTy ident) (tokens ++ rest) rest := by
  obtain @⟨_, _, _, closing, begins, ends, _, paramTokens, localTokens, bodyTokens, _, _, _, _, _,
    _, taken, closes, isBegin, declared, done, isEnd⟩ := line
  rw [List.append_assoc, List.cons_append, List.cons_append, List.append_assoc, List.append_assoc,
    List.singleton_append]
  unfold functionBehind bodyStart
  refine (passes_of_params stop taken closes _).bind fun formals => ?_
  refine (passes_settled fun _ => declareParams_not_refusal).bind fun params => ?_
  refine Passes.bind ?_ fun locals => (passes_of_statements stop done rest isEnd).map _
  exact (passes_expect stop isBegin _).bind fun _ =>
    passes_of_declarationLines stop declared params .empty _ (noType_of_statements done isEnd rest)

/-- A sentence is not refused. -/
theorem passes_of_sentence {tokens : List Token} {tree : ProgramTree}
    (sentence : Sentence tokens tree) (program : Program Unit) :
    Passes (definitions stop program) tokens [] := by
  induction sentence generalizing program with
  | none => exact passes_of_ok (definitions_nil stop program)
  | @declaration _ others _ _ head _ ih =>
    obtain @⟨word, semicolon, ty, _, names, isType, named, ends⟩ := head
    obtain ⟨name, behind, rfl, isName, passes⟩ := passes_of_names stop named ends others
    have noParen : ∀ token ∈ (behind ++ semicolon :: others).head?, token.kind ≠ .leftParen := by
      cases named with
      | last _ => exact head_ne (by simp [ends]) others
      | more _ separates _ => exact head_ne (by simp [separates]) _
    rw [List.cons_append, List.cons_append, List.cons_append, List.append_assoc,
      List.singleton_append]
    refine Passes.congr ?_ (definitions_cons stop program word _)
    refine (passes_type stop isType _).bind fun ty => ?_
    refine (passes_ident stop isName _).bind fun name => ?_
    refine passes_ifNext_of_head noParen ?_
    exact (passes _ (fun _ _ _ => declare_not_refusal) program.globals name).bind fun globals =>
      ih { program with globals }
  | @function _ others function _ head _ ih =>
    obtain ⟨word, name, opening, behind, ty, rfl, isType, isName, opens⟩ :=
      head_of_functionLine head
    refine Passes.congr ?_ (definitions_cons stop program word _)
    refine (passes_type stop isType _).bind fun ty => ?_
    refine (passes_ident stop isName _).bind fun name => ?_
    refine passes_ifNext_of_kind opens ?_
    refine (passes_of_functionLine stop head ty name others).bind fun function => ?_
    exact (passes_settled fun _ => addFunction_not_refusal).bind ih

end Definitions

end TypedImp.Grammar
