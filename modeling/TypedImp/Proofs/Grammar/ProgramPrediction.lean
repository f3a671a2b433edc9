import TypedImp.Proofs.Grammar.StatementPrediction

/-!
# Prediction of programs

The readers of declarations, functions and programs follow the rules of the grammar.  The errors
of repeated names and of variables without a type refuse no token, so nothing is said about them.
-/

namespace TypedImp.Grammar

open TypedImp.Parser

/-- One name or more with commas between them. -/
def AreNames (tokens : List Token) : Prop :=
  ∃ names, Names tokens names

/-- What may stand behind the first name of a declaration, up to the semicolon. -/
def IsBehindName (tokens : List Token) : Prop :=
  ∀ name : Token, name.kind = .identifier → UpTo .semicolon AreNames (name :: tokens)

/-- A type and names of that type. -/
def IsDeclaration (tokens : List Token) : Prop :=
  ∃ declarations, DeclarationLine tokens declarations

/-- The declarations at the start of a body. -/
def AreDeclarations (tokens : List Token) : Prop :=
  ∃ declarations, DeclarationLines tokens declarations

/-- One parameter or more. -/
def IsParamList (tokens : List Token) : Prop :=
  ∃ params, ParamList tokens params

/-- The parameters of a function. -/
def AreParams (tokens : List Token) : Prop :=
  ∃ params, Params tokens params

/-- What may stand behind a parameter, up to the closing parenthesis. -/
def IsBehindParam (tokens : List Token) : Prop :=
  IsToken .rightParen tokens ∨ Behind .comma (UpTo .rightParen IsParamList) tokens

/-- What stands of a function behind the opening parenthesis. -/
def IsFunctionRest : List Token → Prop :=
  Joined (UpTo .rightParen AreParams)
    (Joined (Behind .leftBrace AreDeclarations) (UpTo .rightBrace AreStatements))

/-- A sequence of declarations and functions. -/
def IsProgram (tokens : List Token) : Prop :=
  ∃ tree, Sentence tokens tree

/-- What may stand behind the name of the first definition. -/
def IsBehindFirstName (tokens : List Token) : Prop :=
  Joined IsBehindName IsProgram tokens ∨ Behind .leftParen (Joined IsFunctionRest IsProgram) tokens

section Words

theorem isBehindName_semicolon {tokens : List Token} (ends : IsToken .semicolon tokens) :
    IsBehindName tokens := by
  obtain ⟨semicolon, rfl, ends⟩ := ends
  exact fun name isName => ⟨[name], semicolon, rfl, ⟨_, .last isName⟩, ends⟩

theorem isBehindName_comma {comma : Token} {tokens : List Token} (separates : comma.kind = .comma)
    (named : Behind .identifier IsBehindName tokens) : IsBehindName (comma :: tokens) := by
  obtain ⟨next, behind, rfl, isNext, following⟩ := named
  obtain ⟨front, semicolon, split, ⟨names, written⟩, ends⟩ := following next isNext
  rw [split]
  exact fun name isName =>
    ⟨name :: comma :: front, semicolon, rfl, ⟨_, .more isName separates written⟩, ends⟩

theorem isDeclaration_cons {word : Token} {ty : Ty} {tokens : List Token}
    (isType : word.kind = .typeName ty) (named : Behind .identifier IsBehindName tokens) :
    IsDeclaration (word :: tokens) := by
  obtain ⟨name, behind, rfl, isName, following⟩ := named
  obtain ⟨front, semicolon, split, ⟨names, written⟩, ends⟩ := following name isName
  rw [split]
  exact ⟨_, .mk isType written ends⟩

theorem areDeclarations_append {first others : List Token} (head : IsDeclaration first)
    (following : AreDeclarations others) : AreDeclarations (first ++ others) := by
  obtain ⟨_, head⟩ := head
  obtain ⟨_, following⟩ := following
  exact ⟨_, .more head following⟩

theorem isParamList_cons {word : Token} {ty : Ty} {tokens : List Token}
    (isType : word.kind = .typeName ty) (named : Behind .identifier IsBehindParam tokens) :
    UpTo .rightParen IsParamList (word :: tokens) := by
  obtain ⟨name, _, rfl, isName, ⟨close, rfl, closes⟩ |
    ⟨comma, _, rfl, isComma, others, close, rfl, ⟨params, listed⟩, closes⟩⟩ := named
  · exact ⟨[word, name], close, rfl, ⟨_, .last isType isName⟩, closes⟩
  · exact ⟨word :: name :: comma :: others, close, rfl, ⟨_, .more isType isName isComma listed⟩,
      closes⟩

theorem exists_isFunctionRest : ∃ tokens, IsFunctionRest tokens :=
  exists_joined (exists_upTo .rightParen ⟨[], [], .none⟩)
    (exists_joined (exists_behind .leftBrace ⟨[], [], .none⟩)
      (exists_upTo .rightBrace ⟨[], [], .none⟩))

theorem isProgram_cons {word : Token} {ty : Ty} {tokens : List Token}
    (isType : word.kind = .typeName ty) (named : Behind .identifier IsBehindFirstName tokens) :
    IsProgram (word :: tokens) := by
  obtain ⟨name, _, rfl, isName, ⟨line, others, rfl, declared, tree, following⟩ |
    ⟨opening, _, rfl, opens, rest, others, rfl, defined, tree, following⟩⟩ := named
  · obtain ⟨_, declared⟩ := isDeclaration_cons isType ⟨name, line, rfl, isName, declared⟩
    exact ⟨_, .declaration declared following⟩
  · obtain ⟨_, _, rfl, ⟨params, closing, rfl, ⟨_, taken⟩, closes⟩, _, _, rfl,
      ⟨begins, locals, rfl, isBegin, _, declared⟩, body, ends, rfl, ⟨_, done⟩, isEnd⟩ := defined
    have line := FunctionLine.mk isType isName opens taken closes isBegin declared done isEnd
    have whole := Sentence.function line following
    exact ⟨_, by simpa using whole⟩

end Words

section Errors

theorem declare_not_refusal {scope : Definitions Declaration} {name : Ident} {ty : Ty}
    {error : Spanned SyntaxError} (failed : declare scope name ty = .error error) :
    error.content.isRefusal = false := by
  unfold declare at failed
  split at failed
  · cases failed
    rfl
  · split at failed <;> cases failed
    rfl

theorem declareLocal_not_refusal {params scope : Definitions Declaration} {name : Ident} {ty : Ty}
    {error : Spanned SyntaxError} (failed : declareLocal params scope name ty = .error error) :
    error.content.isRefusal = false := by
  unfold declareLocal at failed
  split at failed
  · cases failed
    rfl
  · exact declare_not_refusal failed

theorem declareParams_not_refusal {formals : List Declaration} {error : Spanned SyntaxError}
    (failed : declareParams formals = .error error) : error.content.isRefusal = false := by
  unfold declareParams at failed
  generalize (Definitions.empty : Definitions Declaration) = scope at failed
  induction formals generalizing scope with
  | nil => cases failed
  | cons formal others ih =>
    rw [List.foldlM_cons] at failed
    cases declared : declare scope formal.name formal.ty with
    | error error' =>
      rw [declared] at failed
      cases failed
      exact declare_not_refusal declared
    | ok extended =>
      rw [declared] at failed
      exact ih extended failed

theorem addFunction_not_refusal {program : Program Unit} {name : Ident} {function : Function Unit}
    {error : Spanned SyntaxError} (failed : addFunction program name function = .error error) :
    error.content.isRefusal = false := by
  unfold addFunction at failed
  split at failed <;> cases failed
  rfl

end Errors

variable {stop : Nat}

theorem predicts_names
    {add : Definitions Declaration → Ident → Result (Definitions Declaration)}
    (isOther : ∀ scope name error, add scope name = .error error →
      error.content.isRefusal = false)
    (scope : Definitions Declaration) (name : Ident) (tokens : List Token) :
    Predicts stop IsBehindName (fun stop => reader (parseNames stop add scope name)) tokens := by
  induction length : tokens.length using Nat.strongRecOn generalizing tokens scope name with
  | ind _ ih =>
    have possible : ∃ more, IsBehindName more :=
      ⟨_, isBehindName_semicolon (isToken_mk .semicolon)⟩
    refine Predicts.congr ?_ fun stop' others _ =>
      congrFun (reader_names stop' add scope name) others
    refine predicts_settled_bind (isOther scope name) fun extended => ?_
    refine Predicts.ifNext .comma (Behind .identifier IsBehindName) (fun comma rest split _ => ?_)
      (fun _ => ((predicts_expect .semicolon tokens).map _).mono fun _ => isBehindName_semicolon)
      fun _ _ => isBehindName_comma
    refine predicts_named (fun next left shorter => ?_) possible
    rw [split, List.length_cons] at length
    exact ih _ (by omega) extended next left rfl

theorem predicts_paramList (tokens : List Token) :
    Predicts stop (UpTo .rightParen IsParamList) (fun stop => reader (parseParamList stop))
      tokens := by
  induction length : tokens.length using Nat.strongRecOn generalizing tokens with
  | ind _ ih =>
    refine Predicts.congr ?_ fun stop' others _ => congrFun (reader_paramList stop') others
    have possible : ∃ more, IsBehindParam more := ⟨_, .inl (isToken_mk .rightParen)⟩
    refine (predicts_type tokens).bind (Behind .identifier IsBehindParam) (fun ty rest read => ?_)
      (exists_behind .identifier possible) ?_
    · refine predicts_named (fun name behind shorter => ?_) possible
      refine Predicts.ifNext .comma (UpTo .rightParen IsParamList) (fun comma left split _ => ?_)
        (fun _ => ((predicts_expect .rightParen behind).map _).mono fun _ => .inl)
        fun _ _ isComma listed => .inr (behind_cons isComma listed)
      have typed : rest.length < tokens.length := length_lt_of_reader read
      rw [split, List.length_cons] at shorter
      exact (ih _ (by omega) left rfl).map _
    · rintro _ behind ⟨word, ty, rfl, isType⟩ named
      exact isParamList_cons isType named

theorem predicts_params (tokens : List Token) :
    Predicts stop (UpTo .rightParen AreParams) (fun stop => reader (parseParams stop)) tokens := by
  simp only [reader_params]
  refine Predicts.ifNext .rightParen (· = [])
    (fun _ _ _ _ => predicts_pure _ rfl) (fun _ => ?_) ?_
  · exact (predicts_paramList tokens).mono fun _ =>
      upTo_mono fun _ ⟨params, listed⟩ => ⟨params, .some listed⟩
  · rintro close _ closes rfl
    exact ⟨[], close, rfl, ⟨[], .none⟩, closes⟩

theorem predicts_locals (params scope : Definitions Declaration) (tokens : List Token) :
    Predicts stop AreDeclarations (fun stop => reader (parseLocals stop params scope)) tokens := by
  induction length : tokens.length using Nat.strongRecOn generalizing tokens scope with
  | ind _ ih =>
    have empty : AreDeclarations [] := ⟨[], .none⟩
    have none : Predicts stop AreDeclarations (fun _ => pure scope) tokens :=
      predicts_pure scope empty
    cases tokens with
    | nil => exact none.congr_nil fun stop' => reader_locals_nil stop' params scope
    | cons word rest =>
      have step := fun stop' => reader_locals_cons stop' params scope word
      cases kind : word.kind with
      | typeName ty =>
        simp only [kind] at step
        have line (name : Ident) (behind : List Token) :
            Predicts stop IsBehindName (fun stop => reader (parseNames stop
              (fun scope name => declareLocal params scope name ty) scope name)) behind :=
          predicts_names (fun _ _ _ => declareLocal_not_refusal) scope name behind
        have lines : Predicts stop (Behind .identifier (Joined IsBehindName AreDeclarations))
            (fun stop => do
              let name ← reader (parseIdent stop)
              let extended ← reader (parseNames stop
                (fun scope name => declareLocal params scope name ty) scope name)
              reader (parseLocals stop params extended)) rest := by
          refine predicts_named (fun name behind shorter => ?_)
            (exists_joined ⟨_, isBehindName_semicolon (isToken_mk .semicolon)⟩ ⟨[], empty⟩)
          refine (line name behind).bind AreDeclarations (fun extended left read => ?_) ⟨[], empty⟩
            fun _ _ => joined_append
          have shorterLeft : left.length < behind.length := length_lt_of_reader read
          rw [List.length_cons] at length
          exact ih _ (by omega) extended left rfl
        refine lines.behind step ?_
        rintro _ ⟨name, _, rfl, isName, front, others, rfl, named, following⟩
        have head := isDeclaration_cons kind ⟨name, front, rfl, isName, named⟩
        exact areDeclarations_append head following
      | _ =>
        simp only [kind] at step
        exact none.congr_cons step

theorem predicts_bodyStart (params : Definitions Declaration) (tokens : List Token) :
    Predicts stop (Behind .leftBrace AreDeclarations) (fun stop => bodyStart stop params)
      tokens := by
  unfold bodyStart
  exact (predicts_expect .leftBrace tokens).bind AreDeclarations
    (fun _ rest _ => predicts_locals params .empty rest) ⟨[], [], .none⟩ fun _ _ => behind_append

theorem predicts_functionBehind (returnTy : Ty) (name : Ident) (tokens : List Token) :
    Predicts stop IsFunctionRest (fun stop => functionBehind stop returnTy name) tokens := by
  unfold functionBehind
  have block : ∃ more, UpTo .rightBrace AreStatements more :=
    exists_upTo .rightBrace ⟨[], [], .none⟩
  refine (predicts_params tokens).bind _ (fun formals rest _ => ?_)
    (exists_joined (exists_behind .leftBrace ⟨[], [], .none⟩) block) fun _ _ => joined_append
  refine predicts_settled_bind (fun _ => declareParams_not_refusal) fun params => ?_
  exact (predicts_bodyStart params rest).bind _
    (fun _ behind _ => (predictsStatements stop behind).block.map _) block
    fun _ _ => joined_append

theorem predicts_afterFirstName {tokens : List Token}
    (ih : ∀ (program : Program Unit) (shorter : List Token), shorter.length ≤ tokens.length →
      Predicts stop IsProgram (fun stop => definitions stop program) shorter)
    (program : Program Unit) (ty : Ty) (name : Ident) :
    Predicts stop IsBehindFirstName (fun stop => afterFirstName stop program ty name) tokens := by
  have empty : ∃ more, IsProgram more := ⟨[], _, .none⟩
  unfold afterFirstName
  refine Predicts.ifNext .leftParen (Joined IsFunctionRest IsProgram)
    (fun opening rest split _ => ?_) (fun _ => ?_)
    fun _ _ opens defined => .inr (behind_cons opens defined)
  · have defined : Predicts stop IsFunctionRest (fun stop => functionBehind stop ty name) rest :=
      predicts_functionBehind ty name rest
    refine defined.bind _ (fun function left read => ?_) empty fun _ _ => joined_append
    refine predicts_settled_bind (fun _ => addFunction_not_refusal) fun extended => ih _ _ ?_
    have notLonger := defined.length_le read
    rw [split, List.length_cons]
    omega
  · have declared : Predicts stop IsBehindName (fun stop => reader (parseNames stop
        (fun scope name => declare scope name ty) program.globals name)) tokens :=
      predicts_names (fun _ _ _ => declare_not_refusal) program.globals name tokens
    have following := declared.bind IsProgram
      (fun globals left read => ih { program with globals } left (declared.length_le read)) empty
      fun _ _ => joined_append
    exact following.mono fun _ => .inl

/-- The reader of programs follows the rules of the grammar. -/
theorem predicts_definitions (program : Program Unit) (tokens : List Token) :
    Predicts stop IsProgram (fun stop => definitions stop program) tokens := by
  induction length : tokens.length using Nat.strongRecOn generalizing tokens program with
  | ind _ ih =>
    have empty : IsProgram [] := ⟨_, .none⟩
    cases tokens with
    | nil =>
      exact (predicts_pure program empty).congr_nil fun stop' => definitions_nil stop' program
    | cons word rest =>
      have possible : ∃ more, IsBehindFirstName more := by
        obtain ⟨more, written⟩ :=
          exists_behind .leftParen (exists_joined exists_isFunctionRest ⟨[], empty⟩)
        exact ⟨more, .inr written⟩
      have line : Predicts stop IsProgram
          (fun stop => do
            let ty ← reader (parseType stop)
            let name ← reader (parseIdent stop)
            afterFirstName stop program ty name) (word :: rest) := by
        refine (predicts_type _).bind (Behind .identifier IsBehindFirstName)
          (fun ty left read => ?_) (exists_behind .identifier possible) ?_
        · have typed : left.length < (word :: rest).length := length_lt_of_reader read
          refine predicts_named (fun name behind shorter => ?_) possible
          refine predicts_afterFirstName (fun program others notLonger => ?_) program ty name
          exact ih _ (by omega) program others rfl
        · rintro _ behind ⟨word, ty, rfl, isType⟩ named
          exact isProgram_cons isType named
      exact line.congr_cons fun stop' => definitions_cons stop' program word

end TypedImp.Grammar
