import TypedImp.Proofs.Alignment.Reading

/-!
# Reading the same program at other places

From the same tokens the same statements and definitions are read, and the definitions
are refused for the same names.
-/

namespace TypedImp

/-- Related definitions are added to related ones, or both names are taken already. -/
theorem Definitions.endAlike_insert {α : Type} [Named α] {related : α → α → Prop}
    {definitions definitions' : Definitions α} {definition definition' : α}
    (same : List.Forall₂ related definitions.toList definitions'.toList)
    (added : related definition definition')
    (names : ∀ first second, related first second →
      (Named.ident first).name = (Named.ident second).name) :
    EndAlike related (fun extended extended' =>
        List.Forall₂ related extended.toList extended'.toList)
      (definitions.insert definition) (definitions'.insert definition') := by
  have found := Definitions.rel_get? same names (Named.ident definition).name
  cases inserted : definitions.insert definition with
  | error earlier =>
    rw [Definitions.insert_eq_error_iff] at inserted
    rw [inserted] at found
    generalize others : definitions'.get? (Named.ident definition).name = other at found
    cases found with
    | some earliers =>
      rw [names _ _ added, ← Definitions.insert_eq_error_iff] at others
      rw [others]
      exact .error earliers
  | ok extended =>
    cases inserted' : definitions'.insert definition' with
    | error earlier =>
      rw [Definitions.insert_eq_error_iff, ← names _ _ added] at inserted'
      rw [inserted'] at found
      generalize others : definitions.get? (Named.ident definition).name = other at found
      cases found with
      | some earliers =>
        rw [← Definitions.insert_eq_error_iff, inserted] at others
        cases others
    | ok extended' =>
      refine .ok ?_
      rw [Definitions.toList_insert inserted, Definitions.toList_insert inserted']
      exact List.rel_append same (.cons added .nil)

namespace Alignment

open TypedImp.Parser

variable {alignment : Alignment} {stop stop' : Nat}

section Statements

theorem sameReading_parseTest (stops : alignment.spans (.emptyAt stop) (.emptyAt stop'))
    {tokens tokens' : List Token} (same : alignment.SameTokens tokens tokens') :
    alignment.SameReading alignment.SameExpr (parseTest stop tokens) (parseTest stop' tokens') := by
  refine (sameReading_expect stops same .leftParen).andThen ?_
  intro _ _ _ rest rest' sameRest _ _
  refine (sameReading_parseExpr stops sameRest).andThen ?_
  intro test test' tests rest rest' sameRest _ _
  exact (sameReading_expect stops sameRest .rightParen).give fun _ _ _ => tests

theorem sameReading_parseCallOrAssignment
    (stops : alignment.spans (.emptyAt stop) (.emptyAt stop')) {target target' : Ident}
    (targets : alignment.SameIdent target target') {tokens tokens' : List Token}
    (same : alignment.SameTokens tokens tokens') :
    alignment.SameReading alignment.SameStmt (parseCallOrAssignment stop target tokens)
      (parseCallOrAssignment stop' target' tokens') := by
  have taken := rel_take? same .leftParen
  unfold parseCallOrAssignment
  generalize take? .leftParen tokens = opening, take? .leftParen tokens' = opening' at taken
  cases taken with
  | none =>
    refine (sameReading_expect stops same .assign).andThen ?_
    intro _ _ _ rest rest' sameRest _ _
    refine (sameReading_parseExpr stops sameRest).andThen ?_
    intro value value' values rest rest' sameRest _ _
    exact (sameReading_expect stops sameRest .semicolon).give fun _ _ _ =>
      .assign targets values
  | some sameParsed =>
    refine .after <| (sameReading_parseArguments stops sameParsed.2).andThen ?_
    intro arguments arguments' passed rest rest' sameRest _ _
    exact (sameReading_expect stops sameRest .semicolon).give fun _ _ _ =>
      .call targets passed.1 (alignment.cover targets.span passed.2.span)

theorem sameReading_parseGivenBack (stops : alignment.spans (.emptyAt stop) (.emptyAt stop'))
    {word word' : Token} (words : alignment.SameToken word word') {tokens tokens' : List Token}
    (same : alignment.SameTokens tokens tokens') :
    alignment.SameReading alignment.SameStmt (parseGivenBack stop word tokens)
      (parseGivenBack stop' word' tokens') := by
  refine (sameReading_parseExpr stops same).andThen ?_
  intro value value' values rest rest' sameRest _ _
  exact (sameReading_expect stops sameRest .semicolon).give fun _ _ _ =>
    .giveBack values words.span

mutual

theorem sameReading_parseStatement (stops : alignment.spans (.emptyAt stop) (.emptyAt stop'))
    {tokens tokens' : List Token} (same : alignment.SameTokens tokens tokens') :
    alignment.SameReading alignment.SameStmt (parseStatement stop tokens)
      (parseStatement stop' tokens') := by
  cases same with
  | nil =>
    rw [parseStatement, parseStatement]
    exact (sameToken_endAt stops).refuse rfl
  | @cons token token' behind behind' head following =>
    rw [parseStatement, parseStatement]
    cases head with
    | @mk kind text span span' spans =>
      have word : alignment.SameToken ⟨kind, span, text⟩ ⟨kind, span', text⟩ := .mk _ _ spans
      cases kind with
      | semicolon => exact sameReading_single .skip following
      | leftBrace =>
        exact .afterToken <| (sameReading_parseBlock stops following).give fun _ _ inner =>
          .block inner
      | ifWord =>
        refine .afterToken <| (sameReading_parseTest stops following).andThen ?_
        intro test test' tests rest rest' sameRest tested _
        refine (sameReading_parseStatement stops sameRest).andMaybe ?_
        intro thenBranch thenBranch' chosen rest rest' sameRest _ _
        have taken := rel_take? sameRest .elseWord
        generalize take? .elseWord rest = elseWord, take? .elseWord rest' = elseWord' at taken
        cases taken with
        | none => exact sameReading_nothing (.conditional tests chosen .skip) sameRest
        | @some parsed parsed' sameParsed =>
          obtain ⟨_, last, otherwise⟩ := parsed
          exact .optional <| .after <|
            (sameReading_parseStatement stops sameParsed.2).give fun _ _ rejected =>
              .conditional tests chosen rejected
      | whileWord =>
        refine .afterToken <| (sameReading_parseTest stops following).andThen ?_
        intro test test' tests rest rest' sameRest tested _
        exact (sameReading_parseStatement stops sameRest).give fun _ _ inner =>
          .loop tests inner
      | returnWord => exact .afterToken <| sameReading_parseGivenBack stops word following
      | identifier =>
        exact .afterToken <|
          sameReading_parseCallOrAssignment stops (.mk text spans) following
      | _ => exact word.refuse rfl
termination_by 2 * tokens.length
decreasing_by all_goals simp only [List.length_cons] at *; omega

theorem sameReading_parseBlock (stops : alignment.spans (.emptyAt stop) (.emptyAt stop'))
    {tokens tokens' : List Token} (same : alignment.SameTokens tokens tokens') :
    alignment.SameReading alignment.SameStmts (parseBlock stop tokens)
      (parseBlock stop' tokens') := by
  cases same with
  | nil =>
    rw [parseBlock, parseBlock]
    exact (sameToken_endAt stops).refuse rfl
  | @cons token token' behind behind' head following =>
    rw [parseBlock, parseBlock, ← head.kind]
    split
    · exact sameReading_single .nil following
    · refine (sameReading_parseStatement stops (.cons head following)).andThen ?_
      intro first first' firsts rest rest' sameRest shorter _
      exact (sameReading_parseBlock stops sameRest).give fun _ _ others => .cons firsts others
termination_by 2 * tokens.length + 1
decreasing_by all_goals simp only [List.length_cons] at *; omega

end

end Statements

section Declarations

theorem endAlike_declare {scope scope' : Definitions Declaration}
    (same : alignment.SameDeclarations scope scope') {name name' : Ident}
    (names : alignment.SameIdent name name') (ty : Ty) :
    EndAlike alignment.SameRefusal alignment.SameDeclarations (declare scope name ty)
      (declare scope' name' ty) := by
  unfold declare
  split
  case isTrue =>
    rw [names.name]
    exact .error ⟨names.span, .placeless rfl⟩
  case isFalse =>
    have added : alignment.SameDeclaration ⟨name, ty⟩ ⟨name', ty⟩ := ⟨names, rfl⟩
    have inserted := Definitions.endAlike_insert same added
      fun _ _ declarations => declarations.name.name
    generalize scope.insert ⟨name, ty⟩ = result, scope'.insert ⟨name', ty⟩ = result' at inserted
    cases inserted with
    | error earliers =>
      refine .error ⟨names.span, ?_⟩
      rw [earliers.name.name]
      exact .duplicateDeclaration _ earliers.name.span
    | ok extended => exact .ok extended

theorem endAlike_declareLocal {params params' scope scope' : Definitions Declaration}
    (sameParams : alignment.SameDeclarations params params')
    (same : alignment.SameDeclarations scope scope') {name name' : Ident}
    (names : alignment.SameIdent name name') (ty : Ty) :
    EndAlike alignment.SameRefusal alignment.SameDeclarations (declareLocal params scope name ty)
      (declareLocal params' scope' name' ty) := by
  have found := sameVariables_of_sameDeclarations sameParams name.name
  unfold declareLocal
  rw [← names.name]
  generalize params.get? name.name = earlier, params'.get? name.name = earlier' at found
  cases found with
  | none => exact endAlike_declare same names ty
  | some earliers => exact .error ⟨names.span, .duplicateDeclaration _ earliers.name.span⟩

theorem sameReading_parseNames (stops : alignment.spans (.emptyAt stop) (.emptyAt stop'))
    {add add' : Definitions Declaration → Ident → Result (Definitions Declaration)}
    (adds : ∀ scope scope' name name', alignment.SameDeclarations scope scope' →
      alignment.SameIdent name name' →
        EndAlike alignment.SameRefusal alignment.SameDeclarations (add scope name)
          (add' scope' name'))
    {scope scope' : Definitions Declaration} (scopes : alignment.SameDeclarations scope scope')
    {name name' : Ident} (names : alignment.SameIdent name name') {tokens tokens' : List Token}
    (same : alignment.SameTokens tokens tokens') :
    alignment.SameReading alignment.SameDeclarations (parseNames stop add scope name tokens)
      (parseNames stop' add' scope' name' tokens') := by
  rw [parseNames, parseNames]
  apply (adds scope scope' name name' scopes names).bind
  intro extended extended' extendeds
  have taken := rel_take? same .comma
  generalize take? .comma tokens = separator, take? .comma tokens' = separator' at taken
  cases taken with
  | none => exact (sameReading_expect stops same .semicolon).give fun _ _ _ => extendeds
  | @some parsed parsed' sameParsed =>
    obtain ⟨_, rest, separated⟩ := parsed
    refine SameReading.after <| (sameReading_parseIdent stops sameParsed.2).andThen ?_
    intro next next' nexts rest rest' sameRest named _
    exact sameReading_parseNames stops adds extendeds nexts sameRest
termination_by tokens.length
decreasing_by dsimp only at *; omega

theorem sameReading_parseParamList (stops : alignment.spans (.emptyAt stop) (.emptyAt stop'))
    {tokens tokens' : List Token} (same : alignment.SameTokens tokens tokens') :
    alignment.SameReading (List.Forall₂ alignment.SameDeclaration) (parseParamList stop tokens)
      (parseParamList stop' tokens') := by
  rw [parseParamList, parseParamList]
  refine (sameReading_parseType stops same).andThen ?_
  rintro ty _ rfl rest rest' sameRest typed _
  refine (sameReading_parseIdent stops sameRest).andThen ?_
  intro name name' names rest rest' sameRest named _
  have taken := rel_take? sameRest .comma
  generalize take? .comma rest = separator, take? .comma rest' = separator' at taken
  cases taken with
  | none =>
    exact (sameReading_expect stops sameRest .rightParen).give fun _ _ _ =>
      .cons ⟨names, rfl⟩ .nil
  | @some parsed parsed' sameParsed =>
    obtain ⟨_, last, separated⟩ := parsed
    exact .after <| (sameReading_parseParamList stops sameParsed.2).give fun _ _ following =>
      .cons ⟨names, rfl⟩ following
termination_by tokens.length
decreasing_by omega

theorem sameReading_parseParams (stops : alignment.spans (.emptyAt stop) (.emptyAt stop'))
    {tokens tokens' : List Token} (same : alignment.SameTokens tokens tokens') :
    alignment.SameReading (List.Forall₂ alignment.SameDeclaration) (parseParams stop tokens)
      (parseParams stop' tokens') := by
  have taken := rel_take? same .rightParen
  unfold parseParams
  generalize take? .rightParen tokens = close, take? .rightParen tokens' = close' at taken
  cases taken with
  | none => exact sameReading_parseParamList stops same
  | some sameParsed => exact .ok ⟨.nil, sameParsed.2⟩

theorem sameReading_parseLocals (stops : alignment.spans (.emptyAt stop) (.emptyAt stop'))
    {params params' : Definitions Declaration}
    (sameParams : alignment.SameDeclarations params params')
    {scope scope' : Definitions Declaration} (scopes : alignment.SameDeclarations scope scope')
    {tokens tokens' : List Token} (same : alignment.SameTokens tokens tokens') :
    alignment.SameReading alignment.SameDeclarations (parseLocals stop params scope tokens)
      (parseLocals stop' params' scope' tokens') := by
  cases same with
  | nil =>
    rw [parseLocals, parseLocals]
    exact sameReading_nothing scopes .nil
  | @cons token token' behind behind' head following =>
    rw [parseLocals, parseLocals]
    cases head with
    | @mk kind text span span' spans =>
      cases kind with
      | typeName ty =>
        refine .optional <| .afterToken <| (sameReading_parseIdent stops following).andThen ?_
        intro name name' names rest rest' sameRest named _
        refine SameReading.andMaybe (sameReading_parseNames stops ?_ scopes names sameRest) ?_
        · intro _ _ _ _ scopes names
          exact endAlike_declareLocal sameParams scopes names ty
        intro scope scope' scopes rest rest' sameRest declared _
        exact sameReading_parseLocals stops sameParams scopes sameRest
      | _ => exact sameReading_nothing scopes (.cons (.mk _ text spans) following)
termination_by tokens.length
decreasing_by simp only [List.length_cons]; omega

theorem endAlike_declareParams {formals formals' : List Declaration}
    (same : List.Forall₂ alignment.SameDeclaration formals formals') :
    EndAlike alignment.SameRefusal alignment.SameDeclarations (declareParams formals)
      (declareParams formals') := by
  have declared {scope scope' : Definitions Declaration}
      (scopes : alignment.SameDeclarations scope scope') :
      EndAlike alignment.SameRefusal alignment.SameDeclarations
        (formals.foldlM (fun scope formal => declare scope formal.name formal.ty) scope)
        (formals'.foldlM (fun scope formal => declare scope formal.name formal.ty) scope') := by
    induction same generalizing scope scope' with
    | nil => exact .ok scopes
    | cons head _ ih =>
      rw [List.foldlM_cons, List.foldlM_cons, head.ty]
      exact (endAlike_declare scopes head.name _).bind fun _ _ extended => ih extended
  exact declared .nil

theorem sameReading_parseFunction (stops : alignment.spans (.emptyAt stop) (.emptyAt stop'))
    (returnTy : Ty) {name name' : Ident} (names : alignment.SameIdent name name')
    {tokens tokens' : List Token} (same : alignment.SameTokens tokens tokens') :
    alignment.SameReading alignment.SameListing (parseFunction stop returnTy name tokens)
      (parseFunction stop' returnTy name' tokens') := by
  refine (sameReading_expect stops same .leftParen).andThen ?_
  intro _ _ _ rest rest' sameRest _ _
  refine (sameReading_parseParams stops sameRest).andThen ?_
  intro formals formals' sameFormals rest rest' sameRest _ _
  apply (endAlike_declareParams sameFormals).bind
  intro params params' sameParams
  have declared : alignment.SameReading alignment.SameDeclarations
      (andMaybe (expect stop .leftBrace rest) fun _ rest _ => parseLocals stop params .empty rest)
      (andMaybe (expect stop' .leftBrace rest') fun _ rest _ =>
        parseLocals stop' params' .empty rest) := by
    refine (sameReading_expect stops sameRest .leftBrace).andMaybe ?_
    intro _ _ _ rest rest' sameRest _ _
    exact sameReading_parseLocals stops sameParams .nil sameRest
  apply declared.andThen
  intro locals locals' sameLocals rest rest' sameRest _ _
  refine (sameReading_parseBlock stops sameRest).give fun _ _ bodies => ?_
  exact ⟨⟨rfl, names, sameParams, sameVariables_of_sameDeclarations sameLocals, bodies⟩, sameLocals⟩

theorem alike_parseDefinitions (stops : alignment.spans (.emptyAt stop) (.emptyAt stop'))
    {program program' : Program Unit} (programs : alignment.SameProgram program program')
    {tokens tokens' : List Token} (same : alignment.SameTokens tokens tokens') :
    Recorded.Alike alignment.SameRefusal alignment.SameProgram
      (parseDefinitions stop program tokens) (parseDefinitions stop' program' tokens') := by
  cases same with
  | nil =>
    rw [parseDefinitions, parseDefinitions]
    exact .value programs
  | @cons token token' behind behind' head following =>
    rw [parseDefinitions, parseDefinitions]
    apply (Recorded.Alike.ofExcept (sameReading_parseType stops (.cons head following))).bind
    rintro ⟨ty, afterType, typed⟩ ⟨_, _, _⟩ ⟨rfl, sameRest⟩
    apply (Recorded.Alike.ofExcept (sameReading_parseIdent stops sameRest)).bind
    rintro ⟨name, afterName, named⟩ ⟨name', afterName', _⟩ ⟨names, sameRest⟩
    have fewer : afterName.length < (token :: behind).length := Nat.lt_trans named typed
    have taken := rel_take? sameRest .leftParen
    dsimp only at taken ⊢
    generalize take? .leftParen afterName = opening, take? .leftParen afterName' = opening'
      at taken
    cases taken with
    | none =>
      apply (Recorded.Alike.ofExcept (sameReading_parseNames stops
        (fun _ _ _ _ scopes names => endAlike_declare scopes names ty) programs.globals names
        sameRest)).bind
      rintro ⟨globals, rest, shorter⟩ ⟨globals', _, _⟩ ⟨sameGlobals, sameRest⟩
      have shorter : rest.length < afterName.length := shorter
      have extended : alignment.SameProgram { program with globals }
          ⟨globals', program'.functions⟩ := ⟨sameGlobals, programs.functions⟩
      exact alike_parseDefinitions stops extended sameRest
    | some =>
      apply (Recorded.Alike.ofExcept (sameReading_parseFunction stops ty names sameRest)).bind
      rintro ⟨function, rest, shorter⟩ ⟨function', _, _⟩ ⟨listing, sameRest⟩
      have shorter : rest.length < afterName.length := shorter
      have registered : (⟨name.name, function.params.size, function.locals.size⟩ : Registration) =
          ⟨name'.name, function'.params.size, function'.locals.size⟩ := by
        simp only [Registration.mk.injEq]
        exact ⟨names.name, listing.params.length_eq, listing.order.length_eq⟩
      dsimp only
      rw [registered]
      apply (Recorded.Alike.record _).bind
      intro _ _ _
      have inserted := Definitions.endAlike_insert programs.functions listing fun _ _ listings =>
        listings.name.name
      generalize program.functions.insert function = result,
        program'.functions.insert function' = result' at inserted
      cases inserted with
      | error earliers =>
        refine .fail ⟨names.span, ?_⟩
        rw [earliers.name.name]
        exact .duplicateFunction _ earliers.name.span
      | @ok functions functions' sameFunctions =>
        have extended : alignment.SameProgram { program with functions }
            ⟨program'.globals, functions'⟩ := ⟨programs.globals, sameFunctions⟩
        exact alike_parseDefinitions stops extended sameRest
termination_by tokens.length
decreasing_by all_goals exact Nat.lt_trans shorter fewer

end Declarations

/-- From the same tokens the same program is read. -/
theorem alike_ofLexed (stops : alignment.spans (.emptyAt stop) (.emptyAt stop'))
    {lexed lexed' : Lexed} (ending : lexed.ending = .ok stop) (ending' : lexed'.ending = .ok stop')
    (same : alignment.SameTokens lexed.tokens lexed'.tokens) :
    Recorded.Alike alignment.SameRefusal alignment.SameProgram (Program.ofLexed lexed)
      (Program.ofLexed lexed') := by
  simp only [Program.ofLexed, ending, ending']
  exact alike_parseDefinitions stops ⟨.nil, .nil⟩ same

end Alignment

end TypedImp
