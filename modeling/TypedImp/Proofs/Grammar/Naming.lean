import TypedImp.Program.Parser.Definition
import TypedImp.Proofs.Program.Names

/-!
# Names are identifiers

If all identifiers among some tokens are of one kind, then so are all names in what is read from
them, and the name in an error with which the reading ends.  `keepsNames_ofLexed` says so of
whole programs.

The induction follows the parsers that call each other, on the number of tokens that are left.
-/

namespace TypedImp

/-- A definition that is refused is mentioned by its name, and what the scanner says is
repeated. -/
instance : Mentioning SyntaxError where
  mention?
    | .lexical error => some error.message
    | .duplicateDeclaration name _ | .duplicateFunction name _ | .voidVariable name => some name
    | _ => none

namespace Parser

variable {allowed : String → Prop} {stop : Nat}

/-- All identifiers among some tokens are allowed names. -/
def Identifiers (allowed : String → Prop) (tokens : List Token) : Prop :=
  ∀ token ∈ tokens, token.kind = .identifier → allowed token.text

/-- What is read has a property and leaves allowed names. -/
abbrev ReadsNames {α : Type} {limit : Nat} (allowed : String → Prop) (given : α → Prop) :
    Result (Parsed limit α) → Prop :=
  KeepsNames allowed fun parsed => given parsed.value ∧ Identifiers allowed parsed.rest

section Combinators

variable {α β : Type} {given : α → Prop} {final : β → Prop} {limit : Nat} {token : Token}
  {tokens rest : List Token}

theorem Identifiers.tail (names : Identifiers allowed (token :: rest)) :
    Identifiers allowed rest :=
  fun other member => names other (List.mem_cons_of_mem _ member)

theorem readsNames_nothing {value : α} (holds : given value) (names : Identifiers allowed tokens) :
    ReadsNames allowed given (nothing value tokens) :=
  ⟨holds, names⟩

theorem readsNames_single {value : α} (holds : given value) (names : Identifiers allowed rest) :
    ReadsNames allowed given (single value token rest) :=
  ⟨holds, names⟩

theorem ReadsNames.after {following : Result (Parsed rest.length α)}
    (reads : ReadsNames allowed given following) {taken : rest.length < limit} :
    ReadsNames allowed given (after taken following) := by
  cases following with
  | error error => exact reads
  | ok parsed => exact reads

theorem ReadsNames.afterToken {following : Result (Parsed rest.length α)}
    (reads : ReadsNames allowed given following) :
    ReadsNames allowed given (afterToken token following) :=
  ReadsNames.after reads

theorem ReadsNames.optional {first : Result (Parsed limit α)}
    (reads : ReadsNames allowed given first) : ReadsNames allowed given (optional first) := by
  cases first with
  | error error => exact reads
  | ok parsed => exact reads

theorem ReadsNames.give {first : Result (Parsed limit α)} (reads : ReadsNames allowed given first)
    {f : α → β} (values : ∀ value, given value → final (f value)) :
    ReadsNames allowed final (give first f) := by
  cases first with
  | error error => exact reads
  | ok parsed => exact ⟨values _ reads.1, reads.2⟩

theorem ReadsNames.andThen {first : Result (Parsed limit α)}
    (reads : ReadsNames allowed given first)
    {next : α → (rest : List Token) → rest.length < limit → Result (Parsed rest.length β)}
    (following : ∀ value, given value → ∀ rest, Identifiers allowed rest → ∀ within,
      ReadsNames allowed final (next value rest within)) :
    ReadsNames allowed final (andThen first next) := by
  cases first with
  | error error => exact reads
  | ok parsed =>
    have readsNext := following _ reads.1 _ reads.2 parsed.within
    simp only [Parser.andThen]
    exact readsNext.after

theorem ReadsNames.andMaybe {first : Result (Parsed limit α)}
    (reads : ReadsNames allowed given first)
    {next : α → (rest : List Token) → rest.length < limit → Result (Parsed (rest.length + 1) β)}
    (following : ∀ value, given value → ∀ rest, Identifiers allowed rest → ∀ within,
      ReadsNames allowed final (next value rest within)) :
    ReadsNames allowed final (andMaybe first next) := by
  cases first with
  | error error => exact reads
  | ok parsed =>
    have readsNext := following _ reads.1 _ reads.2 parsed.within
    simp only [Parser.andMaybe]
    generalize next parsed.value parsed.rest parsed.within = result at readsNext ⊢
    cases result with
    | error error => exact readsNext
    | ok parsed => exact readsNext

theorem identifiers_of_take? {expected : TokenKind} {parsed : Parsed tokens.length Token}
    (names : Identifiers allowed tokens) (taken : take? expected tokens = some parsed) :
    Identifiers allowed parsed.rest := by
  cases tokens with
  | nil => cases taken
  | cons token rest =>
    rw [take?] at taken
    split at taken
    · cases taken
      exact names.tail
    · cases taken

end Combinators

section Words

variable {tokens : List Token} (names : Identifiers allowed tokens)

include names

theorem readsNames_expect (expected : TokenKind) :
    ReadsNames allowed (fun token => expected = .identifier → allowed token.text)
      (expect stop expected tokens) := by
  cases tokens with
  | nil => exact keepsNames_error rfl
  | cons token rest =>
    rw [expect]
    split
    case isTrue isKind =>
      have isAllowed := names token List.mem_cons_self
      exact readsNames_single (fun isName => isAllowed (isKind.trans isName)) names.tail
    case isFalse => exact keepsNames_error rfl

theorem readsNames_parseIdent :
    ReadsNames allowed (fun ident => allowed ident.name) (parseIdent stop tokens) :=
  (readsNames_expect names .identifier).give fun _ isAllowed => isAllowed rfl

theorem readsNames_parseType : ReadsNames allowed (fun _ => True) (parseType stop tokens) := by
  cases tokens with
  | nil => exact keepsNames_error rfl
  | cons token rest =>
    rw [parseType]
    split
    · exact readsNames_single trivial names.tail
    · exact keepsNames_error rfl

end Words

section Expressions

mutual

theorem readsNames_parseTier (tier : Nat) {tokens : List Token}
    (names : Identifiers allowed tokens) :
    ReadsNames allowed (Expr.NamesIn allowed) (parseTier stop tier tokens) := by
  cases tier with
  | zero =>
    rw [parseTier]
    exact readsNames_parseOperand names
  | succ tier =>
    rw [parseTier]
    refine (readsNames_parseTier tier names).andMaybe fun lhs lhsNames rest restNames within => ?_
    exact readsNames_parseOperations tier lhsNames restNames
termination_by 9 * tokens.length + tier + 2
decreasing_by all_goals omega

theorem readsNames_parseOperations (tier : Nat) {lhs : Expr Unit} (lhsNames : lhs.NamesIn allowed)
    {tokens : List Token} (names : Identifiers allowed tokens) :
    ReadsNames allowed (Expr.NamesIn allowed) (parseOperations stop tier lhs tokens) := by
  match tokens with
  | [] =>
    rw [parseOperations]
    exact readsNames_nothing lhsNames names
  | token :: behind =>
    rw [parseOperations]
    cases operatorInTier? (tier + 1) token.kind with
    | none => exact readsNames_nothing lhsNames names
    | some op =>
      refine .optional <| .afterToken <| (readsNames_parseTier tier names.tail).andMaybe ?_
      intro rhs rhsNames rest restNames within
      have bothNames : (Expr.binary op () lhs rhs (lhs.span.cover rhs.span)).NamesIn allowed :=
        ⟨lhsNames, rhsNames⟩
      exact readsNames_parseOperations tier bothNames restNames
termination_by 9 * tokens.length + tier + 3
decreasing_by all_goals simp only [List.length_cons]; omega

theorem readsNames_parseOperand {tokens : List Token} (names : Identifiers allowed tokens) :
    ReadsNames allowed (Expr.NamesIn allowed) (parseOperand stop tokens) := by
  match tokens with
  | [] =>
    rw [parseOperand]
    exact readsNames_parsePrimary names
  | token :: behind =>
    rw [parseOperand]
    cases unaryOperator? token.kind with
    | none => exact readsNames_parsePrimary names
    | some op =>
      exact .afterToken <| (readsNames_parsePrimary names.tail).give fun _ operand => operand
termination_by 9 * tokens.length + 1
decreasing_by all_goals simp only [List.length_cons, List.length_nil]; omega

theorem readsNames_parsePrimary {tokens : List Token} (names : Identifiers allowed tokens) :
    ReadsNames allowed (Expr.NamesIn allowed) (parsePrimary stop tokens) := by
  match tokens with
  | [] =>
    rw [parsePrimary]
    exact keepsNames_error rfl
  | token :: behind =>
    have isAllowed := names token List.mem_cons_self
    rw [parsePrimary]
    split
    · exact readsNames_single trivial names.tail
    · exact keepsNames_error rfl
    split
    case h_1 isName =>
      split
      · exact readsNames_single (isAllowed isName) names.tail
      case _ opening inner opened taken =>
        have innerNames := identifiers_of_take? names.tail taken
        refine .afterToken <| .after <| (readsNames_parseArguments innerNames).give ?_
        exact fun _ arguments => ⟨isAllowed isName, arguments⟩
    case h_2 =>
      refine .afterToken <| (readsNames_parseTier loosestTier names.tail).andThen ?_
      intro expr exprNames rest restNames _
      exact (readsNames_expect restNames .rightParen).give fun _ _ => exprNames
    case h_3 =>
      split
      · exact keepsNames_error rfl
      · refine .afterToken <| (readsNames_expect names.tail .leftParen).andThen ?_
        intro _ _ rest restNames opened
        refine (readsNames_parseTier loosestTier restNames).andThen ?_
        intro operand operandNames rest restNames _
        exact (readsNames_expect restNames .rightParen).give fun _ _ => operandNames
    case h_4 => exact keepsNames_error rfl
termination_by 9 * tokens.length
decreasing_by all_goals simp only [List.length_cons, loosestTier] at *; omega

theorem readsNames_parseArguments {tokens : List Token} (names : Identifiers allowed tokens) :
    ReadsNames allowed (fun read => Expr.AllNamesIn allowed read.1)
      (parseArguments stop tokens) := by
  match tokens with
  | [] =>
    rw [parseArguments]
    exact readsNames_parseArgumentList names
  | token :: behind =>
    rw [parseArguments]
    split
    · exact readsNames_single trivial names.tail
    · exact readsNames_parseArgumentList names
termination_by 9 * tokens.length + 10
decreasing_by all_goals simp only [List.length_cons, List.length_nil]; omega

theorem readsNames_parseArgumentList {tokens : List Token} (names : Identifiers allowed tokens) :
    ReadsNames allowed (fun read => Expr.AllNamesIn allowed read.1)
      (parseArgumentList stop tokens) := by
  rw [parseArgumentList]
  refine (readsNames_parseTier loosestTier names).andThen ?_
  intro argument argumentNames rest restNames within
  split
  · exact (readsNames_expect restNames .rightParen).give fun _ _ => ⟨argumentNames, trivial⟩
  case _ comma behind separated taken =>
    have behindNames := identifiers_of_take? restNames taken
    refine .after <| (readsNames_parseArgumentList behindNames).give ?_
    exact fun _ arguments => ⟨argumentNames, arguments⟩
termination_by 9 * tokens.length + 9
decreasing_by
  · simp only [loosestTier]; omega
  · omega

end

end Expressions

section Statements

theorem readsNames_parseTest {tokens : List Token} (names : Identifiers allowed tokens) :
    ReadsNames allowed (Expr.NamesIn allowed) (parseTest stop tokens) := by
  refine (readsNames_expect names .leftParen).andThen fun _ _ rest restNames _ => ?_
  refine (readsNames_parseTier loosestTier restNames).andThen fun _ testNames rest restNames _ => ?_
  exact (readsNames_expect restNames .rightParen).give fun _ _ => testNames

theorem readsNames_parseCallOrAssignment {target : Ident} (isAllowed : allowed target.name)
    {tokens : List Token} (names : Identifiers allowed tokens) :
    ReadsNames allowed (Stmt.NamesIn allowed) (parseCallOrAssignment stop target tokens) := by
  rw [parseCallOrAssignment]
  split
  case h_1 opening inner opened taken =>
    have innerNames := identifiers_of_take? names taken
    refine .after <| (readsNames_parseArguments innerNames).andThen ?_
    intro _ arguments rest restNames _
    exact (readsNames_expect restNames .semicolon).give fun _ _ => ⟨isAllowed, arguments⟩
  case h_2 =>
    refine (readsNames_expect names .assign).andThen fun _ _ rest restNames _ => ?_
    refine (readsNames_parseTier loosestTier restNames).andThen fun _ value rest restNames _ => ?_
    exact (readsNames_expect restNames .semicolon).give fun _ _ => ⟨isAllowed, value⟩

theorem readsNames_parseGivenBack (word : Token) {tokens : List Token}
    (names : Identifiers allowed tokens) :
    ReadsNames allowed (Stmt.NamesIn allowed) (parseGivenBack stop word tokens) := by
  refine (readsNames_parseTier loosestTier names).andThen fun _ value rest restNames _ => ?_
  exact (readsNames_expect restNames .semicolon).give fun _ _ => value

mutual

theorem readsNames_parseStatement {tokens : List Token} (names : Identifiers allowed tokens) :
    ReadsNames allowed (Stmt.NamesIn allowed) (parseStatement stop tokens) := by
  match tokens with
  | [] =>
    rw [parseStatement]
    exact keepsNames_error rfl
  | token :: behind =>
    have isAllowed := names token List.mem_cons_self
    rw [parseStatement]
    split
    case h_1 => exact readsNames_single trivial names.tail
    case h_2 =>
      exact .afterToken <| (readsNames_parseBlock names.tail).give fun _ body => body
    case h_3 =>
      refine .afterToken <| (readsNames_parseTest names.tail).andThen ?_
      intro test testNames rest restNames tested
      refine (readsNames_parseStatement restNames).andMaybe ?_
      intro thenBranch thenNames rest restNames shorter
      -- Without an `else` the other branch does nothing, and so names nothing.
      split
      · exact readsNames_nothing ⟨testNames, thenNames, trivial⟩ restNames
      case _ word behind otherwise taken =>
        have behindNames := identifiers_of_take? restNames taken
        refine .optional <| .after <| (readsNames_parseStatement behindNames).give ?_
        exact fun _ elseNames => ⟨testNames, thenNames, elseNames⟩
    case h_4 =>
      refine .afterToken <| (readsNames_parseTest names.tail).andThen ?_
      intro test testNames rest restNames tested
      exact (readsNames_parseStatement restNames).give fun _ body => ⟨testNames, body⟩
    case h_5 => exact .afterToken <| readsNames_parseGivenBack token names.tail
    case h_6 isName =>
      exact .afterToken <| readsNames_parseCallOrAssignment (isAllowed isName) names.tail
    case h_7 => exact keepsNames_error rfl
termination_by 2 * tokens.length
decreasing_by all_goals simp only [List.length_cons] at *; omega

theorem readsNames_parseBlock {tokens : List Token} (names : Identifiers allowed tokens) :
    ReadsNames allowed (Stmt.AllNamesIn allowed) (parseBlock stop tokens) := by
  match tokens with
  | [] =>
    rw [parseBlock]
    exact keepsNames_error rfl
  | token :: behind =>
    rw [parseBlock]
    split
    · exact readsNames_single trivial names.tail
    · refine (readsNames_parseStatement names).andThen ?_
      intro first firstNames rest restNames within
      exact (readsNames_parseBlock restNames).give fun _ following => ⟨firstNames, following⟩
termination_by 2 * tokens.length + 1
decreasing_by all_goals simp only [List.length_cons] at *; omega

end

end Statements

section Declarations

variable {scope params : Definitions Declaration}

theorem keepsNames_declare (scopeNames : scope.NamesIn allowed) {name : Ident}
    (isAllowed : allowed name.name) (ty : Ty) :
    KeepsNames allowed (Definitions.NamesIn allowed) (declare scope name ty) := by
  unfold declare
  split
  · exact mentions_of_eq_some rfl isAllowed
  split
  case h_1 extended inserted =>
    rw [KeepsNames, Definitions.NamesIn, Definitions.toList_insert inserted]
    exact List.forall_mem_append.mpr ⟨scopeNames, List.forall_mem_singleton.mpr isAllowed⟩
  case h_2 earlier refused =>
    have sameName := Definitions.name_of_get? (Definitions.insert_eq_error_iff.mp refused)
    exact mentions_of_eq_some rfl (sameName ▸ isAllowed)

theorem keepsNames_declareLocal (scopeNames : scope.NamesIn allowed) {name : Ident}
    (isAllowed : allowed name.name) (ty : Ty) :
    KeepsNames allowed (Definitions.NamesIn allowed) (declareLocal params scope name ty) := by
  unfold declareLocal
  split
  · exact mentions_of_eq_some rfl isAllowed
  · exact keepsNames_declare scopeNames isAllowed ty

theorem readsNames_parseNames
    {add : Definitions Declaration → Ident → Result (Definitions Declaration)}
    (adds : ∀ scope name, scope.NamesIn allowed → allowed name.name →
      KeepsNames allowed (Definitions.NamesIn allowed) (add scope name))
    {scope : Definitions Declaration} (scopeNames : scope.NamesIn allowed) {name : Ident}
    (isAllowed : allowed name.name) {tokens : List Token} (names : Identifiers allowed tokens) :
    ReadsNames allowed (Definitions.NamesIn allowed) (parseNames stop add scope name tokens) := by
  rw [parseNames]
  refine (adds scope name scopeNames isAllowed).bind fun extended extendedNames => ?_
  split
  · exact (readsNames_expect names .semicolon).give fun _ _ => extendedNames
  case _ comma rest separated taken =>
    have restNames : Identifiers allowed rest := identifiers_of_take? names taken
    refine ReadsNames.after <| (readsNames_parseIdent restNames).andThen ?_
    intro next nextAllowed behind behindNames named
    exact readsNames_parseNames adds extendedNames nextAllowed behindNames
termination_by tokens.length
decreasing_by omega

theorem readsNames_parseParamList {tokens : List Token} (names : Identifiers allowed tokens) :
    ReadsNames allowed
      (fun formals : List Declaration => ∀ formal ∈ formals, allowed formal.name.name)
      (parseParamList stop tokens) := by
  rw [parseParamList]
  refine (readsNames_parseType names).andThen fun ty _ rest restNames typed => ?_
  refine (readsNames_parseIdent restNames).andThen fun name isAllowed rest restNames named => ?_
  split
  · refine (readsNames_expect restNames .rightParen).give fun _ _ => ?_
    exact List.forall_mem_singleton.mpr isAllowed
  case _ comma behind separated taken =>
    have behindNames := identifiers_of_take? restNames taken
    refine .after <| (readsNames_parseParamList behindNames).give fun _ following => ?_
    exact List.forall_mem_cons.mpr ⟨isAllowed, following⟩
termination_by tokens.length
decreasing_by omega

theorem readsNames_parseParams {tokens : List Token} (names : Identifiers allowed tokens) :
    ReadsNames allowed
      (fun formals : List Declaration => ∀ formal ∈ formals, allowed formal.name.name)
      (parseParams stop tokens) := by
  unfold parseParams
  split
  case h_1 rest closed taken => exact ⟨List.forall_mem_nil _, identifiers_of_take? names taken⟩
  case h_2 => exact readsNames_parseParamList names

theorem readsNames_parseLocals {scope : Definitions Declaration}
    (scopeNames : scope.NamesIn allowed) {tokens : List Token}
    (names : Identifiers allowed tokens) :
    ReadsNames allowed (Definitions.NamesIn allowed) (parseLocals stop params scope tokens) := by
  match tokens with
  | [] =>
    rw [parseLocals]
    exact readsNames_nothing scopeNames names
  | token :: behind =>
    rw [parseLocals]
    split
    case h_1 ty _ =>
      refine .optional <| .afterToken <| (readsNames_parseIdent names.tail).andThen ?_
      intro name isAllowed rest restNames named
      have adds : ∀ scope name, Definitions.NamesIn allowed scope → allowed name.name →
          KeepsNames allowed (Definitions.NamesIn allowed) (declareLocal params scope name ty) :=
        fun _ _ scopeNames isAllowed => keepsNames_declareLocal scopeNames isAllowed ty
      refine (readsNames_parseNames adds scopeNames isAllowed restNames).andMaybe ?_
      intro extended extendedNames rest restNames declared
      exact readsNames_parseLocals extendedNames restNames
    case h_2 => exact readsNames_nothing scopeNames names
termination_by tokens.length
decreasing_by simp only [List.length_cons]; omega

theorem namesIn_empty : (Definitions.empty : Definitions Declaration).NamesIn allowed :=
  List.forall_mem_nil _

theorem keepsNames_declareParams {formals : List Declaration}
    (formalNames : ∀ formal ∈ formals, allowed formal.name.name) :
    KeepsNames allowed (Definitions.NamesIn allowed) (declareParams formals) := by
  have fromScope (scope : Definitions Declaration) (scopeNames : scope.NamesIn allowed) :
      KeepsNames allowed (Definitions.NamesIn allowed)
        (formals.foldlM (fun scope formal => declare scope formal.name formal.ty) scope) := by
    induction formals generalizing scope with
    | nil => exact scopeNames
    | cons formal formals ih =>
      obtain ⟨isAllowed, following⟩ := List.forall_mem_cons.mp formalNames
      rw [List.foldlM_cons]
      exact (keepsNames_declare scopeNames isAllowed formal.ty).bind (ih following)
  exact fromScope .empty namesIn_empty

theorem readsNames_parseFunction (returnTy : Ty) {name : Ident} (isAllowed : allowed name.name)
    {tokens : List Token} (names : Identifiers allowed tokens) :
    ReadsNames allowed (Function.NamesIn allowed) (parseFunction stop returnTy name tokens) := by
  refine (readsNames_expect names .leftParen).andThen fun _ _ rest restNames _ => ?_
  refine (readsNames_parseParams restNames).andThen fun formals formalNames rest restNames _ => ?_
  refine (keepsNames_declareParams formalNames).bind fun params paramNames => ?_
  have declared : ReadsNames allowed (Definitions.NamesIn allowed)
      (andMaybe (expect stop .leftBrace rest) fun _ rest _ =>
        parseLocals stop params .empty rest) := by
    refine (readsNames_expect restNames .leftBrace).andMaybe fun _ _ rest restNames _ => ?_
    exact readsNames_parseLocals namesIn_empty restNames
  refine declared.andThen fun locals localNames rest restNames _ => ?_
  exact (readsNames_parseBlock restNames).give fun _ body =>
    ⟨isAllowed, paramNames, localNames, body⟩

theorem keepsNames_parseDefinitions {program : Program Unit}
    (programNames : program.NamesIn allowed) {tokens : List Token}
    (names : Identifiers allowed tokens) :
    KeepsNames allowed (Program.NamesIn allowed)
      (parseDefinitions stop program tokens).outcome := by
  match tokens with
  | [] =>
    rw [parseDefinitions]
    exact programNames
  | token :: behind =>
    rw [parseDefinitions]
    refine KeepsNames.ofExcept_bind (readsNames_parseType names) ?_
    rintro ⟨ty, afterType, typed⟩ ⟨_, typeNames⟩
    refine KeepsNames.ofExcept_bind (readsNames_parseIdent typeNames) ?_
    rintro ⟨name, afterName, named⟩ ⟨isAllowed, nameNames⟩
    have fewer : afterName.length < (token :: behind).length := Nat.lt_trans named typed
    dsimp only at isAllowed nameNames ⊢
    split
    case h_1 =>
      refine KeepsNames.ofExcept_bind (readsNames_parseFunction ty isAllowed nameNames) ?_
      rintro ⟨function, rest, shorter⟩ ⟨functionNames, restNames⟩
      refine (keepsNames_record _).bind_outcome fun _ _ => ?_
      dsimp only
      split
      case h_1 functions inserted =>
        have extendedNames : Program.NamesIn allowed { program with functions } := by
          refine ⟨programNames.globals, ?_⟩
          rw [Definitions.toList_insert inserted]
          exact List.forall_mem_append.mpr
            ⟨programNames.functions, List.forall_mem_singleton.mpr functionNames⟩
        exact keepsNames_parseDefinitions extendedNames restNames
      case h_2 earlier refused =>
        have sameName := Definitions.name_of_get? (Definitions.insert_eq_error_iff.mp refused)
        exact mentions_of_eq_some rfl (sameName ▸ functionNames.name)
    case h_2 =>
      have adds : ∀ scope name, Definitions.NamesIn allowed scope → allowed name.name →
          KeepsNames allowed (Definitions.NamesIn allowed) (declare scope name ty) :=
        fun _ _ scopeNames isAllowed => keepsNames_declare scopeNames isAllowed ty
      refine KeepsNames.ofExcept_bind
        (readsNames_parseNames adds programNames.globals isAllowed nameNames) ?_
      rintro ⟨globals, rest, shorter⟩ ⟨globalNames, restNames⟩
      have extendedNames : Program.NamesIn allowed { program with globals } :=
        ⟨globalNames, programNames.functions⟩
      exact keepsNames_parseDefinitions extendedNames restNames
termination_by tokens.length
decreasing_by all_goals exact Nat.lt_trans shorter fewer

/-- If all identifiers of a source are allowed, then so are all names of its program, or the name
in the error for which it is refused. -/
theorem keepsNames_ofLexed {lexed : Lexed} (names : Identifiers allowed lexed.tokens)
    (scanned : lexed.ending = .ok stop) :
    KeepsNames allowed (Program.NamesIn allowed) (Program.ofLexed lexed).outcome := by
  rw [Program.ofLexed, scanned]
  exact keepsNames_parseDefinitions ⟨namesIn_empty, List.forall_mem_nil _⟩ names

end Declarations

end Parser

end TypedImp
