import TypedImp.Proofs.Grammar.PlainGrammar
import TypedImp.Proofs.Grammar.ProgramPassing
import TypedImp.Proofs.Token.Order

/-!
# The first wrong token

A source that is refused is refused at its first wrong token: what stands before it can be
continued to a program, and with the token it cannot.  The end of the source counts as a token.
-/

namespace TypedImp

/-- There is no end of a source among the tokens. -/
def Unended (tokens : List Token) : Prop :=
  ∀ token ∈ tokens, token.kind ≠ .endOfInput

@[simp]
theorem unended_nil : Unended [] := by
  simp [Unended]

@[simp]
theorem unended_cons {token : Token} {tokens : List Token} :
    Unended (token :: tokens) ↔ token.kind ≠ .endOfInput ∧ Unended tokens := by
  simp [Unended]

@[simp]
theorem unended_append {first second : List Token} :
    Unended (first ++ second) ↔ Unended first ∧ Unended second := by
  simp [Unended, or_imp, forall_and]

theorem unended_ofScanner (scanner : Scanner) : Unended (Lexed.ofScanner scanner).tokens := by
  fun_induction Lexed.ofScanner scanner with
  | case1 => exact unended_nil
  | case2 => exact unended_nil
  | case3 scanner token behind step notEnd following ih => exact unended_cons.mpr ⟨notEnd, ih⟩

theorem Lexed.all_of_ending {lexed : Lexed} {stop : Nat} (ending : lexed.ending = .ok stop) :
    lexed.all = lexed.tokens ++ [.endAt stop] := by
  rw [Lexed.all, ending]

/-- All tokens of a source that is scanned to its end, cut in front of one of them. -/
theorem Lexed.exists_all_eq {lexed : Lexed} {stop : Nat} (ending : lexed.ending = .ok stop)
    {taken rest : List Token} (split : lexed.tokens = taken ++ rest) :
    ∃ behind, lexed.all = taken ++ rest.headD (.endAt stop) :: behind := by
  rw [all_of_ending ending, split]
  cases rest with
  | nil => exact ⟨[], by simp⟩
  | cons next rest => exact ⟨rest ++ [.endAt stop], by simp⟩

namespace Grammar

section Unended

mutual

theorem unended_of_expression {tier : Tier} {tokens : List Token} {expr : Expr Unit}
    (derived : Expression tier tokens expr) : Unended tokens := by
  match derived with
  | .chain _ operand operations =>
    exact unended_append.mpr ⟨unended_of_expression operand, unended_of_operations operations⟩
  | .primary plain => exact unended_of_primary plain
  | .signed isSign plain =>
    refine unended_cons.mpr ⟨fun isEnd => ?_, unended_of_primary plain⟩
    rw [isEnd] at isSign
    cases isSign

theorem unended_of_operations {tier : Tier} {lhs expr : Expr Unit} {tokens : List Token}
    (derived : Operations tier lhs tokens expr) : Unended tokens := by
  match derived with
  | .none => exact unended_nil
  | .more _ isOperator operand following =>
    refine unended_cons.mpr ⟨fun isEnd => ?_, unended_append.mpr
      ⟨unended_of_expression operand, unended_of_operations following⟩⟩
    rw [isEnd] at isOperator
    cases isOperator

theorem unended_of_primary {tokens : List Token} {expr : Expr Unit}
    (derived : Primary tokens expr) : Unended tokens := by
  match derived with
  | .var isName => simp [isName]
  | .literal isLiteral =>
    cases isLiteral with
    | int kind | float kind | char kind | true kind | false kind => simp [kind]
  | .call isName opens between closes =>
    simp [isName, opens, closes, unended_of_arguments between]
  | .group opens between closes => simp [opens, closes, unended_of_expression between]
  | @Primary.cast word _ _ _ _ _ isCast opens between closes =>
    have notEnd : word.kind ≠ .endOfInput := by
      intro isEnd
      rw [isEnd] at isCast
      cases isCast
    simp [notEnd, opens, closes, unended_of_expression between]

theorem unended_of_arguments {tokens : List Token} {arguments : List (Expr Unit)}
    (derived : Arguments tokens arguments) : Unended tokens := by
  match derived with
  | .none => exact unended_nil
  | .some listed => exact unended_of_argumentList listed

theorem unended_of_argumentList {tokens : List Token} {arguments : List (Expr Unit)}
    (derived : ArgumentList tokens arguments) : Unended tokens := by
  match derived with
  | .last first => exact unended_of_expression first
  | .more first separates following =>
    simp [separates, unended_of_expression first, unended_of_argumentList following]

end

mutual

theorem unended_of_statement {isOpen : Bool} {tokens : List Token} {stmt : Stmt Unit}
    (derived : Statement isOpen tokens stmt) : Unended tokens := by
  match derived with
  | .skip kind => simp [kind]
  | .block opens between closes => simp [opens, closes, unended_of_statements between]
  | .assign isName isSign right ends =>
    simp [isName, isSign, ends, unended_of_expression right]
  | .call isName opens between closes ends =>
    simp [isName, opens, closes, ends, unended_of_arguments between]
  | .giveBack isReturn given ends => simp [isReturn, ends, unended_of_expression given]
  | .ifThen isIf opens tested closes chosen =>
    simp [isIf, opens, closes, unended_of_expression tested, unended_of_statement chosen]
  | .ifThenElse isIf opens tested closes chosen isElse rejected =>
    simp [isIf, opens, closes, isElse, unended_of_expression tested, unended_of_statement chosen,
      unended_of_statement rejected]
  | .loop isWhile opens tested closes repeated =>
    simp [isWhile, opens, closes, unended_of_expression tested, unended_of_statement repeated]

theorem unended_of_statements {tokens : List Token} {body : List (Stmt Unit)}
    (derived : Statements tokens body) : Unended tokens := by
  match derived with
  | .none => exact unended_nil
  | .more head following =>
    exact unended_append.mpr ⟨unended_of_statement head, unended_of_statements following⟩

end

theorem unended_of_names {tokens : List Token} {names : List Ident} (named : Names tokens names) :
    Unended tokens := by
  induction named with
  | last isName => simp [isName]
  | more isName separates _ ih => simpa [isName, separates] using ih

theorem unended_of_declarationLine {tokens : List Token} {declarations : List Declaration}
    (line : DeclarationLine tokens declarations) : Unended tokens := by
  obtain ⟨isType, named, ends⟩ := line
  simp [isType, ends, unended_of_names named]

theorem unended_of_declarationLines {tokens : List Token} {declarations : List Declaration}
    (lines : DeclarationLines tokens declarations) : Unended tokens := by
  induction lines with
  | none => exact unended_nil
  | more head _ ih => exact unended_append.mpr ⟨unended_of_declarationLine head, ih⟩

theorem unended_of_params {tokens : List Token} {params : List Declaration}
    (taken : Params tokens params) : Unended tokens := by
  cases taken with
  | none => exact unended_nil
  | some listed =>
    induction listed with
    | last isType isName => simp [isType, isName]
    | more isType isName separates _ ih => simpa [isType, isName, separates] using ih

theorem unended_of_functionLine {tokens : List Token} {function : FunctionTree}
    (line : FunctionLine tokens function) : Unended tokens := by
  obtain ⟨isType, isName, opens, taken, closes, isBegin, declared, done, isEnd⟩ := line
  simp [isType, isName, opens, unended_of_params taken, closes, isBegin,
    unended_of_declarationLines declared, unended_of_statements done, isEnd]

/-- A sentence is written without an end of a source. -/
theorem unended_of_sentence {tokens : List Token} {tree : ProgramTree}
    (sentence : Sentence tokens tree) : Unended tokens := by
  induction sentence with
  | none => exact unended_nil
  | declaration head _ ih => exact unended_append.mpr ⟨unended_of_declarationLine head, ih⟩
  | function head _ ih => exact unended_append.mpr ⟨unended_of_functionLine head, ih⟩

end Unended

/-- All tokens of a source that is a program of the grammar, with the end of the source. -/
def IsWhole (tokens : List Token) : Prop :=
  ∃ program stop, tokens = program ++ [.endAt stop] ∧ PlainProgram program

/-- Tokens with which a program of the grammar and its end can begin. -/
def Viable (front : List Token) : Prop :=
  ∃ more, IsWhole (front ++ more)

theorem stop_eq_of_endAt {stop stop' : Nat} (same : Token.endAt stop' = Token.endAt stop) :
    stop' = stop :=
  congrArg (fun token : Token => token.span.lo) same

/-- Tokens that begin with some tokens and the next one go on with the next one behind the others;
if it is the end of a source, it is also theirs. -/
theorem exists_same_next {stop stop' : Nat} {taken rest tokens more : List Token}
    (unended : Unended rest) (unended' : Unended tokens)
    (same : tokens ++ [.endAt stop'] = taken ++ rest.headD (.endAt stop) :: more) :
    ∃ others, tokens = taken ++ others ∧ others.head? = rest.head? ∧
      (rest = [] → stop' = stop) := by
  obtain ⟨others, rfl, split⟩ : ∃ others, tokens = taken ++ others ∧
      others ++ [.endAt stop'] = rest.headD (.endAt stop) :: more := by
    -- What was taken ends in front of the last token, since one more follows it.
    rcases List.append_eq_append_iff.mp same with ⟨left, rfl, split⟩ | ⟨others, rfl, split⟩
    · cases left with
      | nil => exact ⟨[], by simp, split⟩
      | cons first left => simp at split
    · exact ⟨others, rfl, split.symm⟩
  refine ⟨others, rfl, ?_⟩
  cases others with
  | nil =>
    obtain ⟨isNext, _⟩ := List.cons.inj split
    cases rest with
    | nil => exact ⟨rfl, fun _ => stop_eq_of_endAt isNext⟩
    | cons next rest =>
      obtain rfl : Token.endAt stop' = next := isNext
      exact absurd rfl (unended_cons.mp unended).1
  | cons next others =>
    obtain ⟨isNext, _⟩ := List.cons.inj split
    cases rest with
    | nil =>
      obtain rfl : next = Token.endAt stop := isNext
      exact absurd rfl (unended_cons.mp (unended_append.mp unended').2).1
    | cons first rest => exact ⟨congrArg some isNext, nofun⟩

/-- Where the tokens of a source are refused: behind tokens that can begin a program.  Every
source that begins with these and the refused token is refused in the same way. -/
theorem exists_refused {stop : Nat} {tokens : List Token} {error : Spanned SyntaxError}
    (unended : Unended tokens)
    (failed : Parser.definitions stop .empty tokens = .error error)
    (refused : error.content.isRefusal = true) :
    ∃ taken rest, tokens = taken ++ rest ∧
      error.span = (rest.headD (.endAt stop)).span ∧ Viable taken ∧
      ∀ stop' tokens' more, Unended tokens' →
        tokens' ++ [.endAt stop'] = taken ++ rest.headD (.endAt stop) :: more →
        Parser.definitions stop' .empty tokens' = .error error := by
  obtain ⟨taken, rest, rfl, span, ⟨more, sentence⟩, again⟩ :=
    (predicts_definitions .empty tokens).refuses error failed refused
  refine ⟨taken, rest, rfl, span, ⟨more ++ [.endAt stop], taken ++ more, stop, ?_, ?_⟩, ?_⟩
  · rw [List.append_assoc]
  · exact plainProgram_iff.mpr sentence
  · intro stop' tokens' more unended' same
    obtain ⟨others, rfl, next, atEnd⟩ :=
      exists_same_next (unended_append.mp unended).2 unended' same
    exact again stop' others next atEnd

/-- No program begins with tokens with which all sources are refused. -/
theorem not_viable_of_refused {front : List Token} {error : Spanned SyntaxError}
    (refused : error.content.isRefusal = true)
    (again : ∀ stop tokens more, Unended tokens → tokens ++ [.endAt stop] = front ++ more →
      Parser.definitions stop .empty tokens = .error error) : ¬ Viable front := by
  rintro ⟨more, program, stop, split, derived⟩
  obtain ⟨tree, sentence⟩ := plainProgram_iff.mp derived
  have failed := again stop program more (unended_of_sentence sentence) split.symm
  have notRefusal := (passes_of_sentence stop sentence .empty).fails error failed
  rw [refused] at notRefusal
  cases notRefusal

end Grammar

namespace Program

open Grammar

theorem definitions_eq_error_iff {stop : Nat} {tokens : List Token} {error : Spanned SyntaxError} :
    Parser.definitions stop .empty tokens = .error error ↔
      (Parser.parseDefinitions stop .empty tokens).outcome = .error error := by
  unfold Parser.definitions Parser.atEnd
  cases (Parser.parseDefinitions stop .empty tokens).outcome <;> simp

/-- A source is refused at one of its tokens, which has the span of the error: the tokens before it
can begin a program of the grammar, and they cannot together with it.  Every source that begins
with the same tokens is refused in the same way. -/
structure RefusedAt (source : String) (error : Spanned SyntaxError) (number : Nat) : Prop where
  stands : (Lexed.ofSource source).all[number]?.map Token.span = some error.span
  alone : ∀ other, (Lexed.ofSource source).all[other]?.map Token.span = some error.span →
    other = number
  viable : Viable ((Lexed.ofSource source).all.take number)
  wrong : ¬ Viable ((Lexed.ofSource source).all.take (number + 1))
  again : ∀ another stop, (Lexed.ofSource another).ending = .ok stop →
    (Lexed.ofSource another).all.take (number + 1) =
      (Lexed.ofSource source).all.take (number + 1) →
    (ofLexed (.ofSource another)).outcome = .error error

/-- A source is refused at its first wrong token. -/
theorem exists_refusedAt {source : String} {error : Spanned SyntaxError}
    (failed : (ofLexed (.ofSource source)).outcome = .error error)
    (refused : error.content.isRefusal = true) : ∃ number, RefusedAt source error number := by
  cases ending : (Lexed.ofSource source).ending with
  | error error' =>
    rw [ofLexed, ending] at failed
    cases failed
    cases refused
  | ok stop =>
    rw [ofLexed, ending] at failed
    obtain ⟨taken, rest, split, span, viable, again⟩ := exists_refused
      (unended_ofScanner (.ofSource source)) (definitions_eq_error_iff.mpr failed) refused
    obtain ⟨behind, whole⟩ := Lexed.exists_all_eq ending split
    have upTo : (Lexed.ofSource source).all.take (taken.length + 1) =
        taken ++ [rest.headD (.endAt stop)] := by
      rw [whole, List.append_cons]
      exact List.take_left' (by simp)
    have stands : (Lexed.ofSource source).all[taken.length]?.map Token.span = some error.span := by
      simp [whole, span]
    refine ⟨taken.length, stands, fun other found => ?_, ?_, ?_, ?_⟩
    · exact eq_of_span_eq_all_ofScanner _ ending found stands
    · simpa [whole] using viable
    · rw [upTo]
      refine not_viable_of_refused refused fun stop' tokens more unended same => ?_
      exact again stop' tokens more unended (by simpa using same)
    · intro another stop' ending' same
      have same' := List.take_append_drop (taken.length + 1) (Lexed.ofSource another).all
      rw [same, upTo, Lexed.all_of_ending ending'] at same'
      rw [ofLexed, ending']
      exact definitions_eq_error_iff.mp
        (again stop' _ _ (unended_ofScanner (.ofSource another)) (by simpa using same'.symm))

/-- An operand is missing in front of the semicolon. -/
theorem refusedAt_semicolon :
    ∃ error : Spanned SyntaxError,
      (ofLexed (.ofSource "void main() \x7b x = 1 + ; \x7d")).outcome = .error error ∧
      error.content = .unexpectedInExpression .semicolon ∧ error.content.isRefusal = true ∧
      RefusedAt "void main() \x7b x = 1 + ; \x7d" error 9 := by
  let error : Spanned SyntaxError := ⟨⟨22, 1, by decide⟩, .unexpectedInExpression .semicolon⟩
  have failed : (ofLexed (.ofSource "void main() \x7b x = 1 + ; \x7d")).outcome = .error error := by
    have checked : (match (ofLexed (.ofSource "void main() \x7b x = 1 + ; \x7d")).outcome with
        | .error found => decide (found = error)
        | .ok _ => false) = true := by
      decide +kernel
    split at checked
    case _ found outcome => rw [outcome, of_decide_eq_true checked]
    case _ => cases checked
  obtain ⟨number, refusedAt⟩ := exists_refusedAt failed rfl
  obtain rfl : 9 = number := refusedAt.alone 9 (by decide +kernel)
  exact ⟨error, failed, rfl, rfl, refusedAt⟩

end Program

end TypedImp
