import TypedImp.Proofs.Grammar.DeclarationReading
import TypedImp.Proofs.Grammar.StatementReading

/-!
# Reading programs by the grammar

A program is read exactly if the grammar writes its tokens, its literals fit and what the
language demands beside the grammar holds; what is read is the tree that is written.
-/

namespace TypedImp.Grammar

open TypedImp.Parser

theorem ScopeAdmissible.of_definitions {scope : Definitions Declaration}
    (typed : ∀ declaration ∈ scope.toList, declaration.ty ≠ .void) :
    ScopeAdmissible scope.toList :=
  ⟨typed, scope.distinct⟩

section Functions

variable {stop : Nat}

/-- A function is read behind its type and its name exactly if the grammar writes it and
it is admissible. -/
theorem reads_parseFunction_iff {ty : Ty} {word name : Token} {tokens rest : List Token}
    {function : Function Unit} (isType : word.kind = .typeName ty)
    (isName : name.kind = .identifier) :
    Reads (parseFunction stop ty (identOf name) tokens) function rest ↔
      function.tree.Admissible ∧
        Spells (FunctionLine · function.tree) (word :: name :: tokens) rest := by
  simp only [parseFunction, reads_andThen_iff, reads_expect_iff, reads_bind_iff,
    reads_andMaybe_iff, reads_give_iff, reads_parseParams_iff, reads_parseLocals_iff,
    reads_parseBlock_iff, declareParams_eq_ok_iff]
  constructor
  · rintro ⟨opening, _, _, ⟨rfl, opens⟩, formals, _, _, ⟨closing, closes, paramTokens, rfl,
      paramsFit, taken⟩, params, ⟨paramsTyped, rfl⟩, locals, _, _, ⟨begins, _, _,
      ⟨rfl, isBegin⟩, declared, allowed, localsList, _, localTokens, rfl, localsFit, lines⟩,
      body, ⟨ending, isEnd, bodyTokens, rfl, bodyFits, done⟩, rfl⟩
    obtain rfl : locals.toList = declared := by simpa [Definitions.empty] using localsList
    constructor
    · exact
        { params := .of_definitions paramsTyped
          locals := .of_definitions fun declaration member => (allowed declaration member).1
          disjoint := fun param paramMember declaration member =>
            (allowed declaration member).2 param paramMember }
    · refine ⟨word :: name :: opening :: (paramTokens ++ closing :: begins ::
        (localTokens ++ (bodyTokens ++ [ending]))), by simp, ?_,
        .mk isType isName opens taken closes isBegin lines done isEnd⟩
      simp [isType, isName, opens, paramsFit, closes, isBegin, localsFit, bodyFits, isEnd]
  · rintro ⟨admissible, spelled, split, fits, line⟩
    obtain ⟨returnTy, ident, params, locals, body⟩ := function
    obtain ⟨paramsAdmissible, localsAdmissible, disjoint⟩ := admissible
    simp only [Function.tree] at line paramsAdmissible localsAdmissible disjoint
    cases line with
    | @mk _ _ opening closing begins ending _ paramTokens localTokens bodyTokens _ _ _
        isReturnType _ opens taken closes isBegin lines done isEnd =>
      simp only [List.cons_append, List.append_assoc, List.nil_append, List.cons.injEq]
        at split
      obtain ⟨rfl, rfl, rfl⟩ := split
      obtain rfl : ty = returnTy := by simpa [isType] using isReturnType
      simp only [literalsFit_cons, literalsFit_append] at fits
      obtain ⟨_, _, _, paramsFit, _, _, localsFit, bodyFits, _⟩ := fits
      have noType : ∀ token ∈ (bodyTokens ++ ending :: rest).head?,
          ∀ ty, token.kind ≠ .typeName ty := by
        intro token isFirst ty
        cases done with
        | none =>
          cases isFirst
          simp [isEnd]
        | more head _ =>
          obtain ⟨_, _, rfl, _, _, noType⟩ := head_of_statement head
          cases isFirst
          exact noType ty
      refine ⟨opening, _, by simp, ⟨rfl, opens⟩, params.toList,
        begins :: (localTokens ++ (bodyTokens ++ ending :: rest)), ?_,
        ⟨closing, closes, paramTokens, rfl, paramsFit, taken⟩, params,
        ⟨paramsAdmissible.typed, rfl⟩, locals, bodyTokens ++ ending :: rest, ?_,
        ⟨begins, _, by simp, ⟨rfl, isBegin⟩, locals.toList, ?_, rfl, noType, localTokens, rfl,
          localsFit, lines⟩,
        body, ⟨ending, isEnd, bodyTokens, rfl, bodyFits, done⟩, rfl⟩
      · simp only [List.length_append, List.length_cons]
        omega
      · simp only [List.length_append, List.length_cons]
        omega
      · intro declaration member
        exact ⟨localsAdmissible.typed declaration member,
          fun param paramMember => disjoint param paramMember declaration member⟩

theorem ofExcept_bind_eq_ok_iff {ω α β : Type} {limit : Nat} {first : Result (Parsed limit α)}
    {next : Parsed limit α → Recorded ω (Spanned SyntaxError) β} {result : β} :
    (Recorded.ofExcept first >>= next).outcome = .ok result ↔
      ∃ value rest within, Reads first value rest ∧
        (next ⟨value, rest, within⟩).outcome = .ok result := by
  rw [Recorded.bind_outcome_eq_ok_iff]
  constructor
  · rintro ⟨⟨value, rest, within⟩, done, remaining⟩
    exact ⟨value, rest, within, ⟨within, done⟩, remaining⟩
  · rintro ⟨value, rest, within, ⟨_, done⟩, remaining⟩
    exact ⟨⟨value, rest, within⟩, done, remaining⟩

/-- A program with the definitions of an admissible tree behind its own. -/
structure Extends (program : Program Unit) (tree : ProgramTree) (extended : Program Unit) :
    Prop where
  globals : extended.globals.toList = program.globals.toList ++ tree.globals
  functions : extended.functions.toList.map Function.tree =
    program.functions.toList.map Function.tree ++ tree.functions
  typed : ∀ declaration ∈ tree.globals, declaration.ty ≠ .void
  admissible : ∀ function ∈ tree.functions, function.Admissible

theorem extends_empty_iff {program extended : Program Unit} :
    Extends program ⟨[], []⟩ extended ↔ extended = program := by
  constructor
  · rintro ⟨globals, functions, _, _⟩
    apply Program.tree_inj
    simp only [Program.tree, ProgramTree.mk.injEq]
    exact ⟨by simpa using globals, by simpa using functions⟩
  · rintro rfl
    exact ⟨by simp, by simp, by simp, by simp⟩

/-- Declarations come first exactly if they extend the global scope. -/
theorem extends_declarations_iff {program extended : Program Unit}
    {declarations : List Declaration} {tree : ProgramTree} :
    Extends program ⟨declarations ++ tree.globals, tree.functions⟩ extended ↔
      ∃ globals : Definitions Declaration,
        (∀ declaration ∈ declarations, declaration.ty ≠ .void) ∧
        globals.toList = program.globals.toList ++ declarations ∧
        Extends { program with globals } tree extended := by
  constructor
  · rintro ⟨globals, functions, typed, admissible⟩
    obtain ⟨typedHere, typedBehind⟩ := List.forall_mem_append.mp typed
    rw [← List.append_assoc] at globals
    obtain ⟨middle, middleList⟩ := Definitions.exists_of_append _ _ globals
    exact ⟨middle, typedHere, middleList, middleList ▸ globals, functions, typedBehind,
      admissible⟩
  · rintro ⟨middle, typedHere, middleList, globals, functions, typedBehind, admissible⟩
    refine ⟨?_, functions, List.forall_mem_append.mpr ⟨typedHere, typedBehind⟩, admissible⟩
    rw [globals, middleList, List.append_assoc]

/-- A function comes first exactly if it extends the functions. -/
theorem extends_function_iff {program extended : Program Unit} {function : FunctionTree}
    {tree : ProgramTree} :
    Extends program ⟨tree.globals, function :: tree.functions⟩ extended ↔
      ∃ (first : Function Unit) (functions : Definitions (Function Unit)),
        first.tree = function ∧ function.Admissible ∧
        functions.toList = program.functions.toList ++ [first] ∧
        Extends { program with functions } tree extended := by
  constructor
  · rintro ⟨globals, functions, typed, admissible⟩
    obtain ⟨admissibleHere, admissibleBehind⟩ := List.forall_mem_cons.mp admissible
    obtain ⟨before, others, split, beforeSame, othersSame⟩ := List.map_eq_append_iff.mp functions
    rw [List.map_inj_right fun _ _ => Function.tree_inj] at beforeSame
    subst beforeSame
    obtain ⟨first, behind, rfl, rfl, behindSame⟩ := List.map_eq_cons_iff.mp othersSame
    rw [List.append_cons] at split
    obtain ⟨middle, middleList⟩ := Definitions.exists_of_append _ _ split
    refine ⟨first, middle, rfl, admissibleHere, middleList, globals, ?_, typed,
      admissibleBehind⟩
    rw [split, middleList, List.map_append, behindSame]
  · rintro ⟨first, middle, rfl, admissibleHere, middleList, globals, functions, typed,
      admissibleBehind⟩
    refine ⟨globals, ?_, typed, List.forall_mem_cons.mpr ⟨admissibleHere, admissibleBehind⟩⟩
    rw [functions, middleList, List.map_append, List.append_assoc]
    rfl

theorem declarationAdds (ty : Ty) :
    Adds (fun scope name => declare scope name ty) ty fun declaration =>
      declaration.ty ≠ .void :=
  ⟨declare_eq_ok_iff⟩

/-- What the parser of definitions gives is the tree of a sentence. -/
theorem sentence_of_parseDefinitions {program result : Program Unit} {tokens : List Token}
    (done : (parseDefinitions stop program tokens).outcome = .ok result) :
    ∃ tree, Sentence tokens tree ∧ LiteralsFit tokens ∧ Extends program tree result := by
  obtain ⟨limit, short⟩ : ∃ limit, tokens.length < limit := ⟨_, Nat.lt_succ_self _⟩
  induction limit generalizing program tokens with
  | zero => omega
  | succ limit ih =>
    cases tokens with
    | nil =>
      rw [parseDefinitions] at done
      cases done
      exact ⟨⟨[], []⟩, .none, literalsFit_nil, extends_empty_iff.mpr rfl⟩
    | cons word behind =>
      rw [parseDefinitions] at done
      simp only [ofExcept_bind_eq_ok_iff, reads_parseType_iff, reads_parseIdent_iff,
        List.cons.injEq] at done
      obtain ⟨ty, _, _, ⟨_, ⟨rfl, rfl⟩, isType⟩, _, following, _, ⟨name, rfl, isName, rfl⟩,
        done⟩ := done
      split at done
      case _ =>
        simp only [ofExcept_bind_eq_ok_iff, reads_parseFunction_iff isType isName] at done
        obtain ⟨function, rest, shorter, ⟨admissible, spelled, split, fits, line⟩, done⟩ :=
          done
        rw [Recorded.bind_outcome_eq_ok_iff] at done
        obtain ⟨_, _, done⟩ := done
        split at done
        case _ functions inserted =>
          obtain ⟨tree, sentence, restFits, extension⟩ :=
            ih done (by simp only [List.length_cons] at short; omega)
          refine ⟨⟨tree.globals, function.tree :: tree.functions⟩, ?_, ?_, ?_⟩
          · rw [split]
            exact .function line sentence
          · rw [split]
            exact literalsFit_append.mpr ⟨fits, restFits⟩
          · exact extends_function_iff.mpr ⟨function, functions, rfl, admissible,
              Definitions.insert_eq_ok_iff.mp inserted, extension⟩
        case _ => cases done
      case _ =>
        simp only [ofExcept_bind_eq_ok_iff,
          reads_parseNames_iff_line (declarationAdds ty) isType isName] at done
        obtain ⟨globals, rest, shorter, ⟨declarations, typed, globalsList, spelled, split, fits,
          line⟩, done⟩ := done
        obtain ⟨tree, sentence, restFits, extension⟩ :=
          ih done (by simp only [List.length_cons] at short; omega)
        refine ⟨⟨declarations ++ tree.globals, tree.functions⟩, ?_, ?_, ?_⟩
        · rw [split]
          exact .declaration line sentence
        · rw [split]
          exact literalsFit_append.mpr ⟨fits, restFits⟩
        · exact extends_declarations_iff.mpr ⟨globals, typed, globalsList, extension⟩

section Steps

variable {program : Program Unit} {tokens : List Token}

theorem ofExcept_bind_of_reads {ω α β : Type} {limit : Nat} {first : Result (Parsed limit α)}
    {value : α} {rest : List Token} (reads : Reads first value rest)
    (next : Parsed limit α → Recorded ω (Spanned SyntaxError) β) :
    (Recorded.ofExcept first >>= next).outcome = (next ⟨value, rest, reads.within⟩).outcome := by
  obtain ⟨within, rfl⟩ := reads
  rfl

/-- Behind the type and the name of a variable, its declaration is read. -/
theorem parseDefinitions_of_variable {word name next : Token} {behind : List Token} {ty : Ty}
    (isType : word.kind = .typeName ty) (isName : name.kind = .identifier)
    (noParen : next.kind ≠ .leftParen) :
    (parseDefinitions stop program (word :: name :: next :: behind)).outcome =
      (Recorded.ofExcept
          (parseNames stop (fun scope name => declare scope name ty) program.globals (identOf name)
            (next :: behind)) >>= fun read =>
        parseDefinitions stop { program with globals := read.value } read.rest).outcome := by
  have typed : Reads (parseType stop (word :: name :: next :: behind)) ty (name :: next :: behind) :=
    (reads_parseType_iff stop).mpr ⟨word, rfl, isType⟩
  have named : Reads (parseIdent stop (name :: next :: behind)) (identOf name) (next :: behind) :=
    (reads_parseIdent_iff stop).mpr ⟨name, rfl, isName, rfl⟩
  have notTaken : take? .leftParen (next :: behind) = none := by
    simp [take?_cons, noParen]
  rw [parseDefinitions, ofExcept_bind_of_reads typed, ofExcept_bind_of_reads named]
  dsimp only
  rw [notTaken]

/-- A declaration whose variables can be added is read, and what follows it behind it. -/
theorem parseDefinitions_of_line {declarations : List Declaration}
    {globals : Definitions Declaration} (line : DeclarationLine tokens declarations)
    (fits : LiteralsFit tokens) (typed : ∀ declaration ∈ declarations, declaration.ty ≠ .void)
    (globalsList : globals.toList = program.globals.toList ++ declarations)
    (others : List Token) :
    (parseDefinitions stop program (tokens ++ others)).outcome =
      (parseDefinitions stop { program with globals } others).outcome := by
  obtain ⟨word, name, next, behind, ty, rfl, isType, isName, noParen⟩ :=
    head_of_declarationLine line
  have reads : Reads
      (parseNames stop (fun scope name => declare scope name ty) program.globals
        (identOf name) (next :: (behind ++ others))) globals others :=
    (reads_parseNames_iff_line (declarationAdds ty) isType isName).mpr
      ⟨declarations, typed, globalsList, _, rfl, fits, line⟩
  rw [List.cons_append, List.cons_append, List.cons_append,
    parseDefinitions_of_variable isType isName noParen, ofExcept_bind_of_reads reads]

/-- An admissible function is read, and added unless its name is defined. -/
theorem parseDefinitions_of_function {function : Function Unit}
    (line : FunctionLine tokens function.tree) (fits : LiteralsFit tokens)
    (admissible : function.tree.Admissible) (others : List Token) :
    (parseDefinitions stop program (tokens ++ others)).outcome =
      match program.functions.insert function with
      | .ok functions => (parseDefinitions stop { program with functions } others).outcome
      | .error earlier =>
        .error ⟨function.name.span, .duplicateFunction earlier.name.name earlier.name.span⟩ := by
  obtain ⟨word, name, opening, inner, ty, rfl, isType, isName, opens, ident⟩ :
      ∃ word name opening inner ty, tokens = word :: name :: opening :: inner ∧
        word.kind = .typeName ty ∧ name.kind = .identifier ∧ opening.kind = .leftParen ∧
          function.name = identOf name := by
    generalize tree : function.tree = written at line
    obtain ⟨isType, isName, opens⟩ := line
    exact ⟨_, _, _, _, _, rfl, isType, isName, opens, congrArg FunctionTree.name tree⟩
  have reads : Reads
      (parseFunction stop ty (identOf name) (opening :: (inner ++ others))) function others :=
    (reads_parseFunction_iff isType isName).mpr ⟨admissible, _, rfl, fits, line⟩
  have typed : Reads (parseType stop (word :: name :: opening :: (inner ++ others))) ty
      (name :: opening :: (inner ++ others)) :=
    (reads_parseType_iff stop).mpr ⟨word, rfl, isType⟩
  have named : Reads (parseIdent stop (name :: opening :: (inner ++ others))) (identOf name)
      (opening :: (inner ++ others)) :=
    (reads_parseIdent_iff stop).mpr ⟨name, rfl, isName, rfl⟩
  rw [List.cons_append, List.cons_append, List.cons_append, parseDefinitions,
    ofExcept_bind_of_reads typed, ofExcept_bind_of_reads named]
  dsimp only
  rw [take?_of_kind opens]
  dsimp only
  rw [ofExcept_bind_of_reads reads, ident]
  dsimp only [Recorded.record]
  rw [Recorded.mk_ok_bind]
  cases program.functions.insert function <;> rfl

end Steps

/-- A sentence whose definitions can be added is read, and what follows it behind it. -/
theorem parseDefinitions_append_of_sentence {program result : Program Unit} {tokens : List Token}
    {tree : ProgramTree} (sentence : Sentence tokens tree) (fits : LiteralsFit tokens)
    (extension : Extends program tree result) (more : List Token) :
    (parseDefinitions stop program (tokens ++ more)).outcome =
      (parseDefinitions stop result more).outcome := by
  induction sentence generalizing program with
  | none => rw [List.nil_append, extends_empty_iff.mp extension]
  | @declaration tokens others declarations tree line following ih =>
    obtain ⟨fitsHere, fitsBehind⟩ := literalsFit_append.mp fits
    obtain ⟨globals, typed, globalsList, extension⟩ := extends_declarations_iff.mp extension
    rw [List.append_assoc, parseDefinitions_of_line line fitsHere typed globalsList,
      ih fitsBehind extension]
  | @function tokens others tree behindTree line following ih =>
    obtain ⟨fitsHere, fitsBehind⟩ := literalsFit_append.mp fits
    obtain ⟨function, functions, rfl, admissible, functionsList, extension⟩ :=
      extends_function_iff.mp extension
    rw [List.append_assoc, parseDefinitions_of_function line fitsHere admissible,
      Definitions.insert_eq_ok_iff.mpr functionsList]
    exact ih fitsBehind extension

/-- A sentence whose definitions can be added is read to its end. -/
theorem parseDefinitions_of_sentence {program result : Program Unit} {tokens : List Token}
    {tree : ProgramTree} (sentence : Sentence tokens tree) (fits : LiteralsFit tokens)
    (extension : Extends program tree result) :
    (parseDefinitions stop program tokens).outcome = .ok result := by
  rw [← List.append_nil tokens, parseDefinitions_append_of_sentence sentence fits extension,
    parseDefinitions]
  rfl

end Functions

/-- What is read of a scanned source is admissible and a sentence of the grammar. -/
theorem ofLexed_eq_ok_iff {lexed : Lexed} {program : Program Unit} :
    (Program.ofLexed lexed).outcome = .ok program ↔
      (∃ stop, lexed.ending = .ok stop) ∧ Sentence lexed.tokens program.tree ∧
        LiteralsFit lexed.tokens ∧ program.tree.Admissible := by
  unfold Program.ofLexed
  cases lexed.ending with
  | error error => simp [Recorded.fail]
  | ok stop =>
    simp only [Except.ok.injEq, exists_eq', true_and]
    constructor
    · intro done
      obtain ⟨tree, sentence, fits, globals, functions, typed, admissible⟩ :=
        sentence_of_parseDefinitions done
      obtain rfl : program.tree = tree := by
        simp only [Program.tree, globals, functions]
        rfl
      refine ⟨sentence, fits, .of_definitions typed, admissible, ?_⟩
      simp only [Program.tree, List.pairwise_map]
      exact program.functions.distinct
    · rintro ⟨sentence, fits, globals, functions, _⟩
      exact parseDefinitions_of_sentence sentence fits ⟨rfl, rfl, globals.typed, functions⟩

/-- The function that an admissible tree writes. -/
def FunctionTree.toFunction (tree : FunctionTree) (admissible : tree.Admissible) :
    Function Unit :=
  ⟨tree.returnTy, tree.name, ⟨tree.params, admissible.params.distinct⟩,
    ⟨tree.locals, admissible.locals.distinct⟩, tree.body⟩

/-- An admissible tree is the tree of a program. -/
theorem ProgramTree.Admissible.exists_program {tree : ProgramTree}
    (admissible : tree.Admissible) : ∃ program : Program Unit, program.tree = tree := by
  obtain ⟨globals, functions⟩ := tree
  obtain ⟨globalsAdmissible, functionsAdmissible, distinct⟩ := admissible
  have written :
      (functions.pmap FunctionTree.toFunction functionsAdmissible).map Function.tree =
        functions := by
    rw [List.map_pmap]
    exact (List.pmap_eq_map functionsAdmissible).trans (List.map_id functions)
  have functionsDistinct := written ▸ distinct
  rw [List.pairwise_map] at functionsDistinct
  refine ⟨⟨⟨globals, globalsAdmissible.distinct⟩, ⟨_, functionsDistinct⟩⟩, ?_⟩
  simp only [Program.tree, written]

/-- A source is read exactly if it can be scanned, its tokens are a sentence of the grammar
with literals that fit, and the tree is admissible; what is read is that tree. -/
theorem reads_source_iff (source : String) (tree : ProgramTree) :
    (∃ program, (Program.ofLexed (.ofSource source)).outcome = .ok program ∧
        program.tree = tree) ↔
      (∃ stop, (Lexed.ofSource source).ending = .ok stop) ∧
        Sentence (Lexed.ofSource source).tokens tree ∧
        LiteralsFit (Lexed.ofSource source).tokens ∧ tree.Admissible := by
  constructor
  · rintro ⟨program, read, rfl⟩
    exact ofLexed_eq_ok_iff.mp read
  · rintro ⟨scanned, sentence, fits, admissible⟩
    obtain ⟨program, rfl⟩ := admissible.exists_program
    exact ⟨program, ofLexed_eq_ok_iff.mpr ⟨scanned, sentence, fits, admissible⟩, rfl⟩

end TypedImp.Grammar
