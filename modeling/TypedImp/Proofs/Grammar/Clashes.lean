import TypedImp.Proofs.Grammar.ProgramReading

/-!
# Definitions that clash

A sentence is read behind the definitions of a program.  If some of its definitions have names that
the program defines already, then the first of them in the order of the source is refused:
`exists_firstClash`.

The induction is on the sentence.  A definition without a clash is added to the program, and that
changes no clash of the definitions behind it, since their names differ from its own.
-/

namespace TypedImp

/-- A lookup does not see definitions of other names that stand behind the others. -/
theorem Definitions.get?_of_append {α : Type} [Named α] {definitions extended : Definitions α}
    {added : List α} {name : String} (split : extended.toList = definitions.toList ++ added)
    (absent : ∀ definition ∈ added, (Named.ident definition).name ≠ name) :
    extended.get? name = definitions.get? name := by
  have notAdded : added.find? (fun definition => (Named.ident definition).name = name) = none := by
    simpa using absent
  rw [get?, split, List.find?_append, notAdded, Option.or_none]
  rfl

/-- Definitions with different names that are not defined yet can be added. -/
theorem Definitions.exists_append {α : Type} [Named α] (definitions : Definitions α)
    {added : List α}
    (distinct : added.Pairwise fun first second =>
      (Named.ident first).name ≠ (Named.ident second).name)
    (free : ∀ definition ∈ added, definitions.get? (Named.ident definition).name = none) :
    ∃ extended : Definitions α, extended.toList = definitions.toList ++ added :=
  ⟨⟨definitions.toList ++ added, List.pairwise_append.mpr
    ⟨definitions.distinct, distinct, fun defined member definition isAdded =>
      get?_eq_none_iff.mp (free definition isAdded) defined member⟩⟩, rfl⟩

namespace Grammar

open TypedImp.Parser

/-- How a definition of a sentence is refused if a program defines its name already. -/
inductive Clash (program : Program Unit) (tree : ProgramTree) : Spanned SyntaxError → Prop
  | global {earlier later : Declaration} (isNew : later ∈ tree.globals)
      (found : program.globals.get? later.name.name = some earlier) :
      Clash program tree
        ⟨later.name.span, .duplicateDeclaration earlier.name.name earlier.name.span⟩
  | function {earlier : Function Unit} {later : FunctionTree} (isNew : later ∈ tree.functions)
      (found : program.functions.get? later.name.name = some earlier) :
      Clash program tree
        ⟨later.name.span, .duplicateFunction earlier.name.name earlier.name.span⟩

/-- The clash that stands first in the source: every other one stands behind it. -/
structure FirstClash (program : Program Unit) (tree : ProgramTree) (error : Spanned SyntaxError) :
    Prop where
  clashes : Clash program tree error
  first : ∀ other, Clash program tree other →
    other = error ∨ error.span.lo < other.span.lo

/-- The places of tokens, and that each stands behind the ones before it. -/
def Ordered (tokens : List Token) : Prop :=
  (tokens.map Token.span).Pairwise fun first second => first.lo < second.lo

/-! ### Where the names of definitions stand -/

section Places

variable {tokens others : List Token}

theorem spans_sublist_of_names {names : List Ident} (named : Names tokens names) :
    (names.map Ident.span).Sublist (tokens.map Token.span) := by
  induction named with
  | last _ => exact .refl _
  | more _ _ _ ih => exact (ih.cons _).cons_cons _

theorem spans_sublist_of_line {declarations : List Declaration}
    (line : DeclarationLine tokens declarations) :
    (declarations.map fun declaration => declaration.name.span).Sublist
      (tokens.map Token.span) := by
  obtain @⟨word, semicolon, ty, tokens, names, _, named, _⟩ := line
  rw [List.map_map, List.map_cons, List.map_append]
  exact ((spans_sublist_of_names named).trans (List.sublist_append_left _ _)).cons _

theorem span_mem_of_functionLine {function : FunctionTree} (line : FunctionLine tokens function) :
    function.name.span ∈ tokens.map Token.span := by
  cases line
  simp

/-- The name of a definition that clashes is a token of the sentence. -/
theorem Clash.span_mem {program : Program Unit} {tree : ProgramTree}
    {error : Spanned SyntaxError} (clash : Clash program tree error)
    (sentence : Sentence tokens tree) : error.span ∈ tokens.map Token.span := by
  induction sentence with
  | none =>
    cases clash with
    | global isNew _ | function isNew _ => cases isNew
  | declaration line _ ih =>
    rw [List.map_append, List.mem_append]
    cases clash with
    | global isNew found =>
      rcases List.mem_append.mp isNew with inLine | behind
      · exact .inl ((spans_sublist_of_line line).subset (List.mem_map_of_mem inLine))
      · exact .inr (ih (.global behind found))
    | function isNew found => exact .inr (ih (.function isNew found))
  | function line _ ih =>
    rw [List.map_append, List.mem_append]
    cases clash with
    | global isNew found => exact .inr (ih (.global isNew found))
    | function isNew found =>
      rcases List.mem_cons.mp isNew with rfl | behind
      · exact .inl (span_mem_of_functionLine line)
      · exact .inr (ih (.function behind found))

theorem Ordered.append_iff :
    Ordered (tokens ++ others) ↔
      Ordered tokens ∧ Ordered others ∧
        ∀ first ∈ tokens.map Token.span, ∀ second ∈ others.map Token.span,
          first.lo < second.lo := by
  rw [Ordered, List.map_append, List.pairwise_append]
  rfl

end Places

/-! ### Reading up to a name that clashes -/

section Names

variable {stop : Nat} {ty : Ty}
  {add : Definitions Declaration → Ident → Result (Definitions Declaration)}
  {admitted : Declaration → Prop} {error : Spanned SyntaxError}

/-- The names before one that cannot be added are added, and then it is refused. -/
theorem parseNames_eq_error (adds : Adds add ty admitted) {clash : Ident}
    {before later : List Ident} {scope middle : Definitions Declaration} {name : Token}
    {behind : List Token} (named : Names (name :: behind) (before ++ clash :: later))
    (allowed : ∀ name ∈ before, admitted ⟨name, ty⟩)
    (middleList : middle.toList = scope.toList ++ before.map (⟨·, ty⟩))
    (refused : add middle clash = .error error) (rest : List Token) :
    parseNames stop add scope (identOf name) (behind ++ rest) = .error error := by
  induction before generalizing scope name behind with
  | nil =>
    obtain rfl : middle = scope := Definitions.ext_toList (by simpa using middleList)
    have isFirst : clash = identOf name := by
      rw [List.nil_append] at named
      cases named <;> rfl
    rw [parseNames, ← isFirst, refused]
    rfl
  | cons first before ih =>
    rw [List.cons_append] at named
    generalize split : before ++ clash :: later = names at named
    cases named with
    | last _ => simp at split
    | @more _ comma others _ isName separates following =>
      subst split
      obtain ⟨next, behind, rfl, isNext⟩ := head_of_names following
      rw [List.forall_mem_cons] at allowed
      obtain ⟨extended, extendedList⟩ := Definitions.exists_of_append
        (scope.toList ++ [⟨identOf name, ty⟩]) (before.map (⟨·, ty⟩))
        (by simpa [identOf] using middleList)
      have added : add scope (identOf name) = .ok extended :=
        adds.eq_ok_iff.mpr ⟨allowed.1, extendedList⟩
      have middleList : middle.toList = extended.toList ++ before.map (⟨·, ty⟩) := by
        simpa [extendedList, identOf] using middleList
      have read := ih following allowed.2 middleList
      have taken : parseIdent stop (next :: (behind ++ rest)) =
          .ok ⟨identOf next, behind ++ rest, Nat.lt_succ_self _⟩ := by
        simp [parseIdent, expect, isNext, single, give]
      rw [parseNames, added, List.cons_append, List.cons_append, take?_of_kind separates]
      simp only [bind, Except.bind, taken, andThen, read, after]

theorem ty_of_line {word : Token} {behind : List Token} {declarations : List Declaration}
    (isType : word.kind = .typeName ty) (line : DeclarationLine (word :: behind) declarations) :
    ∀ declaration ∈ declarations, declaration.ty = ty := by
  generalize spelled : word :: behind = tokens at line
  obtain @⟨_, semicolon, lineTy, tokens, names, isLineType, _, _⟩ := line
  obtain ⟨rfl, _⟩ := List.cons.inj spelled
  obtain rfl : ty = lineTy := by simpa [isType] using isLineType
  simp

/-- The declaration of a variable that clashes is refused at its name. -/
theorem parseNames_eq_error_of_line (adds : Adds add ty admitted) {clash : Declaration}
    {before later : List Declaration} {scope middle : Definitions Declaration}
    {word name : Token} {behind : List Token} (isType : word.kind = .typeName ty)
    (line : DeclarationLine (word :: name :: behind) (before ++ clash :: later))
    (allowed : ∀ declaration ∈ before, admitted declaration)
    (middleList : middle.toList = scope.toList ++ before)
    (refused : add middle clash.name = .error error) (rest : List Token) :
    parseNames stop add scope (identOf name) (behind ++ rest) = .error error := by
  generalize declared : before ++ clash :: later = declarations at line
  generalize spelled : word :: name :: behind = tokens at line
  obtain @⟨_, semicolon, lineTy, tokens, names, isLineType, named, _⟩ := line
  obtain ⟨rfl, inLine⟩ := List.cons.inj spelled
  obtain rfl : ty = lineTy := by simpa [isType] using isLineType
  obtain ⟨firsts, others, rfl, rfl, behindFirsts⟩ := List.map_eq_append_iff.mp declared.symm
  obtain ⟨refusedName, lasts, rfl, rfl, _⟩ := List.map_eq_cons_iff.mp behindFirsts
  obtain ⟨first, following, rfl, _⟩ := head_of_names named
  rw [List.cons_append, List.cons.injEq] at inLine
  obtain ⟨rfl, rfl⟩ := inLine
  rw [List.append_assoc]
  exact parseNames_eq_error adds named (by simpa using allowed) middleList refused _

end Names

/-! ### The clash that is found -/

section Clashes

variable {stop : Nat} {program : Program Unit} {tokens others : List Token}
  {declarations : List Declaration} {rest : ProgramTree}

/-- A declaration without a clash changes no clash of the definitions behind it. -/
theorem clash_behind_line_iff {globals : Definitions Declaration} {error : Spanned SyntaxError}
    (globalsList : globals.toList = program.globals.toList ++ declarations)
    (free : ∀ declaration ∈ declarations, program.globals.get? declaration.name.name = none)
    (apart : ∀ declaration ∈ declarations, ∀ later ∈ rest.globals,
      declaration.name.name ≠ later.name.name) :
    Clash program ⟨declarations ++ rest.globals, rest.functions⟩ error ↔
      Clash { program with globals } rest error := by
  have sameLookup : ∀ later ∈ rest.globals,
      globals.get? later.name.name = program.globals.get? later.name.name :=
    fun later member => Definitions.get?_of_append globalsList fun declaration inLine =>
      apart declaration inLine later member
  constructor
  · rintro (⟨isNew, found⟩ | ⟨isNew, found⟩)
    · rcases List.mem_append.mp isNew with inLine | behind
      · cases (free _ inLine).symm.trans found
      · exact .global behind ((sameLookup _ behind).trans found)
    · exact .function isNew found
  · rintro (⟨isNew, found⟩ | ⟨isNew, found⟩)
    · exact .global (List.mem_append_right _ isNew) ((sameLookup _ isNew).symm.trans found)
    · exact .function isNew found

/-- A function without a clash changes no clash of the definitions behind it. -/
theorem clash_behind_function_iff {function : Function Unit}
    {functions : Definitions (Function Unit)} {error : Spanned SyntaxError}
    (functionsList : functions.toList = program.functions.toList ++ [function])
    (free : program.functions.get? function.name.name = none)
    (apart : ∀ later ∈ rest.functions, function.name.name ≠ later.name.name) :
    Clash program ⟨rest.globals, function.tree :: rest.functions⟩ error ↔
      Clash { program with functions } rest error := by
  have sameLookup : ∀ later ∈ rest.functions,
      functions.get? later.name.name = program.functions.get? later.name.name :=
    fun later member => Definitions.get?_of_append functionsList fun added isAdded => by
      rw [List.mem_singleton.mp isAdded]
      exact apart later member
  constructor
  · rintro (⟨isNew, found⟩ | ⟨isNew, found⟩)
    · exact .global isNew found
    · rcases List.mem_cons.mp isNew with rfl | behind
      · cases free.symm.trans found
      · exact .function behind ((sameLookup _ behind).trans found)
  · rintro (⟨isNew, found⟩ | ⟨isNew, found⟩)
    · exact .global isNew found
    · exact .function (List.mem_cons_of_mem _ isNew) ((sameLookup _ isNew).symm.trans found)

/-- The first variable of a declaration that clashes is refused. -/
theorem parseDefinitions_eq_error_of_line {before later : List Declaration}
    {earlier clash : Declaration} (line : DeclarationLine tokens (before ++ clash :: later))
    (admissible : ScopeAdmissible (before ++ clash :: later))
    (free : ∀ declaration ∈ before, program.globals.get? declaration.name.name = none)
    (found : program.globals.get? clash.name.name = some earlier) (others : List Token) :
    (parseDefinitions stop program (tokens ++ others)).outcome =
      .error ⟨clash.name.span, .duplicateDeclaration earlier.name.name earlier.name.span⟩ := by
  obtain ⟨distinctBefore, _, apart⟩ := List.pairwise_append.mp admissible.distinct
  obtain ⟨middle, middleList⟩ := program.globals.exists_append distinctBefore free
  have foundBehind : middle.get? clash.name.name = some earlier := by
    rw [Definitions.get?_of_append middleList, found]
    exact fun declaration member => apart declaration member clash List.mem_cons_self
  obtain ⟨word, name, next, behind, ty, rfl, isType, isName, noParen⟩ :=
    head_of_declarationLine line
  have typed : ty ≠ .void := by
    rw [← ty_of_line isType line clash (by simp)]
    exact admissible.typed clash (by simp)
  have refused : declare middle clash.name ty =
      .error ⟨clash.name.span, .duplicateDeclaration earlier.name.name earlier.name.span⟩ := by
    have inserted : middle.insert ⟨clash.name, ty⟩ = .error earlier :=
      Definitions.insert_eq_error_iff.mpr foundBehind
    rw [declare, if_neg typed, inserted]
  have typedBefore : ∀ declaration ∈ before, declaration.ty ≠ .void :=
    fun declaration member => admissible.typed declaration (by simp [member])
  rw [List.cons_append, List.cons_append, List.cons_append,
    parseDefinitions_of_variable isType isName noParen, ← List.cons_append,
    parseNames_eq_error_of_line (declarationAdds ty) isType line typedBefore middleList refused]
  rfl

/-- A variable that clashes first in its declaration clashes first in the sentence. -/
theorem firstClash_of_line {before later : List Declaration} {earlier clash : Declaration}
    (line : DeclarationLine tokens (before ++ clash :: later)) (following : Sentence others rest)
    (ordered : Ordered (tokens ++ others))
    (free : ∀ declaration ∈ before, program.globals.get? declaration.name.name = none)
    (found : program.globals.get? clash.name.name = some earlier) :
    FirstClash program ⟨before ++ clash :: later ++ rest.globals, rest.functions⟩
      ⟨clash.name.span, .duplicateDeclaration earlier.name.name earlier.name.span⟩ := by
  obtain ⟨orderedHere, _, earlierLo⟩ := Ordered.append_iff.mp ordered
  have places := spans_sublist_of_line line
  have placed : clash.name.span ∈ tokens.map Token.span := places.subset (by simp)
  have behindLine : ∀ other, Clash program rest other → clash.name.span.lo < other.span.lo :=
    fun other isClash => earlierLo _ placed _ (isClash.span_mem following)
  have behindClash : ∀ declaration ∈ later, clash.name.span.lo < declaration.name.span.lo := by
    have increasing := orderedHere.sublist places
    rw [List.map_append, List.map_cons] at increasing
    have afterClash := (List.pairwise_cons.mp (List.pairwise_append.mp increasing).2.1).1
    exact fun declaration member => afterClash _ (List.mem_map.mpr ⟨declaration, member, rfl⟩)
  refine ⟨.global (by simp) found, fun other isClash => ?_⟩
  cases isClash with
  | function isNew found => exact .inr (behindLine _ (.function isNew found))
  | global isNew foundOther =>
    rcases List.mem_append.mp isNew with inLine | inRest
    · rcases List.mem_append.mp inLine with inBefore | inLater
      · cases (free _ inBefore).symm.trans foundOther
      · rcases List.mem_cons.mp inLater with rfl | inLater
        · obtain rfl := Option.some.inj (found.symm.trans foundOther)
          exact .inl rfl
        · exact .inr (behindClash _ inLater)
    · exact .inr (behindLine _ (.global inRest foundOther))

/-- A function that clashes and comes first clashes first in the sentence. -/
theorem firstClash_of_function {function : FunctionTree} {earlier : Function Unit}
    (line : FunctionLine tokens function) (following : Sentence others rest)
    (ordered : Ordered (tokens ++ others))
    (found : program.functions.get? function.name.name = some earlier) :
    FirstClash program ⟨rest.globals, function :: rest.functions⟩
      ⟨function.name.span, .duplicateFunction earlier.name.name earlier.name.span⟩ := by
  obtain ⟨_, _, earlierLo⟩ := Ordered.append_iff.mp ordered
  have behindLine : ∀ other, Clash program rest other → function.name.span.lo < other.span.lo :=
    fun other isClash =>
      earlierLo _ (span_mem_of_functionLine line) _ (isClash.span_mem following)
  refine ⟨.function List.mem_cons_self found, fun other isClash => ?_⟩
  cases isClash with
  | global isNew foundOther => exact .inr (behindLine _ (.global isNew foundOther))
  | function isNew foundOther =>
    rcases List.mem_cons.mp isNew with rfl | inRest
    · obtain rfl := Option.some.inj (found.symm.trans foundOther)
      exact .inl rfl
    · exact .inr (behindLine _ (.function inRest foundOther))

/-- If some definitions of an admissible sentence clash with those of a program, reading the
sentence behind the program ends with the clash that stands first. -/
theorem exists_firstClash {tree : ProgramTree} (sentence : Sentence tokens tree)
    (fits : LiteralsFit tokens) (ordered : Ordered tokens) (admissible : tree.Admissible)
    (clashes : ∃ error, Clash program tree error) :
    ∃ error, FirstClash program tree error ∧
      (parseDefinitions stop program tokens).outcome = .error error := by
  induction sentence generalizing program with
  | none =>
    obtain ⟨_, clash⟩ := clashes
    cases clash with
    | global isNew _ | function isNew _ => cases isNew
  | @declaration tokens others declarations rest line following ih =>
    obtain ⟨fitsHere, fitsBehind⟩ := literalsFit_append.mp fits
    obtain ⟨typed, distinct⟩ := admissible.globals
    obtain ⟨typedHere, typedBehind⟩ := List.forall_mem_append.mp typed
    obtain ⟨distinctHere, distinctBehind, apart⟩ := List.pairwise_append.mp distinct
    cases first : declarations.find? fun declaration =>
        (program.globals.get? declaration.name.name).isSome with
    | some clash =>
      obtain ⟨isClash, before, later, rfl, free⟩ := List.find?_eq_some_iff_append.mp first
      obtain ⟨earlier, found⟩ := Option.isSome_iff_exists.mp isClash
      have free : ∀ declaration ∈ before, program.globals.get? declaration.name.name = none := by
        simpa using free
      exact ⟨_, firstClash_of_line line following ordered free found,
        parseDefinitions_eq_error_of_line line ⟨typedHere, distinctHere⟩ free found others⟩
    | none =>
      have free : ∀ declaration ∈ declarations,
          program.globals.get? declaration.name.name = none := by
        simpa using first
      obtain ⟨globals, globalsList⟩ := program.globals.exists_append distinctHere free
      have behind {error : Spanned SyntaxError} :
          Clash program ⟨declarations ++ rest.globals, rest.functions⟩ error ↔
            Clash { program with globals } rest error :=
        clash_behind_line_iff globalsList free apart
      simp only [behind] at clashes
      obtain ⟨error, ⟨isClash, isFirst⟩, done⟩ := ih fitsBehind (Ordered.append_iff.mp ordered).2.1
        ⟨⟨typedBehind, distinctBehind⟩, admissible.functions, admissible.distinct⟩ clashes
      refine ⟨error, ⟨behind.mpr isClash, fun other clash => isFirst other (behind.mp clash)⟩, ?_⟩
      rw [parseDefinitions_of_line line fitsHere typedHere globalsList, done]
  | @function tokens others function rest line following ih =>
    obtain ⟨fitsHere, fitsBehind⟩ := literalsFit_append.mp fits
    obtain ⟨admissibleHere, admissibleBehind⟩ := List.forall_mem_cons.mp admissible.functions
    obtain ⟨apart, distinct⟩ := List.pairwise_cons.mp admissible.distinct
    obtain ⟨first, rfl⟩ : ∃ first : Function Unit, first.tree = function :=
      ⟨function.toFunction admissibleHere, rfl⟩
    rw [parseDefinitions_of_function line fitsHere admissibleHere]
    cases inserted : program.functions.insert first with
    | error earlier =>
      have found := Definitions.insert_eq_error_iff.mp inserted
      exact ⟨_, firstClash_of_function line following ordered found, rfl⟩
    | ok functions =>
      have functionsList := Definitions.toList_insert inserted
      have free : program.functions.get? first.name.name = none := by
        cases found : program.functions.get? first.name.name with
        | none => rfl
        | some earlier =>
          cases (Definitions.insert_eq_error_iff.mpr found).symm.trans inserted
      have behind {error : Spanned SyntaxError} :
          Clash program ⟨rest.globals, first.tree :: rest.functions⟩ error ↔
            Clash { program with functions } rest error :=
        clash_behind_function_iff functionsList free apart
      simp only [behind] at clashes
      obtain ⟨error, ⟨isClash, isFirst⟩, done⟩ := ih fitsBehind (Ordered.append_iff.mp ordered).2.1
        ⟨admissible.globals, admissibleBehind, distinct⟩ clashes
      exact ⟨error, ⟨behind.mpr isClash, fun other clash => isFirst other (behind.mp clash)⟩, done⟩

end Clashes

end Grammar

end TypedImp
