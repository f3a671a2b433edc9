import TypedImp.Program.Parser.Definition
import TypedImp.Proofs.Grammar.Combinators
import TypedImp.Proofs.Grammar.ExpressionReading
import TypedImp.Proofs.Grammar.Program

/-!
# Reading declarations by the grammar

The parser checks a declared name as soon as it has read it.  Its scope grows by exactly
the declarations that the grammar writes, so the checks can be said of the whole scope:
no variable has type `void`, and the names differ because a scope has distinct names.
-/

namespace TypedImp

namespace Definitions

variable {α : Type} [Named α]

theorem exists_of_append {definitions : Definitions α} (front back : List α)
    (split : definitions.toList = front ++ back) :
    ∃ first : Definitions α, first.toList = front :=
  ⟨⟨front, (List.pairwise_append.mp (split ▸ definitions.distinct)).1⟩, rfl⟩

/-- An insertion succeeds exactly if the longer list has distinct names. -/
theorem insert_eq_ok_iff {definitions extended : Definitions α} {definition : α} :
    definitions.insert definition = .ok extended ↔
      extended.toList = definitions.toList ++ [definition] := by
  constructor
  · exact toList_insert
  · intro toList
    cases inserted : definitions.insert definition with
    | ok other =>
      rw [Definitions.ext_toList (toList.trans (toList_insert inserted).symm)]
    | error earlier =>
      have found := get?_eq_some_iff.mp (insert_eq_error_iff.mp inserted)
      have distinct := extended.distinct
      rw [toList] at distinct
      have different :=
        (List.pairwise_append.mp distinct).2.2 earlier found.1 definition (by simp)
      exact absurd found.2 different

end Definitions

namespace Grammar

open TypedImp.Parser

theorem declare_eq_ok_iff {scope extended : Definitions Declaration} {name : Ident}
    {ty : Ty} :
    declare scope name ty = .ok extended ↔
      ty ≠ .void ∧ extended.toList = scope.toList ++ [⟨name, ty⟩] := by
  unfold declare
  split
  case isTrue isVoid => simp [isVoid]
  case isFalse typed =>
    rw [← Definitions.insert_eq_ok_iff]
    cases scope.insert ⟨name, ty⟩ <;> simp [typed]

theorem declareLocal_eq_ok_iff {params scope extended : Definitions Declaration}
    {name : Ident} {ty : Ty} :
    declareLocal params scope name ty = .ok extended ↔
      (ty ≠ .void ∧ ∀ param ∈ params.toList, param.name.name ≠ name.name) ∧
        extended.toList = scope.toList ++ [⟨name, ty⟩] := by
  unfold declareLocal
  cases found : params.get? name.name with
  | some earlier =>
    obtain ⟨member, named⟩ := Definitions.get?_eq_some_iff.mp found
    simp only [reduceCtorEq, false_iff]
    rintro ⟨⟨_, noParam⟩, _⟩
    exact noParam earlier member named
  | none =>
    have noParam := Definitions.get?_eq_none_iff.mp found
    simp only [declare_eq_ok_iff]
    constructor
    · rintro ⟨typed, toList⟩
      exact ⟨⟨typed, noParam⟩, toList⟩
    · rintro ⟨⟨typed, _⟩, toList⟩
      exact ⟨typed, toList⟩

/-- Parameters are declared exactly if they are not `void` and their names differ. -/
theorem declareParams_eq_ok_iff {formals : List Declaration}
    {params : Definitions Declaration} :
    declareParams formals = .ok params ↔
      (∀ formal ∈ formals, formal.ty ≠ .void) ∧ params.toList = formals := by
  suffices general : ∀ scope : Definitions Declaration,
      formals.foldlM (fun scope formal => declare scope formal.name formal.ty) scope =
          Except.ok params ↔
        (∀ formal ∈ formals, formal.ty ≠ .void) ∧
          params.toList = scope.toList ++ formals from general .empty
  induction formals with
  | nil =>
    intro scope
    simp only [List.foldlM_nil, pure, Except.pure, Except.ok.injEq, List.append_nil]
    constructor
    · rintro rfl
      exact ⟨by simp, rfl⟩
    · rintro ⟨_, toList⟩
      exact (Definitions.ext_toList toList).symm
  | cons first rest ih =>
    intro scope
    rw [List.foldlM_cons]
    constructor
    · intro declared
      cases head : declare scope first.name first.ty with
      | error error => rw [head] at declared; cases declared
      | ok extended =>
        obtain ⟨typed, extendedList⟩ := declare_eq_ok_iff.mp head
        rw [head] at declared
        obtain ⟨restTyped, toList⟩ := (ih extended).mp declared
        refine ⟨by simpa using ⟨typed, restTyped⟩, ?_⟩
        rw [toList, extendedList, List.append_assoc, List.singleton_append]
    · rintro ⟨typed, toList⟩
      rw [List.forall_mem_cons] at typed
      obtain ⟨extended, extendedList⟩ := Definitions.exists_of_append
        (scope.toList ++ [first]) rest (by simpa using toList)
      rw [declare_eq_ok_iff.mpr ⟨typed.1, extendedList⟩]
      refine (ih extended).mpr ⟨typed.2, ?_⟩
      rw [toList, extendedList, List.append_assoc, List.singleton_append]

variable {stop : Nat}

theorem reads_bind_iff {α β : Type} {limit : Nat} {first : Result α}
    {next : α → Result (Parsed limit β)} {value : β} {rest : List Token} :
    Reads (first >>= next) value rest ↔
      ∃ middle, first = .ok middle ∧ Reads (next middle) value rest := by
  cases first with
  | error error => simp [Reads, bind, Except.bind]
  | ok middle => simp [bind, Except.bind]

/-- A way to add names to a scope, which admits some declarations. -/
structure Adds (add : Definitions Declaration → Ident → Result (Definitions Declaration))
    (ty : Ty) (admitted : Declaration → Prop) : Prop where
  eq_ok_iff {scope extended : Definitions Declaration} {name : Ident} :
    add scope name = .ok extended ↔
      admitted ⟨name, ty⟩ ∧ extended.toList = scope.toList ++ [⟨name, ty⟩]

theorem head_of_names {tokens : List Token} {names : List Ident} (named : Names tokens names) :
    ∃ name others, tokens = name :: others ∧ name.kind = .identifier := by
  cases named with
  | last isName => exact ⟨_, _, rfl, isName⟩
  | more isName _ _ => exact ⟨_, _, rfl, isName⟩

/-- A declaration begins with a type and a name, and no parenthesis follows, as it does
in a function. -/
theorem head_of_declarationLine {tokens : List Token} {declarations : List Declaration}
    (line : DeclarationLine tokens declarations) :
    ∃ word name next others ty, tokens = word :: name :: next :: others ∧
      word.kind = .typeName ty ∧ name.kind = .identifier ∧ next.kind ≠ .leftParen := by
  obtain ⟨isType, named, ends⟩ := line
  cases named with
  | last isName => exact ⟨_, _, _, _, _, rfl, isType, isName, by simp [ends]⟩
  | more isName separates _ => exact ⟨_, _, _, _, _, rfl, isType, isName, by simp [separates]⟩

/-- Names that were read behind a first one, with the semicolon behind them. -/
theorem reads_parseNames_iff
    {add : Definitions Declaration → Ident → Result (Definitions Declaration)} {ty : Ty}
    {admitted : Declaration → Prop} (adds : Adds add ty admitted)
    {scope extended : Definitions Declaration} {name : Token} {tokens rest : List Token}
    (isName : name.kind = .identifier) :
    Reads (parseNames stop add scope (identOf name) tokens) extended rest ↔
      ∃ names semicolon, (∀ named ∈ names, admitted ⟨named, ty⟩) ∧
        extended.toList = scope.toList ++ names.map (⟨·, ty⟩) ∧
        semicolon.kind = .semicolon ∧
        Spells (Names · names) (name :: tokens) (semicolon :: rest) := by
  obtain ⟨limit, short⟩ : ∃ limit, tokens.length < limit := ⟨_, Nat.lt_succ_self _⟩
  induction limit generalizing scope name tokens with
  | zero => omega
  | succ limit ih =>
    rw [parseNames, reads_bind_iff]
    constructor
    · rintro ⟨middle, added, reads⟩
      obtain ⟨allowed, middleList⟩ := adds.eq_ok_iff.mp added
      split at reads
      case _ =>
        simp only [reads_give_iff, reads_expect_iff] at reads
        obtain ⟨semicolon, ⟨rfl, ends⟩, rfl⟩ := reads
        exact ⟨[identOf name], semicolon, by simpa using allowed, by simpa using middleList,
          ends, [name], rfl, by simp [isName], .last isName⟩
      case _ comma behind _ found =>
        obtain ⟨rfl, separates⟩ := eq_cons_of_take? found
        simp only [reads_after_iff, reads_andThen_iff, reads_parseIdent_iff] at reads
        obtain ⟨_, behind, _, ⟨next, rfl, isNext, rfl⟩, reads⟩ := reads
        obtain ⟨names, semicolon, namesAllowed, toList, ends, spelled, split, fits, derived⟩ :=
          (ih isNext (by simp only [List.length_cons] at short; omega)).mp reads
        refine ⟨identOf name :: names, semicolon, ?_, ?_, ends, name :: comma :: spelled,
          by simp [split], ?_, .more isName separates derived⟩
        · simpa using ⟨allowed, namesAllowed⟩
        · simp [toList, middleList]
        · simp [isName, show comma.kind = .comma from separates, fits]
    · rintro ⟨names, semicolon, allowed, toList, ends, spelled, split, fits, derived⟩
      cases derived with
      | last _ =>
        simp only [List.singleton_append, List.cons.injEq] at split
        obtain ⟨rfl, rfl⟩ := split
        refine ⟨extended, adds.eq_ok_iff.mpr ⟨by simpa [identOf] using allowed, toList⟩, ?_⟩
        have noComma : take? .comma (semicolon :: rest) = none := by simp [take?_cons, ends]
        simp [noComma, ends]
      | @more _ comma others names _ separates following =>
        simp only [List.cons_append, List.cons.injEq] at split
        obtain ⟨rfl, rfl⟩ := split
        rw [List.forall_mem_cons] at allowed
        obtain ⟨middle, middleList⟩ := Definitions.exists_of_append
          (scope.toList ++ [⟨identOf name, ty⟩]) (names.map (⟨·, ty⟩))
          (by simpa [identOf] using toList)
        refine ⟨middle, adds.eq_ok_iff.mpr ⟨allowed.1, middleList⟩, ?_⟩
        simp only [take?_of_kind separates, reads_after_iff, reads_andThen_iff,
          reads_parseIdent_iff]
        obtain ⟨next, behind, rfl, isNext⟩ := head_of_names following
        refine ⟨_, behind ++ semicolon :: rest, by simp, ⟨next, rfl, isNext, rfl⟩, ?_⟩
        refine (ih isNext ?_).mpr
          ⟨names, semicolon, allowed.2, ?_, ends, next :: behind, rfl, ?_, following⟩
        · simp only [List.cons_append, List.length_cons] at short
          omega
        · rw [toList, middleList]
          simp [identOf]
        · simpa [isName, show comma.kind = .comma from separates] using fits

theorem reads_parseParamList_iff {tokens rest : List Token} {formals : List Declaration} :
    Reads (parseParamList stop tokens) formals rest ↔
      ∃ close : Token, close.kind = .rightParen ∧
        Spells (ParamList · formals) tokens (close :: rest) := by
  obtain ⟨limit, short⟩ : ∃ limit, tokens.length < limit := ⟨_, Nat.lt_succ_self _⟩
  induction limit generalizing formals tokens with
  | zero => omega
  | succ limit ih =>
    rw [parseParamList]
    simp only [reads_andThen_iff, reads_parseType_iff, reads_parseIdent_iff]
    constructor
    · rintro ⟨ty, _, _, ⟨word, rfl, isType⟩, _, _, _, ⟨name, rfl, isName, rfl⟩, reads⟩
      split at reads
      case _ =>
        simp only [reads_give_iff, reads_expect_iff] at reads
        obtain ⟨close, ⟨rfl, closes⟩, rfl⟩ := reads
        exact ⟨close, closes, [word, name], rfl, by simp [isType, isName],
          .last isType isName⟩
      case _ comma behind _ found =>
        obtain ⟨rfl, separates⟩ := eq_cons_of_take? found
        simp only [reads_after_iff, reads_give_iff] at reads
        obtain ⟨following, reads, rfl⟩ := reads
        obtain ⟨close, closes, spelled, rfl, fits, derived⟩ :=
          (ih (by simp only [List.length_cons] at short; omega)).mp reads
        refine ⟨close, closes, word :: name :: comma :: spelled, by simp, ?_,
          .more isType isName separates derived⟩
        simp [isType, isName, show comma.kind = .comma from separates, fits]
    · rintro ⟨close, closes, spelled, rfl, fits, derived⟩
      cases derived with
      | @last word name ty isType isName =>
        have noComma : take? .comma (close :: rest) = none := by simp [take?_cons, closes]
        refine ⟨ty, _, by simp, ⟨word, rfl, isType⟩, _, _, by simp, ⟨name, rfl, isName, rfl⟩,
          ?_⟩
        simp [noComma, closes, identOf]
      | @more word name comma ty others following isType isName separates listed =>
        simp only [literalsFit_cons] at fits
        refine ⟨ty, _, by simp, ⟨word, rfl, isType⟩, _, comma :: (others ++ close :: rest),
          by simp, ⟨name, rfl, isName, rfl⟩, ?_⟩
        simp only [take?_of_kind separates, reads_after_iff, reads_give_iff]
        refine ⟨following, (ih ?_).mpr ⟨close, closes, others, rfl, fits.2.2.2, listed⟩, rfl⟩
        simp only [List.cons_append, List.length_cons] at short
        omega

theorem reads_parseParams_iff {tokens rest : List Token} {formals : List Declaration} :
    Reads (parseParams stop tokens) formals rest ↔
      ∃ close : Token, close.kind = .rightParen ∧
        Spells (Params · formals) tokens (close :: rest) := by
  unfold parseParams
  split
  case _ close behind _ found =>
    obtain ⟨rfl, closes⟩ := eq_cons_of_take? found
    rw [reads_ok_iff]
    constructor
    · rintro ⟨rfl, rfl⟩
      exact ⟨close, closes, [], rfl, literalsFit_nil, .none⟩
    · rintro ⟨other, _, spelled, split, _, derived⟩
      cases derived with
      | none => exact ⟨rfl, (List.cons.inj split).2⟩
      | some listed =>
        have isType : ∃ ty, close.kind = .typeName ty := by
          cases listed with
          | last isType _ | more isType _ _ _ =>
            simp only [List.cons_append, List.cons.injEq] at split
            exact ⟨_, split.1 ▸ isType⟩
        obtain ⟨ty, isType⟩ := isType
        rw [show close.kind = .rightParen from closes] at isType
        cases isType
  case _ found =>
    rw [reads_parseParamList_iff]
    constructor
    · rintro ⟨close, closes, spelled, rfl, fits, derived⟩
      exact ⟨close, closes, spelled, rfl, fits, .some derived⟩
    · rintro ⟨close, closes, spelled, rfl, fits, derived⟩
      cases derived with
      | none =>
        rw [List.nil_append, take?_of_kind closes] at found
        cases found
      | some listed => exact ⟨close, closes, spelled, rfl, fits, listed⟩

/-- A declaration behind its first name, which was read already. -/
theorem reads_parseNames_iff_line
    {add : Definitions Declaration → Ident → Result (Definitions Declaration)} {ty : Ty}
    {admitted : Declaration → Prop} (adds : Adds add ty admitted)
    {scope extended : Definitions Declaration} {word name : Token} {tokens rest : List Token}
    (isType : word.kind = .typeName ty) (isName : name.kind = .identifier) :
    Reads (parseNames stop add scope (identOf name) tokens) extended rest ↔
      ∃ declarations, (∀ declaration ∈ declarations, admitted declaration) ∧
        extended.toList = scope.toList ++ declarations ∧
        Spells (DeclarationLine · declarations) (word :: name :: tokens) rest := by
  rw [reads_parseNames_iff adds isName]
  constructor
  · rintro ⟨names, semicolon, allowed, toList, ends, spelled, split, fits, named⟩
    refine ⟨names.map (⟨·, ty⟩), by simpa using allowed, toList,
      word :: (spelled ++ [semicolon]), by simp [split], ?_, .mk isType named ends⟩
    simp [isType, fits, ends]
  · rintro ⟨_, allowed, toList, spelled, split, fits, line⟩
    obtain @⟨_, semicolon, otherTy, spelled, names, otherType, named, ends⟩ := line
    simp only [List.cons_append, List.append_assoc, List.cons.injEq] at split
    obtain ⟨rfl, split⟩ := split
    obtain rfl : ty = otherTy := by simpa [isType] using otherType
    simp only [literalsFit_cons, literalsFit_append] at fits
    exact ⟨names, semicolon, by simpa using allowed, toList, ends, spelled, split, fits.2.1,
      named⟩

/-- The local declarations are all that stand before something else than a type. -/
theorem reads_parseLocals_iff {params scope locals : Definitions Declaration}
    {tokens rest : List Token} :
    Reads (parseLocals stop params scope tokens) locals rest ↔
      ∃ declared, (∀ declaration ∈ declared, declaration.ty ≠ .void ∧
          ∀ param ∈ params.toList, param.name.name ≠ declaration.name.name) ∧
        locals.toList = scope.toList ++ declared ∧
        (∀ token ∈ rest.head?, ∀ ty, token.kind ≠ .typeName ty) ∧
        Spells (DeclarationLines · declared) tokens rest := by
  obtain ⟨limit, short⟩ : ∃ limit, tokens.length < limit := ⟨_, Nat.lt_succ_self _⟩
  induction limit generalizing scope tokens with
  | zero => omega
  | succ limit ih =>
    have adds (ty : Ty) : Adds (fun scope name => declareLocal params scope name ty) ty
        fun declaration => declaration.ty ≠ .void ∧
          ∀ param ∈ params.toList, param.name.name ≠ declaration.name.name :=
      ⟨declareLocal_eq_ok_iff⟩
    constructor
    · intro reads
      have finished (noType : ∀ token ∈ tokens.head?, ∀ ty, token.kind ≠ .typeName ty)
          (done : scope = locals ∧ tokens = rest) :
          ∃ declared, (∀ declaration ∈ declared, declaration.ty ≠ .void ∧
              ∀ param ∈ params.toList, param.name.name ≠ declaration.name.name) ∧
            locals.toList = scope.toList ++ declared ∧
            (∀ token ∈ rest.head?, ∀ ty, token.kind ≠ .typeName ty) ∧
            Spells (DeclarationLines · declared) tokens rest := by
        obtain ⟨rfl, rfl⟩ := done
        exact ⟨[], by simp, by simp, noType, [], rfl, literalsFit_nil, .none⟩
      cases tokens with
      | nil =>
        rw [parseLocals] at reads
        exact finished (by simp) (reads_nothing_iff.mp reads)
      | cons word behind =>
        rw [parseLocals] at reads
        split at reads
        case _ ty isType =>
          simp only [reads_optional_iff, reads_afterToken_iff, reads_andThen_iff,
            reads_andMaybe_iff, reads_parseIdent_iff] at reads
          obtain ⟨_, following, _, ⟨name, rfl, isName, rfl⟩, middle, left, shorter, first,
            reads⟩ := reads
          obtain ⟨declarations, allowed, middleList, spelled, split, fits, line⟩ :=
            (reads_parseNames_iff_line (adds ty) isType isName).mp first
          obtain ⟨others, othersAllowed, toList, noType, following, rfl, followingFits,
            lines⟩ := (ih (by simp only [List.length_cons] at short; omega)).mp reads
          refine ⟨declarations ++ others, ?_, by simp [toList, middleList], noType,
            spelled ++ following, by simp [split], by simp [fits, followingFits],
            .more line lines⟩
          simpa only [List.forall_mem_append] using ⟨allowed, othersAllowed⟩
        case _ noType =>
          refine finished ?_ (reads_nothing_iff.mp reads)
          intro token isFirst ty isType
          cases isFirst
          exact noType ty isType
    · rintro ⟨declared, allowed, toList, noType, spelled, rfl, fits, lines⟩
      cases lines with
      | none =>
        obtain rfl := Definitions.ext_toList (toList.trans (List.append_nil _))
        rw [List.nil_append]
        cases rest with
        | nil =>
          rw [parseLocals]
          simp
        | cons token behind =>
          rw [parseLocals]
          split
          case _ ty isType => exact absurd isType (noType token rfl ty)
          case _ => simp
      | @more tokens others declarations following line lines =>
        obtain ⟨allowedHere, allowedBehind⟩ := List.forall_mem_append.mp allowed
        obtain ⟨fitsHere, fitsBehind⟩ := literalsFit_append.mp fits
        obtain ⟨middle, middleList⟩ := Definitions.exists_of_append
          (scope.toList ++ declarations) following (by simpa using toList)
        obtain ⟨word, name, next, behind, ty, rfl, isType, isName, _⟩ :=
          head_of_declarationLine line
        have first : Reads
            (parseNames stop (fun scope name => declareLocal params scope name ty) scope
              (identOf name) (next :: (behind ++ (others ++ rest)))) middle (others ++ rest) :=
          (reads_parseNames_iff_line (adds ty) isType isName).mpr
            ⟨declarations, allowedHere, middleList, _, rfl, fitsHere, line⟩
        rw [List.append_assoc, List.cons_append, List.cons_append, List.cons_append, parseLocals,
          isType]
        simp only [reads_optional_iff, reads_afterToken_iff, reads_andThen_iff,
          reads_andMaybe_iff, reads_parseIdent_iff]
        refine ⟨_, _, by simp, ⟨name, rfl, isName, rfl⟩, middle, _, first.within, first, ?_⟩
        refine (ih ?_).mpr
          ⟨following, allowedBehind, ?_, noType, others, rfl, fitsBehind, lines⟩
        · simp only [List.cons_append, List.length_cons, List.length_append] at short ⊢
          omega
        · rw [toList, middleList, List.append_assoc]

end Grammar

end TypedImp
