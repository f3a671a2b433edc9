import TypedImp.Proofs.Typing.WellTyped

/-!
# Explicit conversions

A specialized program without its tags is a program in which every conversion is written as
a cast.  It keeps the typing rules even where assignments may only widen.  Its
specialization finds nothing to convert: it puts the tags back, and records no other event.
-/

namespace TypedImp

namespace Recorded

variable {ω ε α β : Type}

/-- A computation gives a result, and all its events have a property. -/
structure Gives (allowed : ω → Prop) (computation : Recorded ω ε α) (result : α) : Prop where
  outcome : computation.outcome = .ok result
  events : ∀ event ∈ computation.events, allowed event

variable {allowed : ω → Prop}

theorem gives_pure (result : α) : Gives (ε := ε) allowed (pure result) result :=
  ⟨rfl, nofun⟩

theorem gives_single {event : ω} (isAllowed : allowed event) (result : α) :
    Gives (ε := ε) allowed ⟨[event], .ok result⟩ result :=
  ⟨rfl, by simpa using isAllowed⟩

theorem Gives.bind {first : Recorded ω ε α} {next : α → Recorded ω ε β} {middle : α}
    {result : β} (firstGives : first.Gives allowed middle)
    (nextGives : (next middle).Gives allowed result) : (first >>= next).Gives allowed result := by
  obtain ⟨events, outcome⟩ := first
  obtain rfl : outcome = .ok middle := firstGives.outcome
  rw [mk_ok_bind]
  refine ⟨nextGives.outcome, fun event member => ?_⟩
  rcases List.mem_append.mp member with inFirst | inNext
  · exact firstGives.events event inFirst
  · exact nextGives.events event inNext

end Recorded

/-- An event that is not the insertion of a cast. -/
def SpecializationEvent.IsTag : SpecializationEvent → Prop
  | .binary _ _ | .unary _ _ => True
  | .floatCast | .intCast _ => False

mutual

/-- Drop the tags of an expression. -/
def Expr.untag : Expr Ty → Expr Unit
  | .literal value span => .literal value span
  | .var name span => .var name span
  | .binary op _ lhs rhs span => .binary op () lhs.untag rhs.untag span
  | .unary op _ operand span => .unary op () operand.untag span
  | .call callee arguments callSpan span =>
    .call callee (Expr.untagAll arguments) callSpan span

def Expr.untagAll : List (Expr Ty) → List (Expr Unit)
  | [] => []
  | first :: rest => first.untag :: Expr.untagAll rest

end

mutual

/-- Drop the tags of a statement. -/
def Stmt.untag : Stmt Ty → Stmt Unit
  | .skip => .skip
  | .block body => .block (Stmt.untagAll body)
  | .assign target value => .assign target value.untag
  | .conditional test thenBranch elseBranch =>
    .conditional test.untag thenBranch.untag elseBranch.untag
  | .loop test body => .loop test.untag body.untag
  | .call callee arguments span => .call callee (Expr.untagAll arguments) span
  | .giveBack value span => .giveBack value.untag span

def Stmt.untagAll : List (Stmt Ty) → List (Stmt Unit)
  | [] => []
  | first :: rest => first.untag :: Stmt.untagAll rest

end

/-- Drop the tags of a function. -/
def Function.untag (function : Function Ty) : Function Unit :=
  function.withBody (Stmt.untagAll function.body)

/-- Drop the tags of a program and keep its casts. -/
def Program.untag (program : Program Ty) : Program Unit :=
  ⟨program.globals, program.functions.map Function.untag fun _ => rfl⟩

/-- The scope in which untagged syntax stands. -/
def Scope.untag (scope : Scope Ty) : Scope Unit :=
  ⟨scope.functions.map Function.untag fun _ => rfl, scope.types⟩

theorem Scope.get?_untag {scope : Scope Ty} {name : String} {function : Function Ty}
    (found : scope.functions.get? name = some function) :
    scope.untag.functions.get? name = some function.untag := by
  have mapped := scope.functions.get?_map Function.untag (fun _ => rfl) name
  rw [found] at mapped
  exact mapped

section Checking

variable {scope : Scope Ty}

theorem HaveTypes.length_untagAll {arguments : List (Expr Ty)} {params : List Declaration}
    (typed : HaveTypes scope arguments params) :
    params.length = (Expr.untagAll arguments).length := by
  induction arguments generalizing params with
  | nil =>
    cases typed
    rfl
  | cons argument arguments ih =>
    cases typed with
    | cons _ rest => rw [List.length_cons, Expr.untagAll, List.length_cons, ih rest]

mutual

theorem checkExpr_untag {expr : Expr Ty} {ty : Ty} (typed : HasType scope expr ty) :
    scope.untag.checkExpr expr.untag = .ok ty := by
  match typed with
  | .literal => rfl
  | .var declared => rw [Expr.untag, Scope.checkExpr, Scope.variableType_eq_ok_iff]; exact declared
  | .binary first second accepted =>
    simp only [Expr.untag, Scope.checkExpr, except_bind_eq_ok_iff, require_eq_ok_iff]
    exact ⟨_, checkExpr_untag first, _, checkExpr_untag second, (), accepted, rfl⟩
  | .unary first accepted =>
    simp only [Expr.untag, Scope.checkExpr, except_bind_eq_ok_iff, require_eq_ok_iff]
    exact ⟨_, checkExpr_untag first, (), accepted, rfl⟩
  | .call found _ passed =>
    simp only [Expr.untag, Scope.checkExpr, except_bind_eq_ok_iff, require_eq_ok_iff,
      Scope.callee_eq_ok_iff, decide_eq_true_eq]
    exact ⟨_, Scope.get?_untag found, (), passed.length_untagAll, (),
      checkArguments_untag passed, rfl⟩

theorem checkArguments_untag {arguments : List (Expr Ty)} {params : List Declaration}
    (typed : HaveTypes scope arguments params) :
    scope.untag.checkArguments (Expr.untagAll arguments) params = .ok () := by
  match typed with
  | .nil => rfl
  | .cons first rest =>
    simp only [Expr.untagAll, Scope.checkArguments, except_bind_eq_ok_iff, require_eq_ok_iff,
      decide_eq_true_eq]
    exact ⟨_, checkExpr_untag first, (), rfl, checkArguments_untag rest⟩

end

mutual

/-- Well-typed statements keep the strict rules: an assigned value has the type of its
variable. -/
theorem checkStmt_untag {returnTy : Ty} {stmt : Stmt Ty} (typed : StmtTyped scope returnTy stmt) :
    scope.untag.checkStmt .strict returnTy stmt.untag = .ok () := by
  match typed with
  | .skip => rfl
  | .block bodyTyped =>
    rw [Stmt.untag, Scope.checkStmt]
    exact checkStmts_untag bodyTyped
  | .assign declared valueTyped =>
    simp only [Stmt.untag, Scope.checkStmt, except_bind_eq_ok_iff, require_eq_ok_iff,
      Scope.variableType_eq_ok_iff]
    exact ⟨_, declared, _, checkExpr_untag valueTyped, Config.strict.assignable_self _⟩
  | .conditional tested chosen rejected =>
    simp only [Stmt.untag, Scope.checkStmt, Scope.checkTest, except_bind_eq_ok_iff,
      require_eq_ok_iff, decide_eq_true_eq]
    exact ⟨(), ⟨.bool, checkExpr_untag tested, rfl⟩, (), checkStmt_untag chosen,
      checkStmt_untag rejected⟩
  | .loop tested repeated =>
    simp only [Stmt.untag, Scope.checkStmt, Scope.checkTest, except_bind_eq_ok_iff,
      require_eq_ok_iff, decide_eq_true_eq]
    exact ⟨(), ⟨.bool, checkExpr_untag tested, rfl⟩, checkStmt_untag repeated⟩
  | .call found passed =>
    simp only [Stmt.untag, Scope.checkStmt, Scope.checkCall, Scope.checkExpr,
      except_bind_eq_ok_iff, require_eq_ok_iff, Scope.callee_eq_ok_iff, decide_eq_true_eq]
    exact ⟨_, ⟨_, Scope.get?_untag found, (), passed.length_untagAll, (),
      checkArguments_untag passed, rfl⟩, rfl⟩
  | .giveBack given =>
    simp only [Stmt.untag, Scope.checkStmt, except_bind_eq_ok_iff, require_eq_ok_iff,
      decide_eq_true_eq]
    exact ⟨returnTy, checkExpr_untag given, rfl⟩

theorem checkStmts_untag {returnTy : Ty} {body : List (Stmt Ty)}
    (typed : StmtsTyped scope returnTy body) :
    scope.untag.checkStmts .strict returnTy (Stmt.untagAll body) = .ok () := by
  match typed with
  | .nil => rfl
  | .cons head following =>
    simp only [Stmt.untagAll, Scope.checkStmts, except_bind_eq_ok_iff]
    exact ⟨(), checkStmt_untag head, checkStmts_untag following⟩

end

end Checking

section Returns

mutual

theorem Stmt.firstReturn?_untag (stmt : Stmt Ty) : stmt.untag.firstReturn? = stmt.firstReturn? := by
  match stmt with
  | .skip | .assign _ _ | .call _ _ _ | .giveBack _ _ => rfl
  | .block body => exact Stmt.firstReturnOf?_untagAll body
  | .conditional _ thenBranch elseBranch =>
    rw [Stmt.untag, Stmt.firstReturn?, Stmt.firstReturn?, thenBranch.firstReturn?_untag,
      elseBranch.firstReturn?_untag]
  | .loop _ body => exact body.firstReturn?_untag

theorem Stmt.firstReturnOf?_untagAll (body : List (Stmt Ty)) :
    Stmt.firstReturnOf? (Stmt.untagAll body) = Stmt.firstReturnOf? body := by
  match body with
  | [] => rfl
  | first :: rest =>
    rw [Stmt.untagAll, Stmt.firstReturnOf?, Stmt.firstReturnOf?, first.firstReturn?_untag,
      Stmt.firstReturnOf?_untagAll rest]

end

theorem Stmt.map_returnSpan?_untagAll (body : List (Stmt Ty)) :
    (Stmt.untagAll body).map Stmt.returnSpan? = body.map Stmt.returnSpan? := by
  induction body with
  | nil => rfl
  | cons first rest ih =>
    have sameSpan : first.untag.returnSpan? = first.returnSpan? := by
      cases first <;> rfl
    rw [Stmt.untagAll, List.map_cons, List.map_cons, sameSpan, ih]

theorem Function.checkReturns_untag (function : Function Ty) :
    function.untag.checkReturns = function.checkReturns :=
  checkReturns_congr rfl rfl (Stmt.firstReturnOf?_untagAll function.body)
    (Stmt.map_returnSpan?_untagAll function.body)

end Returns

section Specializing

open Recorded SpecializationEvent

variable {scope : Scope Ty}

theorem knownType_gives {name : Ident} {ty : Ty}
    (declared : scope.types.get? name.name = some ty) :
    (scope.untag.knownType name).Gives IsTag ty := by
  have sameTypes : scope.untag.types.get? name.name = some ty := declared
  rw [Scope.knownType, sameTypes]
  exact gives_pure ty

theorem knownReturnType_gives {name : Ident} {function : Function Ty}
    (found : scope.functions.get? name.name = some function) :
    (scope.untag.knownReturnType name).Gives IsTag function.returnTy := by
  rw [Scope.knownReturnType, Scope.get?_untag found]
  exact gives_pure function.returnTy

mutual

/-- The specialization of an expression puts its tags back. -/
theorem specializeExpr_untag {expr : Expr Ty} {ty : Ty} (typed : HasType scope expr ty) :
    (scope.untag.specializeExpr expr.untag).Gives IsTag ⟨expr, ty⟩ := by
  match typed with
  | .literal => exact gives_pure _
  | .var declared =>
    rw [Expr.untag, Scope.specializeExpr]
    exact (knownType_gives declared).bind (gives_pure _)
  | .binary first second accepted =>
    rw [Expr.untag, Scope.specializeExpr]
    refine (specializeExpr_untag first).bind ((specializeExpr_untag second).bind ?_)
    rw [TypedExpr.binary_of_accepts accepted]
    exact gives_single trivial _
  | .unary first accepted =>
    rw [Expr.untag, Scope.specializeExpr]
    refine (specializeExpr_untag first).bind ?_
    rw [TypedExpr.unary_of_accepts accepted]
    exact gives_single trivial _
  | .call found _ passed =>
    rw [Expr.untag, Scope.specializeExpr]
    exact (knownReturnType_gives found).bind ((specializeExprs_untag passed).bind (gives_pure _))

theorem specializeExprs_untag {arguments : List (Expr Ty)} {params : List Declaration}
    (typed : HaveTypes scope arguments params) :
    (scope.untag.specializeExprs (Expr.untagAll arguments)).Gives IsTag arguments := by
  match typed with
  | .nil => exact gives_pure _
  | .cons first rest =>
    rw [Expr.untagAll, Scope.specializeExprs]
    exact (specializeExpr_untag first).bind ((specializeExprs_untag rest).bind (gives_pure _))

end

mutual

theorem specializeStmt_untag {returnTy : Ty} {stmt : Stmt Ty}
    (typed : StmtTyped scope returnTy stmt) :
    (scope.untag.specializeStmt stmt.untag).Gives IsTag stmt := by
  match typed with
  | .skip => exact gives_pure _
  | .block bodyTyped =>
    rw [Stmt.untag, Scope.specializeStmt]
    exact (specializeStmts_untag bodyTyped).bind (gives_pure _)
  | @StmtTyped.assign _ _ _ value ty declared valueTyped =>
    rw [Stmt.untag, Scope.specializeStmt]
    refine (knownType_gives declared).bind ((specializeExpr_untag valueTyped).bind ?_)
    -- The value has the type of its variable already, so there is nothing to convert.
    have coerced := TypedExpr.coerce_self ⟨value, ty⟩
    dsimp only at coerced
    rw [coerced]
    refine (gives_pure _).bind ?_
    rw [if_pos rfl]
    exact gives_pure _
  | .conditional tested chosen rejected =>
    rw [Stmt.untag, Scope.specializeStmt]
    exact (specializeExpr_untag tested).bind ((specializeStmt_untag chosen).bind
      ((specializeStmt_untag rejected).bind (gives_pure _)))
  | .loop tested repeated =>
    rw [Stmt.untag, Scope.specializeStmt]
    exact (specializeExpr_untag tested).bind ((specializeStmt_untag repeated).bind
      (gives_pure _))
  | .call found passed =>
    rw [Stmt.untag, Scope.specializeStmt]
    exact (knownReturnType_gives found).bind ((specializeExprs_untag passed).bind (gives_pure _))
  | .giveBack given =>
    rw [Stmt.untag, Scope.specializeStmt]
    exact (specializeExpr_untag given).bind (gives_pure _)

theorem specializeStmts_untag {returnTy : Ty} {body : List (Stmt Ty)}
    (typed : StmtsTyped scope returnTy body) :
    (scope.untag.specializeStmts (Stmt.untagAll body)).Gives IsTag body := by
  match typed with
  | .nil => exact gives_pure _
  | .cons head following =>
    rw [Stmt.untagAll, Scope.specializeStmts]
    exact (specializeStmt_untag head).bind ((specializeStmts_untag following).bind (gives_pure _))

end

end Specializing

section Programs

open Recorded SpecializationEvent

namespace Definitions

variable {α β ω ε γ : Type}

theorem traverseList_gives {compute : β → Recorded ω ε γ} {rebuild : β → γ → α} {change : α → β}
    {allowed : ω → Prop} {items : List α}
    (each : ∀ item ∈ items, ∃ part, (compute (change item)).Gives allowed part ∧
      rebuild (change item) part = item) :
    (traverseList compute rebuild (items.map change)).Gives allowed items := by
  induction items with
  | nil => exact gives_pure []
  | cons first rest ih =>
    rw [List.forall_mem_cons] at each
    obtain ⟨⟨part, firstGives, rebuilt⟩, restEach⟩ := each
    rw [List.map_cons, traverseList]
    refine firstGives.bind ((ih restEach).bind ?_)
    rw [rebuilt]
    exact gives_pure _

/-- What is rebuilt from changed definitions are the definitions before the change. -/
theorem traverse_gives [Named α] [Named β] {definitions : Definitions α}
    {compute : β → Recorded ω ε γ} {rebuild : β → γ → α} (change : α → β)
    (keepsName : ∀ item part, Named.ident (rebuild item part) = Named.ident item)
    (changeKeepsName : ∀ item, Named.ident (change item) = Named.ident item)
    {allowed : ω → Prop}
    (each : ∀ item ∈ definitions.toList, ∃ part, (compute (change item)).Gives allowed part ∧
      rebuild (change item) part = item) :
    ((definitions.map change changeKeepsName).traverse compute rebuild keepsName).Gives allowed
      definitions := by
  have listGives := traverseList_gives each
  refine ⟨?_, listGives.events⟩
  unfold traverse
  dsimp only
  split
  case _ rebuilt done =>
    have same : rebuilt = definitions.toList :=
      Except.ok.inj (done.symm.trans listGives.outcome)
    exact congrArg Except.ok (ext_toList same)
  case _ error failed => exact absurd (failed.symm.trans listGives.outcome) (by simp)

end Definitions

variable {program : Program Ty}

theorem Program.check_untag (typed : ProgramTyped program)
    (returns : ∀ function ∈ program.functions.toList, function.checkReturns = .ok ())
    (main : ∃ main, program.main? = some main ∧ main.params.isEmpty = true) :
    (program.untag.check .strict).outcome = .ok () := by
  refine check_eq_ok_iff.mpr ⟨?_, fun function member => ?_⟩
  · obtain ⟨main, isMain, noParams⟩ := main
    have found : (Scope.ofProgram program).functions.get? mainName = some main := isMain
    exact ⟨main.untag, Scope.get?_untag found, noParams⟩
  · obtain ⟨original, originalMember, rfl⟩ := List.mem_map.mp member
    refine ⟨?_, checkStmts_untag (typed.body original originalMember)⟩
    rw [Function.checkReturns_untag]
    exact returns original originalMember

theorem Program.specialize_untag (typed : ProgramTyped program) :
    (program.untag.specialize (.ofDeclarations program.untag.globals)).Gives IsTag program := by
  have functionsGive : (program.untag.functions.traverse
      (fun function => (Scope.inFunction program.untag function).specializeStmts function.body)
      Function.withBody fun _ _ => rfl).Gives IsTag program.functions :=
    Definitions.traverse_gives Function.untag _ (fun _ => rfl) fun function member =>
      ⟨function.body, specializeStmts_untag (typed.body function member), rfl⟩
  exact functionsGive.bind (gives_pure _)

/-- A compiled program without its tags keeps the strict rules, and its specialization is the
compiled program again, with no event of an inserted cast. -/
theorem specialize_untag_specialized {config : Config} {source : String} {compiled : Compiled}
    (done : (compile config source).outcome = .ok compiled) :
    (compiled.specialized.untag.check .strict).outcome = .ok () ∧
      (compiled.specialized.untag.specialize
        (.ofDeclarations compiled.specialized.untag.globals)).Gives IsTag
          compiled.specialized := by
  obtain ⟨_, admissible, elaborates⟩ := elaborates_of_compile done
  have typed := typed_of_programElaborates admissible elaborates
  refine ⟨Program.check_untag typed ?_ ?_, Program.specialize_untag typed⟩
  · intro function member
    obtain ⟨source, _, related⟩ := elaborates.source_of_mem member
    exact related.checkReturns
  · obtain ⟨main, isMain, noParams⟩ := elaborates.main
    obtain ⟨body, isMain', _⟩ := elaborates.exists_specialized isMain
    exact ⟨main.withBody body, isMain', noParams⟩

/-- A program in which a float is narrowed, which the strict rules refuse. -/
theorem specialize_untag_specialized_of_narrowing :
    ∃ compiled,
      (compile .standard
        "int n; float x; int main() \x7b x = 2 * 1.5; n = x + int('a'); \x7d").outcome =
          .ok compiled ∧
      (compiled.program.check .strict).outcome.isOk = false ∧
      (compiled.specialized.untag.check .strict).outcome = .ok () ∧
      (compiled.specialized.untag.specialize
        (.ofDeclarations compiled.specialized.untag.globals)).Gives IsTag
          compiled.specialized := by
  have tested : (compile .standard
      "int n; float x; int main() \x7b x = 2 * 1.5; n = x + int('a'); \x7d").outcome.toOption.any
        (fun compiled => !(compiled.program.check .strict).outcome.isOk) = true := by
    decide +kernel
  obtain ⟨compiled, done, refused⟩ := exists_compiled tested
  rw [Bool.not_eq_true'] at refused
  exact ⟨compiled, done, refused, specialize_untag_specialized done⟩

end Programs

end TypedImp
