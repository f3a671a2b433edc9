import TypedImp.Proofs.Alignment.Basic
import TypedImp.Proofs.Typing.Checking

/-!
# Checking the same program at other places

The typing rules look names up and compare types.  In scopes where every name stands for
the same they accept the same syntax, and they refuse it for the same rule at places that
correspond.
-/

namespace TypedImp

/-- What holds of all definitions holds of the definition of each name. -/
theorem Definitions.forall_mem_iff {α : Type} [Named α] {definitions : Definitions α}
    {holds : α → Prop} :
    (∀ definition ∈ definitions.toList, holds definition) ↔
      ∀ name definition, definitions.get? name = some definition → holds definition := by
  simp only [Definitions.get?_eq_some_iff]
  exact ⟨fun all _ definition found => all definition found.1,
    fun all definition member => all _ definition ⟨member, rfl⟩⟩

namespace Alignment

variable (alignment : Alignment) {τ : Type}

/-- One broken rule.  That `main` is missing is no rule of a place. -/
def SameRule (first second : TypeError) : Prop :=
  first = second ∧ first ≠ .missingMain

/-- One broken typing rule at two places. -/
abbrev SameTypeError : Spanned TypeError → Spanned TypeError → Prop :=
  alignment.SameFound SameRule

/-- Why two programs are refused: one rule broken at two places, or no `main` in either. -/
inductive SameRejection : Spanned TypeError → Spanned TypeError → Prop where
  | broken {error error' : Spanned TypeError} (same : alignment.SameTypeError error error') :
      SameRejection error error'
  | missingMain : SameRejection ⟨.emptyAt 0, .missingMain⟩ ⟨.emptyAt 0, .missingMain⟩

variable {alignment} {scope scope' : Scope τ}

theorem endAlike_require (kept : Bool) {span span' : Span}
    (spans : alignment.spans span span') {error : TypeError} (isRule : error ≠ .missingMain) :
    EndAlike alignment.SameTypeError Eq (require kept span error) (require kept span' error) := by
  cases kept with
  | true => exact .ok rfl
  | false => exact .error ⟨spans, rfl, isRule⟩

theorem SameScope.variableType (scopes : alignment.SameScope scope scope') {name name' : Ident}
    (names : alignment.SameIdent name name') :
    EndAlike alignment.SameTypeError Eq (scope.variableType name) (scope'.variableType name') := by
  unfold Scope.variableType
  rw [← names.name, ← scopes.types]
  split
  · exact .ok rfl
  · exact .error ⟨names.span, rfl, nofun⟩

theorem SameScope.callee (scopes : alignment.SameScope scope scope') {name name' : Ident}
    (names : alignment.SameIdent name name') :
    EndAlike alignment.SameTypeError alignment.SameFunction (scope.callee name)
      (scope'.callee name') := by
  have found := scopes.functions name.name
  unfold Scope.callee
  rw [← names.name]
  generalize scope.functions.get? name.name = function,
    scope'.functions.get? name.name = function' at found
  cases found with
  | none => exact .error ⟨names.span, rfl, nofun⟩
  | some functions => exact .ok functions

section Expressions

theorem SameExprs.length_eq {arguments arguments' : List (Expr τ)}
    (same : alignment.SameExprs arguments arguments') : arguments.length = arguments'.length := by
  induction arguments generalizing arguments' with
  | nil =>
    cases same
    rfl
  | cons argument rest ih =>
    cases same with
    | cons _ following => rw [List.length_cons, List.length_cons, ih following]

mutual

theorem SameExpr.checkExpr {expr expr' : Expr τ} (same : alignment.SameExpr expr expr')
    (scopes : alignment.SameScope scope scope') :
    EndAlike alignment.SameTypeError Eq (scope.checkExpr expr) (scope'.checkExpr expr') := by
  match same with
  | .literal value _ => exact .ok rfl
  | .var names _ =>
    simp only [Scope.checkExpr]
    exact scopes.variableType names
  | .binary op _ first second spans =>
    simp only [Scope.checkExpr]
    apply (first.checkExpr scopes).bind
    rintro left _ rfl
    apply (second.checkExpr scopes).bind
    rintro right _ rfl
    refine EndAlike.bind (endAlike_require _ spans ?_) ?_
    · nofun
    · exact fun _ _ _ => .ok rfl
  | .unary op _ inner spans =>
    simp only [Scope.checkExpr]
    apply (inner.checkExpr scopes).bind
    rintro ty _ rfl
    refine EndAlike.bind (endAlike_require _ spans ?_) ?_
    · nofun
    · exact fun _ _ _ => .ok rfl
  | .call callees passed callSpans _ =>
    simp only [Scope.checkExpr]
    apply (scopes.callee callees).bind
    intro function function' functions
    rw [← callees.name, ← passed.length_eq, ← functions.params.length_eq]
    refine EndAlike.bind (endAlike_require _ callSpans ?_) fun _ _ _ => ?_
    · nofun
    apply (passed.checkArguments scopes functions.params).bind
    intro _ _ _
    exact .ok functions.returnTy

theorem SameExprs.checkArguments {arguments arguments' : List (Expr τ)}
    (same : alignment.SameExprs arguments arguments')
    (scopes : alignment.SameScope scope scope') {params params' : List Declaration}
    (sameParams : List.Forall₂ alignment.SameDeclaration params params') :
    EndAlike alignment.SameTypeError Eq (scope.checkArguments arguments params)
      (scope'.checkArguments arguments' params') := by
  match same, sameParams with
  | .nil, _ =>
    simp only [Scope.checkArguments]
    exact .ok rfl
  | .cons _ _, .nil =>
    simp only [Scope.checkArguments]
    exact .ok rfl
  | .cons head following, .cons param others =>
    simp only [Scope.checkArguments]
    apply (head.checkExpr scopes).bind
    rintro actual _ rfl
    rw [← param.ty, ← param.name.name]
    refine EndAlike.bind (endAlike_require _ head.span ?_) fun _ _ _ => ?_
    · nofun
    exact following.checkArguments scopes others

end

theorem SameExpr.checkTest {test test' : Expr τ} (same : alignment.SameExpr test test')
    (scopes : alignment.SameScope scope scope') :
    EndAlike alignment.SameTypeError Eq (scope.checkTest test) (scope'.checkTest test') := by
  unfold Scope.checkTest
  apply (same.checkExpr scopes).bind
  rintro actual _ rfl
  exact endAlike_require _ same.span nofun

end Expressions

section Statements

mutual

theorem SameStmt.checkStmt {stmt stmt' : Stmt τ} (same : alignment.SameStmt stmt stmt')
    (scopes : alignment.SameScope scope scope') (config : Config) (returnTy : Ty) :
    EndAlike alignment.SameTypeError Eq (scope.checkStmt config returnTy stmt)
      (scope'.checkStmt config returnTy stmt') := by
  match same with
  | .skip => exact .ok rfl
  | .block inner =>
    simp only [Scope.checkStmt]
    exact inner.checkStmts scopes config returnTy
  | .assign targets values =>
    simp only [Scope.checkStmt]
    apply (scopes.variableType targets).bind
    rintro declared _ rfl
    apply (values.checkExpr scopes).bind
    rintro assigned _ rfl
    rw [← targets.name]
    exact endAlike_require _ (alignment.cover targets.span values.span) nofun
  | .conditional tests chosen rejected =>
    simp only [Scope.checkStmt]
    apply (tests.checkTest scopes).bind
    intro _ _ _
    apply (chosen.checkStmt scopes config returnTy).bind
    intro _ _ _
    exact rejected.checkStmt scopes config returnTy
  | .loop tests inner =>
    simp only [Scope.checkStmt]
    apply (tests.checkTest scopes).bind
    intro _ _ _
    exact inner.checkStmt scopes config returnTy
  | .call callees passed spans =>
    have called : alignment.SameExpr _ _ := .call callees passed spans spans
    simp only [Scope.checkStmt, Scope.checkCall]
    apply (called.checkExpr scopes).bind
    intro _ _ _
    exact .ok rfl
  | .giveBack values _ =>
    simp only [Scope.checkStmt]
    apply (values.checkExpr scopes).bind
    rintro actual _ rfl
    exact endAlike_require _ values.span nofun

theorem SameStmts.checkStmts {body body' : List (Stmt τ)}
    (same : alignment.SameStmts body body') (scopes : alignment.SameScope scope scope')
    (config : Config) (returnTy : Ty) :
    EndAlike alignment.SameTypeError Eq (scope.checkStmts config returnTy body)
      (scope'.checkStmts config returnTy body') := by
  match same with
  | .nil => exact .ok rfl
  | .cons head following =>
    simp only [Scope.checkStmts]
    apply (head.checkStmt scopes config returnTy).bind
    intro _ _ _
    exact following.checkStmts scopes config returnTy

end

end Statements

section Returns

theorem rel_or {α β : Type} {related : α → β → Prop} {first other : Option α}
    {first' other' : Option β} (firsts : Option.Rel related first first')
    (others : Option.Rel related other other') :
    Option.Rel related (first.or other) (first'.or other') := by
  cases firsts with
  | none => exact others
  | some same => exact .some same

mutual

theorem SameStmt.firstReturn? {stmt stmt' : Stmt τ} (same : alignment.SameStmt stmt stmt') :
    Option.Rel alignment.spans stmt.firstReturn? stmt'.firstReturn? := by
  match same with
  | .skip | .assign _ _ | .call _ _ _ => exact .none
  | .block inner => exact inner.firstReturnOf?
  | .conditional _ chosen rejected => exact rel_or chosen.firstReturn? rejected.firstReturn?
  | .loop _ inner => exact inner.firstReturn?
  | .giveBack _ spans => exact .some spans

theorem SameStmts.firstReturnOf? {body body' : List (Stmt τ)}
    (same : alignment.SameStmts body body') :
    Option.Rel alignment.spans (Stmt.firstReturnOf? body) (Stmt.firstReturnOf? body') := by
  match same with
  | .nil => exact .none
  | .cons head following => exact rel_or head.firstReturn? following.firstReturnOf?

end

theorem SameStmt.returnSpan? {stmt stmt' : Stmt τ} (same : alignment.SameStmt stmt stmt') :
    Option.Rel alignment.spans stmt.returnSpan? stmt'.returnSpan? := by
  cases same with
  | giveBack _ spans => exact .some spans
  | _ => exact .none

theorem SameStmts.returnSpans {body body' : List (Stmt τ)}
    (same : alignment.SameStmts body body') :
    List.Forall₂ alignment.spans (body.filterMap Stmt.returnSpan?)
      (body'.filterMap Stmt.returnSpan?) := by
  match body, body', same with
  | [], [], .nil => exact .nil
  | first :: rest, first' :: rest', .cons head following =>
    have here := head.returnSpan?
    rw [List.filterMap_cons, List.filterMap_cons]
    generalize first.returnSpan? = span, first'.returnSpan? = span' at here
    cases here with
    | none => exact following.returnSpans
    | some spans => exact .cons spans following.returnSpans

theorem SameStmts.isSome_last {body body' : List (Stmt τ)}
    (same : alignment.SameStmts body body') :
    (body.getLast?.bind Stmt.returnSpan?).isSome =
      (body'.getLast?.bind Stmt.returnSpan?).isSome := by
  match body, body', same with
  | [], [], .nil => rfl
  | [last], [last'], .cons head .nil =>
    have here := head.returnSpan?
    simp only [List.getLast?_singleton, Option.bind_some]
    generalize last.returnSpan? = span, last'.returnSpan? = span' at here
    cases here <;> rfl
  | _ :: second :: rest, _ :: second' :: rest', .cons _ following =>
    rw [List.getLast?_cons_cons, List.getLast?_cons_cons]
    exact following.isSome_last

theorem SameFunction.checkReturns {function function' : Function τ}
    (same : alignment.SameFunction function function') :
    EndAlike alignment.SameTypeError Eq function.checkReturns function'.checkReturns := by
  unfold Function.checkReturns
  rw [← same.name.name, ← same.returnTy]
  dsimp only
  split
  case isTrue =>
    have first := same.body.firstReturnOf?
    generalize Stmt.firstReturnOf? function.body = span,
      Stmt.firstReturnOf? function'.body = span' at first
    cases first with
    | none => exact .ok rfl
    | some spans => exact .error ⟨spans, rfl, nofun⟩
  case isFalse =>
    rw [← same.body.isSome_last]
    have all := same.body.returnSpans
    generalize function.body.filterMap Stmt.returnSpan? = spans,
      function'.body.filterMap Stmt.returnSpan? = spans' at all
    cases all with
    | nil => exact endAlike_require _ same.name.span nofun
    | cons first others =>
      cases others with
      | nil => exact endAlike_require _ first nofun
      | cons second _ => exact .error ⟨second, rfl, nofun⟩

end Returns

section Programs

variable {program program' : Program τ}

theorem SameFunction.isEmpty_params {function function' : Function τ}
    (same : alignment.SameFunction function function') :
    function.params.isEmpty = function'.params.isEmpty := by
  have listed : List.Forall₂ alignment.SameDeclaration function.params.toList
      function'.params.toList := same.params
  unfold Definitions.isEmpty
  generalize function.params.toList = params, function'.params.toList = params' at listed ⊢
  cases listed <;> rfl

theorem SameNames.checkFunction (same : alignment.SameNames program program') (config : Config)
    {function function' : Function τ} (functions : alignment.SameFunction function function') :
    Recorded.Alike alignment.SameTypeError Eq (function.check config program)
      (function'.check config program') := by
  unfold Function.check
  rw [← functions.name.name, ← functions.returnTy]
  apply (Recorded.Alike.record _).bind
  intro _ _ _
  apply (Recorded.Alike.ofExcept functions.checkReturns).bind
  intro _ _ _
  have body := functions.body.checkStmts (same.inFunction functions) config function.returnTy
  exact .ofExcept body

theorem SameNames.checkFunctions (same : alignment.SameNames program program') (config : Config)
    {functions functions' : List (Function τ)}
    (listed : List.Forall₂ alignment.SameListing functions functions') :
    Recorded.Alike alignment.SameTypeError Eq (program.checkFunctions config functions)
      (program'.checkFunctions config functions') := by
  induction listed with
  | nil => exact .value rfl
  | cons head _ ih =>
    simp only [Program.checkFunctions]
    apply (same.checkFunction config head.toSameFunction).bind
    intro _ _ _
    exact ih

/-- The rules are kept or broken whatever the order of the definitions. -/
theorem SameNames.check_iff (same : alignment.SameNames program program') (config : Config) :
    (program.check config).outcome = .ok () ↔ (program'.check config).outcome = .ok () := by
  rw [Program.check_eq_ok_iff, Program.check_eq_ok_iff, Definitions.forall_mem_iff,
    Definitions.forall_mem_iff]
  refine and_congr ?_ (forall_congr' fun name => ?_)
  · have isMain := same.functions Program.mainName
    unfold Program.main?
    generalize program.functions.get? Program.mainName = main,
      program'.functions.get? Program.mainName = main' at isMain
    cases isMain with
    | none => rfl
    | some mains => simp [mains.isEmpty_params]
  · have found := same.functions name
    generalize program.functions.get? name = function,
      program'.functions.get? name = function' at found
    cases found with
    | none => simp
    | @some function function' functions =>
      have body := functions.body.checkStmts (same.inFunction functions) config function.returnTy
      simp only [Option.some.injEq, forall_eq']
      rw [functions.checkReturns.eq_ok_iff, body.eq_ok_iff, functions.returnTy]

/-- The same program is accepted, or refused for the same broken rule. -/
theorem SameProgram.check (same : alignment.SameProgram program program') (config : Config) :
    Recorded.Alike alignment.SameRejection Eq (program.check config) (program'.check config) := by
  have isMain := same.sameNames.functions Program.mainName
  unfold Program.check Program.main?
  generalize program.functions.get? Program.mainName = main,
    program'.functions.get? Program.mainName = main' at isMain
  cases isMain with
  | none => exact .fail .missingMain
  | @some main main' mains =>
    dsimp only
    rw [← mains.isEmpty_params]
    split
    case isTrue =>
      obtain ⟨events, outcome⟩ := same.sameNames.checkFunctions config same.functions
      exact ⟨events, outcome.imp_error fun _ _ => .broken⟩
    case isFalse => exact .fail (.broken ⟨mains.name.span, rfl, nofun⟩)

end Programs

end Alignment

end TypedImp
