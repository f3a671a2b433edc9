import TypedImp.Proofs.Alignment.Basic
import TypedImp.Specialization.Program

/-!
# Specializing the same program at other places

The specialization chooses tags and casts by types.  In scopes where every name stands
for the same it gives the same syntax the same tags and casts; an inserted cast has the
span of its operand, so its spans correspond too.
-/

namespace TypedImp

namespace Definitions

variable {α β ω ε γ : Type} [Named α] [Named β]

/-- Traversals of related definitions with related computations are alike. -/
theorem alike_traverse {errors : ε → ε → Prop} {related : α → α → Prop} {final : β → β → Prop}
    {parts : γ → γ → Prop} {compute compute' : α → Recorded ω ε γ} {rebuild : α → γ → β}
    (computes : ∀ item item', related item item' →
      Recorded.Alike errors parts (compute item) (compute' item'))
    (rebuilds : ∀ item item' part part', related item item' → parts part part' →
      final (rebuild item part) (rebuild item' part'))
    (keepsName : ∀ item part, Named.ident (rebuild item part) = Named.ident item)
    {definitions definitions' : Definitions α}
    (same : List.Forall₂ related definitions.toList definitions'.toList) :
    Recorded.Alike errors
      (fun rebuilt rebuilt' => List.Forall₂ final rebuilt.toList rebuilt'.toList)
      (definitions.traverse compute rebuild keepsName)
      (definitions'.traverse compute' rebuild keepsName) := by
  have alikeList {items items' : List α} (same : List.Forall₂ related items items') :
      Recorded.Alike errors (List.Forall₂ final) (traverseList compute rebuild items)
        (traverseList compute' rebuild items') := by
    induction same with
    | nil => exact .value .nil
    | cons head _ ih =>
      simp only [traverseList]
      apply (computes _ _ head).bind
      intro part part' sameParts
      apply ih.bind
      intro following following' others
      exact .value (.cons (rebuilds _ _ _ _ head sameParts) others)
  obtain ⟨events, outcome⟩ := alikeList same
  refine ⟨events, ?_⟩
  unfold traverse
  dsimp only
  split
  case _ rebuilt done =>
    split
    case _ rebuilt' done' =>
      rw [done, done'] at outcome
      cases outcome with
      | ok listed => exact .ok listed
    case _ error' failed' =>
      rw [done, failed'] at outcome
      cases outcome
  case _ error failed =>
    split
    case _ rebuilt' done' =>
      rw [failed, done'] at outcome
      cases outcome
    case _ error' failed' =>
      rw [failed, failed'] at outcome
      cases outcome with
      | error errors => exact .error errors

/-- What a traversal gives is rebuilt from what it computed, item by item. -/
theorem forall₂_of_traverse {compute : α → Recorded ω ε γ} {rebuild : α → γ → β}
    {keepsName : ∀ item part, Named.ident (rebuild item part) = Named.ident item}
    {definitions : Definitions α} {rebuilt : Definitions β}
    (done : (definitions.traverse compute rebuild keepsName).outcome = .ok rebuilt) :
    List.Forall₂ (fun item result =>
        ∃ part, (compute item).outcome = .ok part ∧ result = rebuild item part)
      definitions.toList rebuilt.toList := by
  have eachItem {items : List α} {results : List β}
      (done : (traverseList compute rebuild items).outcome = .ok results) :
      List.Forall₂ (fun item result =>
        ∃ part, (compute item).outcome = .ok part ∧ result = rebuild item part) items results := by
    induction items generalizing results with
    | nil =>
      cases done
      exact .nil
    | cons first rest ih =>
      obtain ⟨part, computed, remaining⟩ := Recorded.bind_outcome_eq_ok_iff.mp done
      obtain ⟨following, followingDone, final⟩ := Recorded.bind_outcome_eq_ok_iff.mp remaining
      cases final
      exact .cons ⟨part, computed, rfl⟩ (ih followingDone)
  unfold traverse at done
  dsimp only at done
  split at done
  case _ results listDone =>
    cases done
    exact eachItem listDone
  case _ => cases done

end Definitions

namespace Alignment

variable (alignment : Alignment)

/-- One specialization error at two places. -/
abbrev SameSpecializationError :
    Spanned SpecializationError → Spanned SpecializationError → Prop :=
  alignment.SameFound Eq

/-- One specialized expression at two places, with its type. -/
structure SameTyped (first second : TypedExpr) : Prop where
  expr : alignment.SameExpr first.expr second.expr
  ty : first.ty = second.ty

/-- Steps of the specialization that report the same and end alike. -/
abbrev SameStep {α β : Type} (related : α → β → Prop) :
    Specializing α → Specializing β → Prop :=
  Recorded.Alike alignment.SameSpecializationError related

variable {alignment}

section TypedExprs

variable {lhs lhs' rhs rhs' operand operand' : TypedExpr}

theorem SameTyped.insertFloatCast (same : alignment.SameTyped operand operand') :
    alignment.SameStep alignment.SameTyped operand.insertFloatCast operand'.insertFloatCast := by
  apply (Recorded.Alike.record _).bind
  intro _ _ _
  exact .value ⟨.unary _ _ same.expr same.expr.span, rfl⟩

theorem SameTyped.insertIntCast (same : alignment.SameTyped operand operand') :
    alignment.SameStep alignment.SameTyped operand.insertIntCast operand'.insertIntCast := by
  unfold TypedExpr.insertIntCast
  rw [← same.ty]
  apply (Recorded.Alike.record _).bind
  intro _ _ _
  exact .value ⟨.unary _ _ same.expr same.expr.span, rfl⟩

/-- Both expressions of two pairs are the same. -/
abbrev SamePair (alignment : Alignment) (first second : TypedExpr × TypedExpr) : Prop :=
  alignment.SameTyped first.1 second.1 ∧ alignment.SameTyped first.2 second.2

theorem SameTyped.balance (first : alignment.SameTyped lhs lhs')
    (second : alignment.SameTyped rhs rhs') :
    alignment.SameStep alignment.SamePair (lhs.balance rhs) (lhs'.balance rhs') := by
  unfold TypedExpr.balance
  rw [← first.ty, ← second.ty]
  split
  · exact first.insertFloatCast.bind fun _ _ cast => .value ⟨cast, second⟩
  · exact second.insertFloatCast.bind fun _ _ cast => .value ⟨first, cast⟩
  · exact .value ⟨first, second⟩

theorem SameTyped.coerce (same : alignment.SameTyped operand operand') (declared : Ty) :
    alignment.SameStep alignment.SameTyped (TypedExpr.coerce declared operand)
      (TypedExpr.coerce declared operand') := by
  unfold TypedExpr.coerce
  rw [← same.ty]
  split
  · exact same.insertFloatCast
  · exact same.insertIntCast
  · exact same.insertIntCast
  · exact .value same

theorem SameTyped.binary (op : BinaryOperator) (first : alignment.SameTyped lhs lhs')
    (second : alignment.SameTyped rhs rhs') {span span' : Span}
    (spans : alignment.spans span span') :
    alignment.SameStep alignment.SameTyped (TypedExpr.binary op lhs rhs span)
      (TypedExpr.binary op lhs' rhs' span') := by
  -- The tag is the type of the left operand once the two are balanced.
  have tagged {tag tag' : Ty} (tags : tag = tag') {lhs lhs' rhs rhs' : TypedExpr}
      (first : alignment.SameTyped lhs lhs') (second : alignment.SameTyped rhs rhs') :
      alignment.SameStep alignment.SameTyped
        (do
          Recorded.record (.binary op tag)
          return ⟨.binary op tag lhs.expr rhs.expr span, op.resultType lhs.ty rhs.ty⟩)
        (do
          Recorded.record (.binary op tag')
          return ⟨.binary op tag' lhs'.expr rhs'.expr span', op.resultType lhs'.ty rhs'.ty⟩) := by
    rw [← first.ty, ← second.ty, ← tags]
    apply (Recorded.Alike.record _).bind
    intro _ _ _
    exact .value ⟨.binary op tag first.expr second.expr spans, rfl⟩
  unfold TypedExpr.binary
  split
  · exact tagged rfl first second
  · apply (first.balance second).bind
    rintro ⟨lhs, rhs⟩ ⟨lhs', rhs'⟩ ⟨first, second⟩
    exact tagged first.ty first second

theorem SameTyped.unary (op : UnaryOperator) (same : alignment.SameTyped operand operand')
    {span span' : Span} (spans : alignment.spans span span') :
    alignment.SameStep alignment.SameTyped (TypedExpr.unary op operand span)
      (TypedExpr.unary op operand' span') := by
  unfold TypedExpr.unary
  rw [← same.ty]
  apply (Recorded.Alike.record _).bind
  intro _ _ _
  exact .value ⟨.unary op _ same.expr spans, rfl⟩

end TypedExprs

section Syntax

variable {scope scope' : Scope Unit}

theorem SameScope.knownType (scopes : alignment.SameScope scope scope') {name name' : Ident}
    (names : alignment.SameIdent name name') :
    alignment.SameStep Eq (scope.knownType name) (scope'.knownType name') := by
  unfold Scope.knownType
  rw [← names.name, ← scopes.types]
  split
  · exact .value rfl
  · exact .fail ⟨names.span, rfl⟩

theorem SameScope.knownReturnType (scopes : alignment.SameScope scope scope')
    {name name' : Ident} (names : alignment.SameIdent name name') :
    alignment.SameStep Eq (scope.knownReturnType name) (scope'.knownReturnType name') := by
  have found := scopes.functions name.name
  unfold Scope.knownReturnType
  rw [← names.name]
  generalize scope.functions.get? name.name = function,
    scope'.functions.get? name.name = function' at found
  cases found with
  | none => exact .fail ⟨names.span, rfl⟩
  | some functions => exact .value functions.returnTy

mutual

theorem SameExpr.specializeExpr {expr expr' : Expr Unit} (same : alignment.SameExpr expr expr')
    (scopes : alignment.SameScope scope scope') :
    alignment.SameStep alignment.SameTyped (scope.specializeExpr expr)
      (scope'.specializeExpr expr') := by
  match same with
  | .literal value spans => exact .value ⟨.literal value spans, rfl⟩
  | .var names spans =>
    simp only [Scope.specializeExpr]
    apply (scopes.knownType names).bind
    rintro ty _ rfl
    exact .value ⟨.var names spans, rfl⟩
  | .binary op _ first second spans =>
    simp only [Scope.specializeExpr]
    apply (first.specializeExpr scopes).bind
    intro left left' lefts
    apply (second.specializeExpr scopes).bind
    intro right right' rights
    exact lefts.binary op rights spans
  | .unary op _ inner spans =>
    simp only [Scope.specializeExpr]
    apply (inner.specializeExpr scopes).bind
    intro operand operand' operands
    exact operands.unary op spans
  | .call callees passed callSpans spans =>
    simp only [Scope.specializeExpr]
    apply (scopes.knownReturnType callees).bind
    rintro ty _ rfl
    apply (passed.specializeExprs scopes).bind
    intro specialized specialized' arguments
    exact .value ⟨.call callees arguments callSpans spans, rfl⟩

theorem SameExprs.specializeExprs {exprs exprs' : List (Expr Unit)}
    (same : alignment.SameExprs exprs exprs') (scopes : alignment.SameScope scope scope') :
    alignment.SameStep alignment.SameExprs (scope.specializeExprs exprs)
      (scope'.specializeExprs exprs') := by
  match same with
  | .nil => exact .value .nil
  | .cons head following =>
    simp only [Scope.specializeExprs]
    apply (head.specializeExpr scopes).bind
    intro first first' firsts
    apply (following.specializeExprs scopes).bind
    intro rest rest' others
    exact .value (.cons firsts.expr others)

end

mutual

theorem SameStmt.specializeStmt {stmt stmt' : Stmt Unit} (same : alignment.SameStmt stmt stmt')
    (scopes : alignment.SameScope scope scope') :
    alignment.SameStep alignment.SameStmt (scope.specializeStmt stmt)
      (scope'.specializeStmt stmt') := by
  match same with
  | .skip => exact .value .skip
  | .block inner =>
    simp only [Scope.specializeStmt]
    apply (inner.specializeStmts scopes).bind
    intro body body' bodies
    exact .value (.block bodies)
  | .assign targets values =>
    simp only [Scope.specializeStmt]
    apply (scopes.knownType targets).bind
    rintro declared _ rfl
    apply (values.specializeExpr scopes).bind
    intro plain plain' plains
    apply (plains.coerce declared).bind
    intro coerced coerced' sameCoerced
    rw [← sameCoerced.ty, ← targets.name]
    split
    · exact .value (.assign targets sameCoerced.expr)
    · exact .fail ⟨alignment.cover targets.span sameCoerced.expr.span, rfl⟩
  | .conditional tests chosen rejected =>
    simp only [Scope.specializeStmt]
    apply (tests.specializeExpr scopes).bind
    intro test test' sameTest
    apply (chosen.specializeStmt scopes).bind
    intro thenBranch thenBranch' thenBranches
    apply (rejected.specializeStmt scopes).bind
    intro elseBranch elseBranch' elseBranches
    exact .value (.conditional sameTest.expr thenBranches elseBranches)
  | .loop tests inner =>
    simp only [Scope.specializeStmt]
    apply (tests.specializeExpr scopes).bind
    intro test test' sameTest
    apply (inner.specializeStmt scopes).bind
    intro body body' bodies
    exact .value (.loop sameTest.expr bodies)
  | .call callees passed spans =>
    simp only [Scope.specializeStmt]
    apply (scopes.knownReturnType callees).bind
    intro _ _ _
    apply (passed.specializeExprs scopes).bind
    intro specialized specialized' arguments
    exact .value (.call callees arguments spans)
  | .giveBack values spans =>
    simp only [Scope.specializeStmt]
    apply (values.specializeExpr scopes).bind
    intro value value' sameValue
    exact .value (.giveBack sameValue.expr spans)

theorem SameStmts.specializeStmts {body body' : List (Stmt Unit)}
    (same : alignment.SameStmts body body') (scopes : alignment.SameScope scope scope') :
    alignment.SameStep alignment.SameStmts (scope.specializeStmts body)
      (scope'.specializeStmts body') := by
  match same with
  | .nil => exact .value .nil
  | .cons head following =>
    simp only [Scope.specializeStmts]
    apply (head.specializeStmt scopes).bind
    intro first first' firsts
    apply (following.specializeStmts scopes).bind
    intro rest rest' others
    exact .value (.cons firsts others)

end

end Syntax

section Programs

variable {program program' : Program Unit}

theorem SameFunction.withBody {function function' : Function Unit}
    (same : alignment.SameFunction function function') {body body' : List (Stmt Ty)}
    (bodies : alignment.SameStmts body body') :
    alignment.SameFunction (function.withBody body) (function'.withBody body') :=
  ⟨same.returnTy, same.name, same.params, same.locals, bodies⟩

theorem SameNames.specializeBody (same : alignment.SameNames program program')
    {function function' : Function Unit} (functions : alignment.SameFunction function function')
    (globals : TypeMap) :
    alignment.SameStep alignment.SameStmts
      (Scope.specializeStmts ⟨program.functions, globals.inFunction function⟩ function.body)
      (Scope.specializeStmts ⟨program'.functions, globals.inFunction function'⟩
        function'.body) :=
  functions.body.specializeStmts ⟨functions.inFunction globals, same.functions⟩

/-- The same program is specialized alike. -/
theorem SameProgram.specialize (same : alignment.SameProgram program program')
    (globals : TypeMap) :
    alignment.SameStep alignment.SameProgram (program.specialize globals)
      (program'.specialize globals) := by
  have bodies (function function' : Function Unit)
      (listing : alignment.SameListing function function') :=
    same.sameNames.specializeBody listing.toSameFunction globals
  have rebuilds (function function' : Function Unit) (body body' : List (Stmt Ty))
      (listing : alignment.SameListing function function')
      (sameBody : alignment.SameStmts body body') :
      alignment.SameListing (function.withBody body) (function'.withBody body') :=
    ⟨listing.toSameFunction.withBody sameBody, listing.order⟩
  apply (Definitions.alike_traverse bodies rebuilds (fun _ _ => rfl) same.functions).bind
  intro functions functions' listed
  exact .value ⟨same.globals, listed⟩

/-- Programs in which every name stands for the same keep that when they are specialized. -/
theorem SameNames.specialized (same : alignment.SameNames program program') {globals : TypeMap}
    {specialized specialized' : Program Ty}
    (done : (program.specialize globals).outcome = .ok specialized)
    (done' : (program'.specialize globals).outcome = .ok specialized') :
    alignment.SameNames specialized specialized' := by
  obtain ⟨functions, traversed, final⟩ := Recorded.bind_outcome_eq_ok_iff.mp done
  obtain ⟨functions', traversed', final'⟩ := Recorded.bind_outcome_eq_ok_iff.mp done'
  cases final
  cases final'
  refine ⟨same.globals, fun name => ?_⟩
  have found := same.functions name
  have result := Definitions.rel_get? (Definitions.forall₂_of_traverse traversed)
    (fun _ _ ⟨_, _, rebuilt⟩ => rebuilt ▸ rfl) name
  have result' := Definitions.rel_get? (Definitions.forall₂_of_traverse traversed')
    (fun _ _ ⟨_, _, rebuilt⟩ => rebuilt ▸ rfl) name
  generalize program.functions.get? name = function?,
    program'.functions.get? name = function'? at found result result'
  dsimp only
  generalize functions.get? name = specialized?, functions'.get? name = specialized'?
    at result result'
  cases found with
  | none =>
    cases result
    cases result'
    exact .none
  | @some function function' functions =>
    cases result with
    | some rebuilt =>
    cases result' with
    | some rebuilt' =>
    obtain ⟨body, computed, rfl⟩ := rebuilt
    obtain ⟨body', computed', rfl⟩ := rebuilt'
    have bodies := (same.specializeBody functions globals).outcome
    rw [computed, computed'] at bodies
    cases bodies with
    | ok bodies => exact .some (functions.withBody bodies)

end Programs

end Alignment

end TypedImp
