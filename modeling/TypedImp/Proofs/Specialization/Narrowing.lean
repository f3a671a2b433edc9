import TypedImp.Proofs.Compilation
import TypedImp.Proofs.Typing.Narrowing

/-!
# Casts from float to integer

A specialized program casts a float to an integer where the source does, and where a
narrowing assignment was made explicit.  Under the strict rules there are no narrowing
assignments, and all these casts are written in the source.
-/

namespace TypedImp

namespace Recorded

variable {ω ε α β : Type}

/-- All events of a computation have a property, whether it succeeds or not. -/
def Only (allowed : ω → Prop) (computation : Recorded ω ε α) : Prop :=
  ∀ event ∈ computation.events, allowed event

variable {allowed : ω → Prop}

theorem only_nil (outcome : Except ε α) : Only allowed (⟨[], outcome⟩ : Recorded ω ε α) :=
  nofun

theorem only_single {event : ω} (isAllowed : allowed event) (outcome : Except ε α) :
    Only allowed (⟨[event], outcome⟩ : Recorded ω ε α) := by
  intro other member
  obtain rfl := List.mem_singleton.mp member
  exact isAllowed

theorem Only.bind {first : Recorded ω ε α} {next : α → Recorded ω ε β}
    (firstOnly : first.Only allowed)
    (nextOnly : ∀ middle, first.outcome = .ok middle → (next middle).Only allowed) :
    (first >>= next).Only allowed := by
  obtain ⟨events, outcome⟩ := first
  cases outcome with
  | error error => exact firstOnly
  | ok middle =>
    rw [mk_ok_bind]
    intro event member
    rcases List.mem_append.mp member with inFirst | inNext
    · exact firstOnly event inFirst
    · exact nextOnly middle rfl event inNext

end Recorded

/-- An event that is not the insertion of a cast from float to integer. -/
def SpecializationEvent.IsNotNarrowing (event : SpecializationEvent) : Prop :=
  event ≠ .intCast .float

section Casts

variable {τ : Type} (selects : UnaryOperator → τ → Bool)

mutual

/-- The spans of the selected unary operators in an expression, the operand of each before
it. -/
def Expr.spansOf : Expr τ → List Span
  | .literal _ _ | .var _ _ => []
  | .binary _ _ lhs rhs _ => lhs.spansOf ++ rhs.spansOf
  | .unary op tag operand span =>
    operand.spansOf ++ if selects op tag then [span] else []
  | .call _ arguments _ _ => Expr.spansOfAll arguments

def Expr.spansOfAll : List (Expr τ) → List Span
  | [] => []
  | first :: rest => first.spansOf ++ Expr.spansOfAll rest

end

mutual

/-- The spans of the selected unary operators in a statement, in source order. -/
def Stmt.spansOf : Stmt τ → List Span
  | .skip => []
  | .block body => Stmt.spansOfAll body
  | .assign _ value | .giveBack value _ => value.spansOf selects
  | .conditional test thenBranch elseBranch =>
    test.spansOf selects ++ thenBranch.spansOf ++ elseBranch.spansOf
  | .loop test body => test.spansOf selects ++ body.spansOf
  | .call _ arguments _ => Expr.spansOfAll selects arguments

def Stmt.spansOfAll : List (Stmt τ) → List Span
  | [] => []
  | first :: rest => first.spansOf ++ Stmt.spansOfAll rest

end

/-- The spans of the selected unary operators in a program, function by function. -/
def Program.spansOf (program : Program τ) : List Span :=
  program.functions.toList.flatMap fun function => Stmt.spansOfAll selects function.body

end Casts

/-- A cast to integer that is written in the source. -/
def isIntCast (op : UnaryOperator) (_ : Unit) : Bool :=
  op = .intCast

/-- A cast from float to integer in a specialized program. -/
def isTruncation (op : UnaryOperator) (tag : Ty) : Bool :=
  op = .intCast && tag = .float

section Events

open Recorded SpecializationEvent

namespace TypedExpr

theorem only_binary (op : BinaryOperator) (lhs rhs : TypedExpr) (span : Span) :
    (lhs.binary op rhs span).Only IsNotNarrowing := by
  have only_balance : (balance lhs rhs).Only IsNotNarrowing := by
    unfold balance
    split
    · exact only_single nofun _
    · exact only_single nofun _
    · exact only_nil _
  unfold binary
  dsimp only
  split
  · exact (only_nil _).bind fun _ _ => only_single nofun _
  · exact only_balance.bind fun _ _ => only_single nofun _

theorem only_unary (op : UnaryOperator) (operand : TypedExpr) (span : Span) :
    (operand.unary op span).Only IsNotNarrowing :=
  only_single nofun _

/-- Where the strict rules allow an assignment, its conversion is no narrowing. -/
theorem only_coerce {declared : Ty} {value : TypedExpr}
    (assignable : Config.strict.assignable declared value.ty = true) :
    (value.coerce declared).Only IsNotNarrowing := by
  unfold coerce
  split
  · exact only_single nofun _
  case _ isChar => exact only_single (by simp [IsNotNarrowing, isChar]) _
  case _ isFloat =>
    rw [isFloat] at assignable
    cases assignable
  · exact only_nil _

end TypedExpr

namespace Scope

variable {scope : Scope Unit}

theorem only_knownType (name : Ident) : (scope.knownType name).Only IsNotNarrowing := by
  unfold knownType
  split <;> exact only_nil _

theorem only_knownReturnType (name : Ident) :
    (scope.knownReturnType name).Only IsNotNarrowing := by
  unfold knownReturnType
  split <;> exact only_nil _

mutual

/-- In an expression no float is narrowed, whether it keeps the rules or not. -/
theorem only_specializeExpr (expr : Expr Unit) :
    (scope.specializeExpr expr).Only IsNotNarrowing := by
  match expr with
  | .literal value span =>
    rw [specializeExpr]
    exact only_nil _
  | .var name span =>
    rw [specializeExpr]
    exact (only_knownType name).bind fun _ _ => only_nil _
  | .binary op () lhs rhs span =>
    rw [specializeExpr]
    exact (only_specializeExpr lhs).bind fun left _ =>
      (only_specializeExpr rhs).bind fun right _ => TypedExpr.only_binary op left right span
  | .unary op () operand span =>
    rw [specializeExpr]
    exact (only_specializeExpr operand).bind fun inner _ => TypedExpr.only_unary op inner span
  | .call callee arguments callSpan span =>
    rw [specializeExpr]
    exact (only_knownReturnType callee).bind fun _ _ =>
      (only_specializeExprs arguments).bind fun _ _ => only_nil _

theorem only_specializeExprs (arguments : List (Expr Unit)) :
    (scope.specializeExprs arguments).Only IsNotNarrowing := by
  match arguments with
  | [] =>
    rw [specializeExprs]
    exact only_nil _
  | first :: rest =>
    rw [specializeExprs]
    exact (only_specializeExpr first).bind fun _ _ =>
      (only_specializeExprs rest).bind fun _ _ => only_nil _

end

mutual

/-- In a statement that keeps the strict rules no float is narrowed. -/
theorem only_specializeStmt {returnTy : Ty} {stmt : Stmt Unit}
    (checked : scope.checkStmt .strict returnTy stmt = .ok ()) :
    (scope.specializeStmt stmt).Only IsNotNarrowing := by
  match stmt with
  | .skip =>
    rw [specializeStmt]
    exact only_nil _
  | .block body =>
    rw [checkStmt] at checked
    rw [specializeStmt]
    exact (only_specializeStmts checked).bind fun _ _ => only_nil _
  | .assign target value =>
    simp only [checkStmt, except_bind_eq_ok_iff, require_eq_ok_iff, variableType_eq_ok_iff]
      at checked
    obtain ⟨declared, isDeclared, assigned, valueChecked, assignable⟩ := checked
    obtain ⟨specialized, valueDone, _⟩ := elaborates_of_checkExpr valueChecked
    have declaredDone : (scope.knownType target).outcome = .ok declared := by
      simp [knownType, isDeclared]
    rw [specializeStmt]
    refine (only_knownType target).bind fun found foundDone => ?_
    obtain rfl := Except.ok.inj (declaredDone.symm.trans foundDone)
    refine (only_specializeExpr value).bind fun plain plainDone => ?_
    obtain rfl := Except.ok.inj (valueDone.symm.trans plainDone)
    refine (TypedExpr.only_coerce assignable).bind fun coerced _ => ?_
    split <;> exact only_nil _
  | .conditional test thenBranch elseBranch =>
    simp only [checkStmt, except_bind_eq_ok_iff] at checked
    obtain ⟨_, _, _, thenChecked, elseChecked⟩ := checked
    rw [specializeStmt]
    exact (only_specializeExpr test).bind fun _ _ =>
      (only_specializeStmt thenChecked).bind fun _ _ =>
        (only_specializeStmt elseChecked).bind fun _ _ => only_nil _
  | .loop test body =>
    simp only [checkStmt, except_bind_eq_ok_iff] at checked
    obtain ⟨_, _, bodyChecked⟩ := checked
    rw [specializeStmt]
    exact (only_specializeExpr test).bind fun _ _ =>
      (only_specializeStmt bodyChecked).bind fun _ _ => only_nil _
  | .call callee arguments span =>
    rw [specializeStmt]
    exact (only_knownReturnType callee).bind fun _ _ =>
      (only_specializeExprs arguments).bind fun _ _ => only_nil _
  | .giveBack value span =>
    rw [specializeStmt]
    exact (only_specializeExpr value).bind fun _ _ => only_nil _

theorem only_specializeStmts {returnTy : Ty} {body : List (Stmt Unit)}
    (checked : scope.checkStmts .strict returnTy body = .ok ()) :
    (scope.specializeStmts body).Only IsNotNarrowing := by
  match body with
  | [] =>
    rw [specializeStmts]
    exact only_nil _
  | first :: rest =>
    simp only [checkStmts, except_bind_eq_ok_iff] at checked
    obtain ⟨_, firstChecked, restChecked⟩ := checked
    rw [specializeStmts]
    exact (only_specializeStmt firstChecked).bind fun _ _ =>
      (only_specializeStmts restChecked).bind fun _ _ => only_nil _

end

end Scope

theorem Definitions.only_traverse {α β ω ε γ : Type} [Named α] [Named β] {allowed : ω → Prop}
    {definitions : Definitions α} {compute : α → Recorded ω ε γ} (rebuild : α → γ → β)
    (keepsName : ∀ item part, Named.ident (rebuild item part) = Named.ident item)
    (each : ∀ item ∈ definitions.toList, (compute item).Only allowed) :
    (definitions.traverse compute rebuild keepsName).Only allowed := by
  have listOnly : ∀ items : List α, (∀ item ∈ items, (compute item).Only allowed) →
      (traverseList compute rebuild items).Only allowed := by
    intro items
    induction items with
    | nil => exact fun _ => only_nil _
    | cons first rest ih =>
      intro each
      rw [List.forall_mem_cons] at each
      rw [traverseList]
      exact each.1.bind fun _ _ => (ih each.2).bind fun _ _ => only_nil _
  exact listOnly definitions.toList each

theorem Program.only_specialize {program : Program Unit}
    (checked : (program.check .strict).outcome = .ok ()) :
    (program.specialize (.ofDeclarations program.globals)).Only IsNotNarrowing := by
  obtain ⟨_, kept⟩ := check_eq_ok_iff.mp checked
  refine Only.bind (Definitions.only_traverse _ _ fun function member => ?_) fun _ _ => only_nil _
  exact Scope.only_specializeStmts (kept function member).2

end Events

section Places

variable {scope : Scope Unit}

/-- The type of an expression that keeps the typing rules is the one that is computed for it. -/
theorem Elaborates.typeOf {expr : Expr Unit} {specialized : Expr Ty} {ty : Ty}
    (elaborates : Elaborates scope expr specialized ty) : scope.typeOf expr = .ok ty := by
  match elaborates with
  | .literal => rfl
  | .var declared =>
    rw [Scope.typeOf, Scope.variableType_eq_ok_iff]
    exact declared
  | .binary first second _ _ _ =>
    rw [Scope.typeOf, first.typeOf, second.typeOf]
    rfl
  | .unary first _ =>
    rw [Scope.typeOf, first.typeOf]
    rfl
  | .call found _ =>
    rw [Scope.typeOf, Scope.callee_eq_ok_iff.mpr found]
    rfl

/-- A conversion that is no narrowing casts no float to integer. -/
theorem spansOf_of_converts {plain converted : Expr Ty} {source target : Ty}
    (converts : Converts plain source converted target)
    (notNarrowing : source = .float → target ≠ .int) :
    converted.spansOf isTruncation = plain.spansOf isTruncation := by
  cases converts with
  | plain => rfl
  | cast conversion =>
    cases conversion with
    | intToFloat | charToInt => simp [Expr.spansOf, isTruncation]
    | floatToInt => exact absurd rfl (notNarrowing rfl)

/-- The operands of an operator are not narrowed. -/
theorem BinaryOperator.operandType_ne_int {lhs rhs : Ty} (isFloat : lhs = .float ∨ rhs = .float) :
    operandType lhs rhs ≠ .int := by
  rcases isFloat with rfl | rfl
  · cases rhs <;> simp [operandType]
  · cases lhs <;> simp [operandType]

mutual

/-- Each cast from float to integer in a specialized expression stands where one is written. -/
theorem Elaborates.spansOf {expr : Expr Unit} {specialized : Expr Ty} {ty : Ty}
    (elaborates : Elaborates scope expr specialized ty) :
    (specialized.spansOf isTruncation).Sublist (expr.spansOf isIntCast) := by
  match elaborates with
  | .literal | .var _ => exact .refl _
  | .binary first second _ firstConverts secondConverts =>
    rw [Expr.spansOf, Expr.spansOf,
      spansOf_of_converts firstConverts fun isFloat =>
        BinaryOperator.operandType_ne_int (.inl isFloat),
      spansOf_of_converts secondConverts fun isFloat =>
        BinaryOperator.operandType_ne_int (.inr isFloat)]
    exact first.spansOf.append second.spansOf
  | @Elaborates.unary _ op _ _ ty span first _ =>
    rw [Expr.spansOf, Expr.spansOf]
    refine first.spansOf.append ?_
    by_cases isCast : op = .intCast
    · have written : isIntCast op () = true := by simpa [isIntCast] using isCast
      rw [if_pos written]
      split
      · exact .refl _
      · exact List.nil_sublist _
    · have noTruncation : ¬ isTruncation op ty = true := by simp [isTruncation, isCast]
      rw [if_neg noTruncation]
      exact List.nil_sublist _
  | .call _ passed => exact passed.spansOfAll

theorem ElaboratesAll.spansOfAll {arguments : List (Expr Unit)} {specialized : List (Expr Ty)}
    {params : List Declaration} (elaborates : ElaboratesAll scope arguments specialized params) :
    (Expr.spansOfAll isTruncation specialized).Sublist (Expr.spansOfAll isIntCast arguments) := by
  match elaborates with
  | .nil => exact .refl _
  | .cons first rest => exact first.spansOf.append rest.spansOfAll

end

mutual

/-- Each cast from float to integer in a specialized statement stands where one is written, if
none of its assignments is narrowing. -/
theorem StmtElaborates.spansOf {returnTy : Ty} {stmt : Stmt Unit} {specialized : Stmt Ty}
    (elaborates : StmtElaborates scope returnTy stmt specialized)
    (widening : ∀ assignment ∈ stmt.assignments scope, ¬ assignment.Narrows) :
    (specialized.spansOf isTruncation).Sublist (stmt.spansOf isIntCast) := by
  match elaborates with
  | .skip => exact .refl _
  | .block elaborated => exact elaborated.spansOfAll widening
  | .assign isDeclared elaborated converts =>
    have notNarrowing := widening _ (List.mem_singleton_self _)
    rw [Stmt.spansOf, Stmt.spansOf, spansOf_of_converts converts]
    · exact elaborated.spansOf
    · rintro rfl rfl
      exact notNarrowing ⟨isDeclared, elaborated.typeOf⟩
  | .conditional tested chosen rejected =>
    obtain ⟨thenWidening, elseWidening⟩ := List.forall_mem_append.mp widening
    exact (tested.spansOf.append (chosen.spansOf thenWidening)).append
      (rejected.spansOf elseWidening)
  | .loop tested repeated => exact tested.spansOf.append (repeated.spansOf widening)
  | .call _ passed => exact passed.spansOfAll
  | .giveBack given => exact given.spansOf

theorem StmtsElaborate.spansOfAll {returnTy : Ty} {body : List (Stmt Unit)}
    {specialized : List (Stmt Ty)} (elaborates : StmtsElaborate scope returnTy body specialized)
    (widening : ∀ assignment ∈ Stmt.assignmentsOf scope body, ¬ assignment.Narrows) :
    (Stmt.spansOfAll isTruncation specialized).Sublist (Stmt.spansOfAll isIntCast body) := by
  match elaborates with
  | .nil => exact .refl _
  | .cons head following =>
    obtain ⟨headWidening, restWidening⟩ := List.forall_mem_append.mp widening
    exact (head.spansOf headWidening).append (following.spansOfAll restWidening)

end

theorem ProgramElaborates.spansOf {program : Program Unit} {specialized : Program Ty}
    (elaborates : ProgramElaborates program specialized)
    (widening : ∀ assignment ∈ program.assignments, ¬ assignment.Narrows) :
    (specialized.spansOf isTruncation).Sublist (program.spansOf isIntCast) := by
  have related := elaborates.functions
  rw [Program.assignments, List.forall_mem_flatMap] at widening
  unfold Program.spansOf
  generalize program.functions.toList = functions, specialized.functions.toList = others
    at related widening
  induction related with
  | nil => exact .refl _
  | cons first _ ih =>
    obtain ⟨firstWidening, restWidening⟩ := List.forall_mem_cons.mp widening
    exact (first.body.spansOfAll firstWidening).append (ih restWidening)

end Places

/-- What the strict rules change for a program. -/
structure Program.StrictDifference (program : Program Unit) : Prop where
  /-- They accept no program that the standard rules refuse. -/
  standard_of_strict : (program.check .strict).outcome = .ok () →
    (program.check .standard).outcome = .ok ()
  /-- Of the other programs they accept those without a narrowing assignment. -/
  strict_iff : (program.check .standard).outcome = .ok () →
    ((program.check .strict).outcome = .ok () ↔
      ∀ assignment ∈ program.assignments, ¬ assignment.Narrows)
  /-- They refuse a program for its first narrowing assignment. -/
  first_refused : (program.check .standard).outcome = .ok () →
    ∀ error, (program.check .strict).outcome = .error error →
      ∃ earlier refused later, program.assignments = earlier ++ refused :: later ∧
        (∀ assignment ∈ earlier, ¬ assignment.Narrows) ∧ refused.Narrows ∧
          error = refused.narrowingError
  /-- In a program that they accept, the specialization inserts no cast from float to integer,
  and each such cast stands where the source has a cast to integer. -/
  casts_written : (program.check .strict).outcome = .ok () →
    ∃ specialized,
      (program.specialize (.ofDeclarations program.globals)).outcome = .ok specialized ∧
      .intCast .float ∉ (program.specialize (.ofDeclarations program.globals)).events ∧
      (specialized.spansOf isTruncation).Sublist (program.spansOf isIntCast)

/-- The strict rules differ from the standard ones in narrowing assignments only. -/
theorem strictDifference (program : Program Unit) : program.StrictDifference where
  standard_of_strict := Program.check_standard_of_strict
  strict_iff := fun checked => (Program.firstNarrowing_of_check checked).eq_ok_iff
  first_refused := by
    intro checked error failed
    have first := Program.firstNarrowing_of_check checked
    rw [failed] at first
    exact first.of_error
  casts_written := by
    intro checked
    obtain ⟨specialized, done, elaborates⟩ := Program.elaborates_of_check checked
    have first := Program.firstNarrowing_of_check (Program.check_standard_of_strict checked)
    have widening := first.eq_ok_iff.mp checked
    refine ⟨specialized, done, fun member => ?_, elaborates.spansOf widening⟩
    exact Program.only_specialize checked _ member rfl

/-- A program that the strict rules refuse for an assignment in a loop. -/
theorem strictDifference_of_loop :
    ∃ compiled,
      (compile .standard
        "int main() \x7b int n; n = 0; while (n < 3) n = n + 0.5; \x7d").outcome = .ok compiled ∧
      (compiled.program.check .strict).outcome.isOk = false ∧
      compiled.program.StrictDifference := by
  have tested : (compile .standard
      "int main() \x7b int n; n = 0; while (n < 3) n = n + 0.5; \x7d").outcome.toOption.any
        (fun compiled => !(compiled.program.check .strict).outcome.isOk) = true := by
    decide +kernel
  obtain ⟨compiled, done, refused⟩ := exists_compiled tested
  rw [Bool.not_eq_true'] at refused
  exact ⟨compiled, done, refused, strictDifference compiled.program⟩

end TypedImp
