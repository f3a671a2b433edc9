import TypedImp.Proofs.Typing.Rules

/-!
# Narrowing assignments

The strict rules differ from the standard ones in the assignments of a float to an integer
variable.  `firstNarrowing_of_check` says that of a program which keeps the standard rules
the strict check refuses the first such assignment, and nothing else.
-/

namespace TypedImp

variable {τ : Type}

/-- An assignment and the scope in which it stands. -/
structure Assignment (τ : Type) where
  scope : Scope τ
  target : Ident
  value : Expr τ

namespace Assignment

/-- A float is assigned to an integer variable. -/
structure Narrows (assignment : Assignment τ) : Prop where
  target : assignment.scope.types.get? assignment.target.name = some .int
  value : assignment.scope.typeOf assignment.value = .ok .float

/-- What is wrong with a narrowing assignment under the strict rules. -/
def narrowingError (assignment : Assignment τ) : Spanned TypeError :=
  ⟨assignment.target.span.cover assignment.value.span,
    .unassignable assignment.target.name .int .float⟩

end Assignment

mutual

/-- The assignments in a statement at any depth, in source order. -/
def Stmt.assignments (scope : Scope τ) : Stmt τ → List (Assignment τ)
  | .skip | .call _ _ _ | .giveBack _ _ => []
  | .block body => Stmt.assignmentsOf scope body
  | .assign target value => [⟨scope, target, value⟩]
  | .conditional _ thenBranch elseBranch =>
    thenBranch.assignments scope ++ elseBranch.assignments scope
  | .loop _ body => body.assignments scope

/-- The assignments in statements at any depth, in source order. -/
def Stmt.assignmentsOf (scope : Scope τ) : List (Stmt τ) → List (Assignment τ)
  | [] => []
  | first :: rest => first.assignments scope ++ Stmt.assignmentsOf scope rest

end

/-- The assignments of a program, function by function in source order. -/
def Program.assignments (program : Program τ) : List (Assignment τ) :=
  program.functions.toList.flatMap fun function =>
    Stmt.assignmentsOf (.inFunction program function) function.body

/-- An outcome is a success if none of the assignments is narrowing, and else the error of
the first one that is. -/
inductive FirstNarrowing : List (Assignment τ) → Except (Spanned TypeError) Unit → Prop where
  | absent {assignments : List (Assignment τ)}
      (none : ∀ assignment ∈ assignments, ¬ assignment.Narrows) :
      FirstNarrowing assignments (.ok ())
  | refused {earlier : List (Assignment τ)} {first : Assignment τ} {later : List (Assignment τ)}
      (none : ∀ assignment ∈ earlier, ¬ assignment.Narrows) (narrows : first.Narrows) :
      FirstNarrowing (earlier ++ first :: later) (.error first.narrowingError)

namespace FirstNarrowing

theorem nil : FirstNarrowing ([] : List (Assignment τ)) (.ok ()) :=
  .absent nofun

/-- What comes second is looked at only if nothing was refused before. -/
theorem append {assignments others : List (Assignment τ)}
    {outcome following : Except (Spanned TypeError) Unit}
    (first : FirstNarrowing assignments outcome) (second : FirstNarrowing others following) :
    FirstNarrowing (assignments ++ others) (outcome >>= fun _ => following) := by
  cases first with
  | absent none =>
    cases second with
    | absent noOther =>
      refine .absent fun assignment member => ?_
      rcases List.mem_append.mp member with inFirst | inSecond
      · exact none assignment inFirst
      · exact noOther assignment inSecond
    | @refused earlier refusedFirst later noEarlier narrows =>
      rw [← List.append_assoc]
      refine .refused (fun assignment member => ?_) narrows
      rcases List.mem_append.mp member with inFirst | inEarlier
      · exact none assignment inFirst
      · exact noEarlier assignment inEarlier
  | @refused earlier refusedFirst later none narrows =>
    rw [List.append_assoc, List.cons_append]
    exact .refused none narrows

theorem eq_ok_iff {assignments : List (Assignment τ)}
    {outcome : Except (Spanned TypeError) Unit} (first : FirstNarrowing assignments outcome) :
    outcome = .ok () ↔ ∀ assignment ∈ assignments, ¬ assignment.Narrows := by
  cases first with
  | absent none => exact ⟨fun _ => none, fun _ => rfl⟩
  | @refused earlier refusedFirst later none narrows =>
    exact ⟨nofun, fun noneAtAll => absurd narrows (noneAtAll refusedFirst (by simp))⟩

theorem of_error {assignments : List (Assignment τ)} {error : Spanned TypeError}
    (first : FirstNarrowing assignments (.error error)) :
    ∃ earlier refused later, assignments = earlier ++ refused :: later ∧
      (∀ assignment ∈ earlier, ¬ assignment.Narrows) ∧ refused.Narrows ∧
        error = refused.narrowingError := by
  cases first with
  | refused none narrows => exact ⟨_, _, _, rfl, none, narrows, rfl⟩

end FirstNarrowing

/-- What the strict rules let a variable store, the standard rules do too. -/
theorem Config.Stores.standard_of_strict {declared assigned : Ty}
    (stores : Config.strict.Stores declared assigned) :
    Config.standard.Stores declared assigned := by
  cases stores with
  | same => exact .same
  | intToFloat => exact .intToFloat
  | charToInt => exact .charToInt
  | floatToInt narrowing => cases narrowing

/-- The standard rules let a variable store what the strict rules do, and else a float where
an integer is declared. -/
theorem Config.Stores.strict_or_narrowing {declared assigned : Ty}
    (stores : Config.standard.Stores declared assigned) :
    Config.strict.assignable declared assigned = true ∨ declared = .int ∧ assigned = .float := by
  cases stores with
  | same => exact .inl (Config.strict.assignable_self declared)
  | intToFloat | charToInt => exact .inl rfl
  | floatToInt _ => exact .inr ⟨rfl, rfl⟩

namespace Scope

variable {scope : Scope τ} {returnTy : Ty}

theorem StmtRule.standard_of_strict {stmt : Stmt τ} (kept : scope.StmtRule .strict returnTy stmt) :
    scope.StmtRule .standard returnTy stmt := by
  cases stmt with
  | assign target value =>
    obtain ⟨declared, assigned, isDeclared, valueTy, stores⟩ := kept
    exact ⟨declared, assigned, isDeclared, valueTy, stores.standard_of_strict⟩
  | skip | block | conditional | loop | call | giveBack => exact kept

/-- The strict check refuses an assignment that keeps the standard rules if it narrows. -/
theorem firstNarrowing_of_assign {target : Ident} {value : Expr τ}
    (checked : scope.checkStmt .standard returnTy (.assign target value) = .ok ()) :
    FirstNarrowing [⟨scope, target, value⟩]
      (scope.checkStmt .strict returnTy (.assign target value)) := by
  simp only [checkStmt, except_bind_eq_ok_iff, require_eq_ok_iff, Config.assignable_iff_stores]
    at checked
  obtain ⟨declared, isDeclared, assigned, valueChecked, stores⟩ := checked
  have strictOutcome : scope.checkStmt .strict returnTy (.assign target value) =
      require (Config.strict.assignable declared assigned) (target.span.cover value.span)
        (.unassignable target.name declared assigned) := by
    rw [checkStmt, isDeclared, valueChecked]
    rfl
  have targetTy := variableType_eq_ok_iff.mp isDeclared
  have valueTy := ((checkExpr_eq_ok_iff value).mp valueChecked).2
  rw [strictOutcome]
  rcases stores.strict_or_narrowing with assignable | ⟨rfl, rfl⟩
  · rw [require, if_pos assignable]
    refine .absent fun assignment member narrows => ?_
    obtain rfl := List.mem_singleton.mp member
    obtain rfl := Option.some.inj (targetTy.symm.trans narrows.target)
    obtain rfl := Except.ok.inj (valueTy.symm.trans narrows.value)
    cases assignable
  · exact @FirstNarrowing.refused τ [] ⟨scope, target, value⟩ [] (List.forall_mem_nil _)
      ⟨targetTy, valueTy⟩

mutual

/-- The strict check of a statement that keeps the standard rules refuses the first narrowing
assignment in it. -/
theorem firstNarrowing_of_checkStmt {stmt : Stmt τ}
    (checked : scope.checkStmt .standard returnTy stmt = .ok ()) :
    FirstNarrowing (stmt.assignments scope) (scope.checkStmt .strict returnTy stmt) := by
  match stmt with
  | .skip => exact .nil
  | .block body =>
    rw [checkStmt] at checked ⊢
    exact firstNarrowing_of_checkStmts checked
  | .assign target value => exact firstNarrowing_of_assign checked
  | .conditional test thenBranch elseBranch =>
    simp only [checkStmt, except_bind_eq_ok_iff] at checked
    obtain ⟨_, tested, _, thenChecked, elseChecked⟩ := checked
    rw [checkStmt, tested]
    exact (firstNarrowing_of_checkStmt thenChecked).append (firstNarrowing_of_checkStmt elseChecked)
  | .loop test body =>
    simp only [checkStmt, except_bind_eq_ok_iff] at checked
    obtain ⟨_, tested, bodyChecked⟩ := checked
    rw [checkStmt, tested]
    exact firstNarrowing_of_checkStmt bodyChecked
  | .call callee arguments span =>
    rw [checkStmt] at checked ⊢
    rw [checked]
    exact .nil
  | .giveBack value span =>
    rw [checkStmt] at checked ⊢
    rw [checked]
    exact .nil

theorem firstNarrowing_of_checkStmts {body : List (Stmt τ)}
    (checked : scope.checkStmts .standard returnTy body = .ok ()) :
    FirstNarrowing (Stmt.assignmentsOf scope body) (scope.checkStmts .strict returnTy body) := by
  match body with
  | [] => exact .nil
  | first :: rest =>
    simp only [checkStmts, except_bind_eq_ok_iff] at checked
    obtain ⟨_, firstChecked, restChecked⟩ := checked
    rw [checkStmts]
    exact (firstNarrowing_of_checkStmt firstChecked).append
      (firstNarrowing_of_checkStmts restChecked)

end

end Scope

namespace Program

variable {program : Program τ}

/-- What keeps the strict rules keeps the standard ones. -/
theorem KeepsRules.standard_of_strict (kept : program.KeepsRules .strict) :
    program.KeepsRules .standard := by
  refine ⟨kept.main, fun function member => ?_⟩
  obtain ⟨returns, statements, expressions⟩ := kept.functions function member
  exact ⟨returns, statements.imp fun _ => Scope.StmtRule.standard_of_strict,
    expressions⟩

theorem check_standard_of_strict (checked : (program.check .strict).outcome = .ok ()) :
    (program.check .standard).outcome = .ok () := by
  rw [check_eq_ok_iff_keepsRules] at checked ⊢
  exact checked.standard_of_strict

theorem firstNarrowing_of_checkFunctions {functions : List (Function τ)}
    (checked : (program.checkFunctions .standard functions).outcome = .ok ()) :
    FirstNarrowing
      (functions.flatMap fun function =>
        Stmt.assignmentsOf (.inFunction program function) function.body)
      (program.checkFunctions .strict functions).outcome := by
  induction functions with
  | nil => exact .nil
  | cons first rest ih =>
    rw [checkFunctions_eq_ok_iff, List.forall_mem_cons] at checked
    obtain ⟨⟨returns, bodyChecked⟩, restChecked⟩ := checked
    have strictOutcome : (program.checkFunctions .strict (first :: rest)).outcome =
        ((Scope.inFunction program first).checkStmts .strict first.returnTy first.body >>= fun _ =>
          (program.checkFunctions .strict rest).outcome) := by
      rw [checkFunctions, Function.check, returns]
      cases (Scope.inFunction program first).checkStmts .strict first.returnTy first.body <;> rfl
    rw [strictOutcome, List.flatMap_cons]
    exact (Scope.firstNarrowing_of_checkStmts bodyChecked).append
      (ih (checkFunctions_eq_ok_iff.mpr restChecked))

/-- The strict check of a program that keeps the standard rules refuses the first narrowing
assignment in it. -/
theorem firstNarrowing_of_check (checked : (program.check .standard).outcome = .ok ()) :
    FirstNarrowing program.assignments (program.check .strict).outcome := by
  obtain ⟨⟨main, isMain, noParams⟩, functionsChecked⟩ := check_eq_ok_iff.mp checked
  have strictOutcome : program.check .strict =
      program.checkFunctions .strict program.functions.toList := by
    rw [check, isMain]
    exact if_pos noParams
  rw [strictOutcome]
  exact firstNarrowing_of_checkFunctions (checkFunctions_eq_ok_iff.mpr functionsChecked)

end Program

end TypedImp
