import TypedImp.Typing.Checking

/-!
# Checks that succeed

When a program is accepted, said once for each part of the check.  The order in which the
parts are checked no longer matters then.
-/

namespace TypedImp

theorem except_bind_eq_ok_iff {ε α β : Type} {first : Except ε α} {next : α → Except ε β}
    {result : β} :
    (first >>= next) = .ok result ↔ ∃ middle, first = .ok middle ∧ next middle = .ok result := by
  cases first <;> simp [bind, Except.bind]

variable {τ : Type}

namespace Scope

variable {scope : Scope τ}

theorem variableType_eq_ok_iff {name : Ident} {ty : Ty} :
    scope.variableType name = .ok ty ↔ scope.types.get? name.name = some ty := by
  unfold variableType
  split <;> simp [*]

theorem callee_eq_ok_iff {name : Ident} {function : Function τ} :
    scope.callee name = .ok function ↔ scope.functions.get? name.name = some function := by
  unfold callee
  split <;> simp [*]

end Scope

/-- The places of `giveBack` decide whether they are accepted. -/
theorem Function.checkReturns_congr {σ : Type} {function : Function τ} {other : Function σ}
    (sameTy : function.returnTy = other.returnTy) (sameName : function.name = other.name)
    (first : Stmt.firstReturnOf? function.body = Stmt.firstReturnOf? other.body)
    (spans : function.body.map Stmt.returnSpan? = other.body.map Stmt.returnSpan?) :
    function.checkReturns = other.checkReturns := by
  have present : function.body.filterMap Stmt.returnSpan? =
      other.body.filterMap Stmt.returnSpan? := by
    simpa using congrArg (List.filterMap id) spans
  have last : function.body.getLast?.bind Stmt.returnSpan? =
      other.body.getLast?.bind Stmt.returnSpan? := by
    simpa only [List.getLast?_map, Option.bind_map, Function.id_comp] using
      congrArg (·.getLast?.bind id) spans
  simp only [checkReturns, sameTy, sameName, first, present, last]

namespace Program

/-- Functions are accepted if each of them is, in its own scope. -/
theorem checkFunctions_eq_ok_iff {config : Config} {program : Program τ}
    {functions : List (Function τ)} :
    (program.checkFunctions config functions).outcome = .ok () ↔
      ∀ function ∈ functions, function.checkReturns = .ok () ∧
        (Scope.inFunction program function).checkStmts config function.returnTy function.body =
          .ok () := by
  induction functions with
  | nil => simp [checkFunctions]
  | cons first rest ih =>
    rw [List.forall_mem_cons, ← ih]
    simp only [checkFunctions, Function.check, Recorded.bind_outcome_eq_ok_iff,
      Recorded.ofExcept, Recorded.record]
    constructor
    · rintro ⟨_, ⟨_, _, _, returns, body⟩, restChecked⟩
      exact ⟨⟨returns, body⟩, restChecked⟩
    · rintro ⟨⟨returns, body⟩, restChecked⟩
      exact ⟨(), ⟨(), trivial, (), returns, body⟩, restChecked⟩

/-- A program is accepted if it has a main function without parameters and each of its
functions is accepted. -/
theorem check_eq_ok_iff {config : Config} {program : Program τ} :
    (program.check config).outcome = .ok () ↔
      (∃ main, program.main? = some main ∧ main.params.isEmpty = true) ∧
        ∀ function ∈ program.functions.toList, function.checkReturns = .ok () ∧
          (Scope.inFunction program function).checkStmts config function.returnTy
            function.body = .ok () := by
  rw [← checkFunctions_eq_ok_iff, check]
  cases isMain : program.main? with
  | none => simp [Recorded.fail]
  | some main =>
    by_cases noParams : main.params.isEmpty = true
    · simp [noParams]
    · simp [noParams, Recorded.fail]

end Program

end TypedImp
