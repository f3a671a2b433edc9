import TypedImp.Proofs.Program.Names
import TypedImp.Typing.Checking

/-!
# Type errors mention names of the program

An error of the check mentions a variable or a function that is used in the program, or one that it
defines.
-/

namespace TypedImp

variable {τ : Type} {allowed : String → Prop}

/-- A variable, a parameter or a function is mentioned by its name. -/
instance : Mentioning TypeError where
  mention?
    | .undeclaredVariable name | .undefinedFunction name | .unassignable name _ _
    | .argumentCount name _ _ | .argumentMismatch name _ _ | .multipleReturns name
    | .returnNotLast name | .missingReturn name | .returnInVoid name => some name
    | _ => none

/-- A rule that mentions an allowed name. -/
theorem keepsNames_require {kept : Bool} {span : Span} {error : TypeError}
    (mentions : ∀ name ∈ Mentioning.mention? error, allowed name) :
    KeepsNames allowed (fun _ => True) (require kept span error) := by
  cases kept with
  | true => trivial
  | false => exact mentions

namespace Scope

variable {scope : Scope τ} {program : Program τ}

/-- All parameters of the functions in a scope are allowed. -/
def ParamsIn (allowed : String → Prop) (scope : Scope τ) : Prop :=
  ∀ function ∈ scope.functions.toList, function.params.NamesIn allowed

theorem keepsNames_variableType {name : Ident} (isAllowed : allowed name.name) :
    KeepsNames allowed (fun _ => True) (scope.variableType name) := by
  unfold variableType
  split
  · trivial
  · exact mentions_of_eq_some rfl isAllowed

theorem keepsNames_callee (params : scope.ParamsIn allowed) {name : Ident}
    (isAllowed : allowed name.name) :
    KeepsNames allowed (fun function => function.params.NamesIn allowed) (scope.callee name) := by
  unfold callee
  split
  case h_1 found => exact params _ (Definitions.mem_of_get? found)
  case h_2 => exact mentions_of_eq_some rfl isAllowed

mutual

theorem keepsNames_checkExpr (params : scope.ParamsIn allowed) {expr : Expr τ}
    (names : expr.NamesIn allowed) :
    KeepsNames allowed (fun _ => True) (scope.checkExpr expr) := by
  match expr with
  | .literal _ _ => trivial
  | .var _ _ => exact keepsNames_variableType names
  | .binary op _ lhs rhs span =>
    rw [checkExpr]
    refine (keepsNames_checkExpr params names.1).bind fun left _ => ?_
    refine (keepsNames_checkExpr params names.2).bind fun right _ => ?_
    exact (keepsNames_require nofun).bind fun _ _ => trivial
  | .unary op _ operand span =>
    have inside : operand.NamesIn allowed := names
    rw [checkExpr]
    refine (keepsNames_checkExpr params inside).bind fun inner _ => ?_
    exact (keepsNames_require nofun).bind fun _ _ => trivial
  | .call callee arguments callSpan _ =>
    rw [checkExpr]
    refine (keepsNames_callee params names.1).bind fun function functionParams => ?_
    refine (keepsNames_require (mentions_of_eq_some rfl names.1)).bind fun _ _ => ?_
    exact (keepsNames_checkArguments params names.2 functionParams).bind fun _ _ => trivial

theorem keepsNames_checkArguments (params : scope.ParamsIn allowed) {arguments : List (Expr τ)}
    (names : Expr.AllNamesIn allowed arguments) {formals : List Declaration}
    (formalNames : ∀ formal ∈ formals, allowed formal.name.name) :
    KeepsNames allowed (fun _ => True) (scope.checkArguments arguments formals) := by
  match arguments, formals with
  | argument :: arguments, formal :: formals =>
    obtain ⟨isAllowed, following⟩ := List.forall_mem_cons.mp formalNames
    rw [checkArguments]
    refine (keepsNames_checkExpr params names.1).bind fun actual _ => ?_
    refine (keepsNames_require (mentions_of_eq_some rfl isAllowed)).bind fun _ _ => ?_
    exact keepsNames_checkArguments params names.2 following
  | [], _ => trivial
  | _ :: _, [] => trivial

end

theorem keepsNames_checkTest (params : scope.ParamsIn allowed) {test : Expr τ}
    (names : test.NamesIn allowed) :
    KeepsNames allowed (fun _ => True) (scope.checkTest test) := by
  refine (keepsNames_checkExpr params names).bind fun actual _ => ?_
  exact keepsNames_require nofun

variable {config : Config} {returnTy : Ty}

mutual

theorem keepsNames_checkStmt (params : scope.ParamsIn allowed) {stmt : Stmt τ}
    (names : stmt.NamesIn allowed) :
    KeepsNames allowed (fun _ => True) (scope.checkStmt config returnTy stmt) := by
  match stmt with
  | .skip => trivial
  | .block body => exact keepsNames_checkStmts params names
  | .assign target value =>
    rw [checkStmt]
    refine (keepsNames_variableType names.1).bind fun declared _ => ?_
    refine (keepsNames_checkExpr params names.2).bind fun assigned _ => ?_
    exact keepsNames_require (mentions_of_eq_some rfl names.1)
  | .conditional test thenBranch elseBranch =>
    rw [checkStmt]
    refine (keepsNames_checkTest params names.1).bind fun _ _ => ?_
    refine (keepsNames_checkStmt params names.2.1).bind fun _ _ => ?_
    exact keepsNames_checkStmt params names.2.2
  | .loop test body =>
    rw [checkStmt]
    refine (keepsNames_checkTest params names.1).bind fun _ _ => ?_
    exact keepsNames_checkStmt params names.2
  | .call callee arguments span =>
    have callNames : (Expr.call callee arguments span span).NamesIn allowed := names
    rw [checkStmt]
    exact (keepsNames_checkExpr params callNames).bind fun _ _ => trivial
  | .giveBack value _ =>
    have inside : value.NamesIn allowed := names
    rw [checkStmt]
    refine (keepsNames_checkExpr params inside).bind fun actual _ => ?_
    exact keepsNames_require nofun

theorem keepsNames_checkStmts (params : scope.ParamsIn allowed) {body : List (Stmt τ)}
    (names : Stmt.AllNamesIn allowed body) :
    KeepsNames allowed (fun _ => True) (scope.checkStmts config returnTy body) := by
  match body with
  | [] => trivial
  | first :: rest =>
    rw [checkStmts]
    refine (keepsNames_checkStmt params names.1).bind fun _ _ => ?_
    exact keepsNames_checkStmts params names.2

end

end Scope

namespace Program

variable {program : Program τ}

end Program

end TypedImp
