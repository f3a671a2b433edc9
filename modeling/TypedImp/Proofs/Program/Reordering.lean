import TypedImp.Proofs.Alignment.Checking
import TypedImp.Proofs.Alignment.Evaluating
import TypedImp.Proofs.Alignment.Specializing
import TypedImp.Proofs.Compilation
import TypedImp.Proofs.Typing.WellTyped

/-!
# The order of definitions

A program names its variables and functions, and nothing asks where a definition stands.
A program with its definitions in another order is accepted by the same rules and has the
same runs; every node and every span is unchanged, so its failures lie at the same
places.
-/

namespace TypedImp

namespace Definitions

variable {α : Type} [Named α]

/-- A lookup does not see the order of the definitions. -/
theorem get?_eq_of_perm {first second : Definitions α}
    (perm : first.toList.Perm second.toList) (name : String) :
    first.get? name = second.get? name := by
  apply Option.ext
  intro definition
  rw [get?_eq_some_iff, get?_eq_some_iff, perm.mem_iff]

/-- The definitions in another order. -/
def permuted (definitions : Definitions α) (items : List α)
    (perm : definitions.toList.Perm items) : Definitions α :=
  ⟨items, (perm.pairwise_iff fun different => different.symm).mp definitions.distinct⟩

/-- The definitions from the last one to the first. -/
def reverse (definitions : Definitions α) : Definitions α :=
  definitions.permuted definitions.toList.reverse (List.reverse_perm _).symm

end Definitions

section Identity

open TypedImp.Alignment

theorem Ident.same (ident : Ident) : identity.SameIdent ident ident :=
  .mk ident.name rfl

theorem Declaration.same (declaration : Declaration) :
    identity.SameDeclaration declaration declaration :=
  ⟨declaration.name.same, rfl⟩

variable {τ : Type}

mutual

theorem Expr.same (expr : Expr τ) : identity.SameExpr expr expr := by
  match expr with
  | .literal value _ => exact .literal value rfl
  | .var name _ => exact .var name.same rfl
  | .binary op tag lhs rhs _ => exact .binary op tag lhs.same rhs.same rfl
  | .unary op tag operand _ => exact .unary op tag operand.same rfl
  | .call callee arguments _ _ => exact .call callee.same (Expr.sameAll arguments) rfl rfl

theorem Expr.sameAll (exprs : List (Expr τ)) : identity.SameExprs exprs exprs := by
  match exprs with
  | [] => exact .nil
  | first :: rest => exact .cons first.same (Expr.sameAll rest)

end

mutual

theorem Stmt.same (stmt : Stmt τ) : identity.SameStmt stmt stmt := by
  match stmt with
  | .skip => exact .skip
  | .block body => exact .block (Stmt.sameAll body)
  | .assign target value => exact .assign target.same value.same
  | .conditional test thenBranch elseBranch =>
    exact .conditional test.same thenBranch.same elseBranch.same
  | .loop test body => exact .loop test.same body.same
  | .call callee arguments _ => exact .call callee.same (Expr.sameAll arguments) rfl
  | .giveBack value _ => exact .giveBack value.same rfl

theorem Stmt.sameAll (body : List (Stmt τ)) : identity.SameStmts body body := by
  match body with
  | [] => exact .nil
  | first :: rest => exact .cons first.same (Stmt.sameAll rest)

end

theorem Definitions.sameVariables_of_perm {first second : Definitions Declaration}
    (perm : first.toList.Perm second.toList) : identity.SameVariables first second := by
  intro name
  rw [Definitions.get?_eq_of_perm perm]
  cases second.get? name with
  | none => exact .none
  | some declaration => exact .some declaration.same

theorem Alignment.SameOutcome.eq {α : Type} {first second : Outcome α}
    (same : identity.SameOutcome first second) : first = second := by
  cases same with
  | done => rfl
  | failed error spans => rw [show _ = _ from spans]
  | outOfFuel => rfl

end Identity

variable {τ : Type}

/-- The same function with its local variables in another order. -/
structure Function.Reordered (first second : Function τ) : Prop where
  returnTy : first.returnTy = second.returnTy
  name : first.name = second.name
  params : first.params = second.params
  locals : first.locals.toList.Perm second.locals.toList
  body : first.body = second.body

/-- The same program with its global variables, its functions, and the local variables of
each function in another order. -/
structure Program.Reordered (first second : Program τ) : Prop where
  globals : first.globals.toList.Perm second.globals.toList
  functions : ∃ functions, first.functions.toList.Perm functions ∧
    List.Forall₂ Function.Reordered functions second.functions.toList

/-- A function with its local variables from the last one to the first. -/
def Function.reversed (function : Function τ) : Function τ :=
  { function with locals := function.locals.reverse }

/-- A program with all definitions from the last one to the first. -/
def Program.reversed (program : Program τ) : Program τ :=
  ⟨program.globals.reverse, (program.functions.map Function.reversed fun _ => rfl).reverse⟩

theorem Program.reordered_reversed (program : Program τ) :
    program.Reordered program.reversed where
  globals := (List.reverse_perm _).symm
  functions := by
    refine ⟨program.functions.toList.reverse, (List.reverse_perm _).symm, ?_⟩
    change List.Forall₂ Function.Reordered _ (program.functions.toList.map _).reverse
    rw [List.forall₂_reverse_iff, List.forall₂_map_right_iff]
    exact List.forall₂_same.mpr fun function _ =>
      ⟨rfl, rfl, rfl, (List.reverse_perm _).symm, rfl⟩

theorem Function.Reordered.sameFunction {first second : Function τ}
    (reordered : first.Reordered second) : Alignment.identity.SameFunction first second where
  returnTy := reordered.returnTy
  name := reordered.name ▸ first.name.same
  params := reordered.params ▸ List.forall₂_same.mpr fun param _ => param.same
  locals := Definitions.sameVariables_of_perm reordered.locals
  body := reordered.body ▸ Stmt.sameAll first.body

/-- Every name stands for the same in a program with another order. -/
theorem Program.Reordered.sameNames {first second : Program τ}
    (reordered : first.Reordered second) : Alignment.identity.SameNames first second where
  globals := Definitions.sameVariables_of_perm reordered.globals
  functions name := by
    obtain ⟨functions, perm, related⟩ := reordered.functions
    -- First the functions change their places, and then each of them its local variables.
    have moved : first.functions.get? name = (first.functions.permuted functions perm).get? name :=
      Definitions.get?_eq_of_perm perm name
    rw [moved]
    exact Definitions.rel_get?
      (related.imp fun _ _ functions => functions.sameFunction)
      (fun _ _ functions => functions.name.name) name

theorem Run.ext_fields {first second : Run} (outcomes : first.outcome = second.outcome)
    (logs : first.log = second.log) : first = second := by
  cases first
  cases second
  simpa using ⟨outcomes, logs⟩

/-- Two programs are accepted by the same rules, and then they have the same runs. -/
structure Program.BehavesAs (config : Config) (program other : Program Unit) : Prop where
  accepted : (program.check config).outcome = .ok () ↔ (other.check config).outcome = .ok ()
  runs : (program.check config).outcome = .ok () →
    ∃ specialized specialized',
      (program.specialize (.ofDeclarations program.globals)).outcome = .ok specialized ∧
      (other.specialize (.ofDeclarations other.globals)).outcome = .ok specialized' ∧
      ∀ fuel, specialized.run fuel = specialized'.run fuel

/-- The order of the definitions of a program does not matter. -/
theorem Program.behavesAs_of_reordered {program reordered : Program Unit}
    (reorders : program.Reordered reordered) (config : Config) :
    program.BehavesAs config reordered := by
  have same := reorders.sameNames
  refine ⟨same.check_iff config, fun checked => ?_⟩
  obtain ⟨specialized, done, elaborates⟩ := Program.elaborates_of_check checked
  obtain ⟨specialized', done', _⟩ :=
    Program.elaborates_of_check ((same.check_iff config).mp checked)
  obtain ⟨main, isMain, _⟩ := elaborates.main
  obtain ⟨body, isMain', _⟩ := elaborates.exists_specialized isMain
  refine ⟨specialized, specialized', done, done', fun fuel => ?_⟩
  rw [← same.types] at done'
  obtain ⟨outcomes, logs⟩ := (same.specialized done done').run isMain' fuel
  exact Run.ext_fields outcomes.eq logs

/-- A program that calls a later function, and the same program read backwards. -/
theorem Program.behavesAs_of_reversed :
    ∃ compiled,
      (compile .standard
        ("float m; int n; int main() \x7b int a; int b; a = 3; b = a; m = half(a + b); \x7d" ++
          "float half(int n) \x7b float result; result = n / 2.0; return result; \x7d")).outcome =
        .ok compiled ∧
      (compiled.program.check .standard).outcome = .ok () ∧
      compiled.program.reversed.functions.toList.map (fun function => function.name.name) =
        ["half", "main"] ∧
      compiled.program.Reordered compiled.program.reversed ∧
      compiled.program.BehavesAs .standard compiled.program.reversed := by
  have tested : (compile .standard
      ("float m; int n; int main() \x7b int a; int b; a = 3; b = a; m = half(a + b); \x7d" ++
        "float half(int n) \x7b float result; result = n / 2.0; return result; \x7d")
      ).outcome.toOption.any (fun compiled =>
        compiled.program.reversed.functions.toList.map (fun function => function.name.name) =
          ["half", "main"]) = true := by
    decide +kernel
  obtain ⟨compiled, done, names⟩ := exists_compiled tested
  have checked := (compile_eq_ok_iff.mp done).2.2.1
  have reorders := compiled.program.reordered_reversed
  exact ⟨compiled, done, checked, of_decide_eq_true names, reorders,
    Program.behavesAs_of_reordered reorders .standard⟩

end TypedImp
