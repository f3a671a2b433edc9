import TypedImp.Proofs.Evaluation.Lockstep

/-!
# More fuel

A run whose fuel lasts is the same with more fuel.  The first run may also work with
functions of which some bodies never end: as long as it ends, it has not called them.
`Program.run_of_le` says this of a program with itself.
-/

namespace TypedImp

/-- The comparison of a run with one that has more fuel, on the same machine. -/
def fuelComparison : Comparison where
  values := Eq
  machines := fun _ => Eq
  excused := fun ending _ => ending = .outOfFuel
  fuels := (· ≤ ·)
  not_excused_done := nofun
  excused_first := fun exhausted _ => exhausted
  excused_second := nofun
  fuels_pred := Nat.le_of_succ_le_succ
  fuels_zero_succ := fun _ _ => rfl
  fuels_succ_zero := fun impossible => absurd impossible (Nat.not_succ_le_zero _)
  values_refl := fun _ => rfl
  eq_or_undefined := .inl
  lookup := by
    rintro level first _ rfl name
    cases first.lookup name with
    | none => exact .none
    | some value => exact .some rfl
  assign := by
    rintro level first _ stored _ rfl rfl name
    cases first.assign? name stored with
    | none => exact .none
    | some assigned => exact .some rfl
  push := by
    rintro level first _ function function' passed passed' rfl sameFrame values
    obtain rfl : passed = passed' := by simpa [List.forall₂_eq_eq_eq] using values
    simp only [Machine.push, sameFrame.name, sameFrame.frame]
  pop := by
    rintro level first _ rfl
    rfl
  room := by
    rintro level first _ rfl
    exact .inl Iff.rfl

/-- A run that ends is the same with more fuel, also with functions of which those that it
did not call have other bodies. -/
theorem execAll_of_le {functions functions' : Definitions (Function Ty)}
    (calls : fuelComparison.Calls functions functions') {fuel fuel' : Nat} (le : fuel ≤ fuel')
    {body : List (Stmt Ty)} {machine final : Machine} {outcome : Outcome Completion}
    (ends : Stmt.execAll functions fuel body machine = (outcome, final))
    (lasts : outcome ≠ .outOfFuel) :
    Stmt.execAll functions' fuel' body machine = (outcome, final) := by
  have agrees := (Comparison.lockstep calls le).execAll 0 body machine machine rfl
  rw [ends] at agrees
  generalize Stmt.execAll functions' fuel' body machine = final' at agrees
  cases agrees with
  | done machines completions =>
    obtain rfl := machines
    obtain rfl := completions.eq
    rfl
  | failed machines =>
    obtain rfl := machines
    rfl
  | outOfFuel => exact absurd rfl lasts
  | excused excuse =>
    cases outcome with
    | done => cases excuse
    | failed => cases excuse
    | outOfFuel => exact absurd rfl lasts

/-- A run that ends is the same with more fuel. -/
theorem Program.run_of_le (program : Program Ty) {fuel fuel' : Nat} (le : fuel ≤ fuel')
    (lasts : (program.run fuel).outcome ≠ .outOfFuel) :
    program.run fuel' = program.run fuel := by
  unfold run at lasts ⊢
  generalize program.main? = main? at lasts ⊢
  cases main? with
  | none => rfl
  | some main =>
    cases ends : Stmt.execAll program.functions fuel main.body
        ((Machine.start program).push main []) with
    | mk outcome machine =>
      have ended : outcome ≠ .outOfFuel := by
        rintro rfl
        simp [ends] at lasts
      have longer := execAll_of_le (fuelComparison.calls_self program.functions) le ends ended
      simp only [ends, longer]

end TypedImp
