import TypedImp.Proofs.Evaluation.Across
import TypedImp.Proofs.Evaluation.Reentry

/-!
# Entering the main function

A run that ends with a state enters its main function once.  Calls of the main function are
not forbidden, but none of them comes to an end: if one did, the run in which such calls are
endless would end as well, and then the real run does the same and calls the main function
nowhere.
-/

namespace TypedImp

/-- An event that begins a call of the main function. -/
def CallEvent.entersMain : CallEvent → Bool
  | .pushed function _ => function == Program.mainName
  | .popped _ => false

/-- The calls of the main function that have begun, from the latest on. -/
def Machine.mainEntries (machine : Machine) : List CallEvent :=
  machine.log.filter CallEvent.entersMain

namespace Machine

variable {τ : Type} (machine : Machine)

@[simp]
theorem mainEntries_pop : machine.pop.mainEntries = machine.mainEntries :=
  rfl

theorem mainEntries_push_other {function : Function τ}
    (notMain : function.name.name ≠ Program.mainName) (values : List Value) :
    (machine.push function values).mainEntries = machine.mainEntries := by
  have excluded :
      ¬ CallEvent.entersMain (.pushed function.name.name (machine.depth + 1)) = true := by
    simpa [CallEvent.entersMain] using notMain
  exact List.filter_cons_of_neg excluded

theorem mainEntries_push_main {function : Function τ}
    (isMain : function.name.name = Program.mainName) (values : List Value) :
    (machine.push function values).mainEntries =
      .pushed Program.mainName (machine.depth + 1) :: machine.mainEntries := by
  rw [mainEntries, push, isMain]
  exact List.filter_cons_of_pos (beq_self_eq_true _)

theorem mainEntries_assign? {machine assigned : Machine} {name : String} {value : Value}
    (done : machine.assign? name value = some assigned) :
    assigned.mainEntries = machine.mainEntries := by
  rw [mainEntries, mainEntries, log_assign? done]

end Machine

/-- Where calls of the main function are endless, no evaluation that ends has made one. -/
theorem crossing_endlessMain (program : Program Ty) :
    Crossing program.endlessMain.functions
      (fun before after => after.mainEntries = before.mainEntries)
      (fun before after => after.mainEntries = before.mainEntries) where
  refl _ := rfl
  reading_trans _ _ _ first second := second.trans first
  writing_trans _ _ _ first second := second.trans first
  writing_of_reading _ _ same := same
  assign := Machine.mainEntries_assign?
  call := by
    intro name function fuel values machine final outcome found ends lasts same
    rw [program.get?_endlessMain] at found
    obtain ⟨original, _, rfl⟩ := Option.map_eq_some_iff.mp found
    by_cases atMain : original.name.name = Program.mainName
    · -- The body of this call is endless, so the call is not one that ends.
      rw [Function.endlessMain, if_pos atMain, execAll_endless] at ends
      exact absurd (Prod.mk.inj ends).1.symm lasts
    · rw [Function.endlessMain, if_neg atMain] at same
      rw [Machine.mainEntries_pop, same, machine.mainEntries_push_other atMain]

section Runs

variable {program : Program Ty} {main : Function Ty}

/-- A run that ends with a result ends also if calls of the main function are endless. -/
theorem not_endless_of_done (isMain : program.main? = some main)
    (noParams : main.params.isEmpty = true) {fuel : Nat} {completion : Completion}
    {final : Machine}
    (ends : Stmt.execAll program.functions fuel main.body (program.entered main) =
      (.done completion, final)) :
    ¬ program.Endless main := by
  intro endless
  have itself : Machine.LessDefined program.globals 0 (program.entered main)
      (program.entered main) := by
    apply lessDefined_entered noParams (isSome_undefined program.globals) rfl
    intro name
    rw [Function.frame_of_isEmpty noParams]
    exact isSome_undefined main.locals name
  exact execAll_main_ne_done isMain noParams endless fuel itself completion final ends

/-- A run that ends with a result enters the main function at its start and then no more. -/
theorem mainEntries_of_done (isMain : program.main? = some main)
    (noParams : main.params.isEmpty = true) {fuel : Nat} {completion : Completion}
    {final : Machine}
    (ends : Stmt.execAll program.functions fuel main.body (program.entered main) =
      (.done completion, final)) :
    final.mainEntries = [.pushed Program.mainName 1] := by
  obtain ⟨enough, lasts⟩ := not_forall.mp (not_endless_of_done isMain noParams ends)
  have same := execAll_of_endlessMain isMain rfl lasts ends nofun
  have kept := ((crossing_endlessMain program).crosses enough).execAll main.body
    (program.entered main) lasts
  rw [← same] at kept
  have named : main.name.name = Program.mainName := Definitions.name_of_get? isMain
  calc
    final.mainEntries = (program.entered main).mainEntries := kept
    _ = .pushed Program.mainName 1 :: (Machine.start program).mainEntries :=
      (Machine.start program).mainEntries_push_main named []
    _ = [.pushed Program.mainName 1] := rfl

theorem Program.log_run_of_done (isMain : program.main? = some main) {fuel : Nat}
    {completion : Completion} {final : Machine}
    (ends : Stmt.execAll program.functions fuel main.body (program.entered main) =
      (.done completion, final)) :
    (program.run fuel).log = final.pop.log.reverse := by
  unfold entered at ends
  rw [run, isMain]
  dsimp only
  rw [ends]

end Runs

/-- In a run of a compiled program that ends with a state, the main function is entered once:
by the run itself. -/
theorem run_enters_main_once {config : Config} {source : String} {compiled : Compiled}
    (done : (compile config source).outcome = .ok compiled) {fuel : Nat} {state : State}
    (ends : (compiled.specialized.run fuel).outcome = .done state) :
    (compiled.specialized.run fuel).log.filter CallEvent.entersMain =
      [.pushed Program.mainName 1] := by
  obtain ⟨_, _, elaborates⟩ := elaborates_of_compile done
  obtain ⟨main, isMain, noParams⟩ := elaborates.main
  obtain ⟨body, isMain', _⟩ := elaborates.exists_specialized isMain
  obtain ⟨completion, final, finished, _⟩ := (Program.run_eq_done_iff isMain').mp ends
  have entries := mainEntries_of_done isMain' noParams finished
  rw [← final.mainEntries_pop] at entries
  rw [Program.log_run_of_done isMain' finished, List.filter_reverse]
  exact congrArg List.reverse entries

/-- A program with a call of another function, and with a call of its main function that a
run does not come to. -/
theorem run_enters_main_once_of_guarded_call :
    ∃ compiled state,
      (compile .standard
        "int n; void f() \x7b n = 2; \x7d int main() \x7b f(); if (n < 0) main(); \x7d").outcome =
          .ok compiled ∧
      (compiled.specialized.run 20).outcome = .done state ∧
      (compiled.specialized.run 20).log.filter CallEvent.entersMain =
        [.pushed Program.mainName 1] := by
  have tested : (compile .standard
      "int n; void f() \x7b n = 2; \x7d int main() \x7b f(); if (n < 0) main(); \x7d"
        ).outcome.toOption.any (fun compiled =>
          match (compiled.specialized.run 20).outcome with
          | .done _ => true
          | _ => false) = true := by
    decide +kernel
  obtain ⟨compiled, done, finishes⟩ := exists_compiled tested
  split at finishes
  case h_1 state ends => exact ⟨compiled, state, done, ends, run_enters_main_once done ends⟩
  case h_2 => cases finishes

end TypedImp
