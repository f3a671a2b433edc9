import TypedImp.Proofs.Evaluation.FuelComparison
import TypedImp.Proofs.Evaluation.LessDefined
import TypedImp.Proofs.Evaluation.Preservation

/-!
# Calls of the main function

The main function may lack a `giveBack` and still be called for a value.  Such a call
never finishes.  To see this, replace the body of the main function by an endless loop,
but not that of the run that starts the program.  If this run ends, it has called the main
function nowhere, and so has the real one.  If it does not end, neither does any call of
the main function give a result: a call begins with variables that are at least as defined,
so it does what the run from the start does, except that it may fail where the run from the
start goes on.
-/

namespace TypedImp

section EndlessLoop

variable (functions : Definitions (Function Ty))

/-- Statements that never end. -/
def endlessBody : List (Stmt Ty) :=
  [.loop (.literal (.bool true) (Span.emptyAt 0)) .skip]

theorem exec_endless (span : Span) (fuel : Nat) (machine : Machine) :
    Stmt.exec functions fuel (.loop (.literal (.bool true) span) .skip) machine =
      (.outOfFuel, machine) := by
  induction fuel with
  | zero => rfl
  | succ fuel ih =>
    rcases fuel with _ | _ | fuel
    · rfl
    · rfl
    · rw [Stmt.exec]
      exact ih

theorem execAll_endless (fuel : Nat) (machine : Machine) :
    Stmt.execAll functions fuel endlessBody machine = (.outOfFuel, machine) := by
  cases fuel with
  | zero => rfl
  | succ fuel => rw [endlessBody, Stmt.execAll, Evaluation.bind_apply, exec_endless]

end EndlessLoop

/-- The function with an endless body if it is the main function. -/
def Function.endlessMain (function : Function Ty) : Function Ty :=
  if function.name.name = Program.mainName then { function with body := endlessBody }
  else function

theorem Function.ident_endlessMain (function : Function Ty) :
    Named.ident function.endlessMain = Named.ident function := by
  unfold endlessMain
  split <;> rfl

/-- The program in which every call of the main function is endless. -/
def Program.endlessMain (program : Program Ty) : Program Ty :=
  ⟨program.globals, program.functions.map Function.endlessMain Function.ident_endlessMain⟩

theorem Function.sameFrame_endlessMain (function : Function Ty) :
    function.endlessMain.SameFrame function := by
  unfold endlessMain
  split <;> exact ⟨rfl, fun _ => rfl⟩

theorem Program.get?_endlessMain (program : Program Ty) (name : String) :
    program.endlessMain.functions.get? name =
      (program.functions.get? name).map Function.endlessMain :=
  Definitions.get?_map _ _ Function.ident_endlessMain name

theorem Program.eq_main_of_name {program : Program Ty} {main function : Function Ty}
    (isMain : program.main? = some main) {name : String}
    (found : program.functions.get? name = some function)
    (atMain : function.name.name = mainName) : main = function := by
  have named : function.name.name = name := Definitions.name_of_get? found
  rw [← named, atMain] at found
  exact Option.some.inj (isMain.symm.trans found)

/-- Functions of the two programs agree if those of the main name do. -/
theorem calls_endlessMain {program : Program Ty} {main : Function Ty}
    (isMain : program.main? = some main) {comparison : Comparison}
    (agree : ∀ fuel fuel', comparison.fuels (fuel + 1) (fuel' + 1) →
      ∀ level machine machine' passed passed', comparison.machines level machine machine' →
      List.Forall₂ comparison.values passed passed' →
      comparison.Ends (level + 1) (Completion.Rel comparison.values)
        (Stmt.execAll program.endlessMain.functions fuel endlessBody
          (machine.push main.endlessMain passed))
        (Stmt.execAll program.functions fuel' main.body (machine'.push main passed'))) :
    comparison.Calls program.endlessMain.functions program.functions := by
  intro name
  rw [program.get?_endlessMain]
  cases found : program.functions.get? name with
  | none => exact .none
  | some function =>
    refine .some ⟨function.sameFrame_endlessMain, ?_⟩
    by_cases atMain : function.name.name = Program.mainName
    · obtain rfl := program.eq_main_of_name isMain found atMain
      have body : main.endlessMain.body = endlessBody := by
        rw [Function.endlessMain, if_pos atMain]
      rw [body]
      exact .inr agree
    · rw [Function.endlessMain, if_neg atMain]
      exact .inl rfl

/-- The run in which calls of the main function are endless does not end. -/
def Program.Endless (program : Program Ty) (main : Function Ty) : Prop :=
  ∀ fuel, (Stmt.execAll program.endlessMain.functions fuel main.body
    (program.entered main)).1 = .outOfFuel

section Start

variable {program : Program Ty} {main : Function Ty}

theorem Function.frame_of_isEmpty (noParams : main.params.isEmpty = true)
    (values : List Value) : main.frame values = State.undefined main.locals := by
  rw [frame, List.isEmpty_iff.mp noParams]
  rfl

/-- A run begins on less defined variables than any call of the main function. -/
theorem lessDefined_entered (noParams : main.params.isEmpty = true) {machine : Machine}
    {frame : State} {below : List State}
    (domain : ∀ name, (machine.globals.get? name).isSome = (program.globals.get? name).isSome)
    (frames : machine.frames = frame :: below)
    (locals : ∀ name, (frame.get? name).isSome = (main.locals.get? name).isSome) :
    Machine.LessDefined program.globals 0 (program.entered main) machine := by
  refine ⟨domain, .undefined domain, rfl, [frame], below, frames, .cons ?_ .nil⟩
  rw [Function.frame_of_isEmpty noParams]
  exact .undefined locals

theorem isSome_undefined (declarations : Definitions Declaration) (name : String) :
    ((State.undefined declarations).get? name).isSome = (declarations.get? name).isSome := by
  rw [State.get?_undefined, Option.isSome_map]

/-- If the run in which calls of the main function are endless never ends, no call of the
main function gives a result. -/
theorem execAll_main_ne_done (isMain : program.main? = some main)
    (noParams : main.params.isEmpty = true)
    (endless : program.Endless main)
    (limit : Nat) {machine : Machine}
    (related : Machine.LessDefined program.globals 0 (program.entered main) machine)
    (completion : Completion) (final : Machine) :
    Stmt.execAll program.functions limit main.body machine ≠ (.done completion, final) := by
  -- A nested call has less fuel, so the induction is on all smaller amounts of it.
  induction limit using Nat.strongRecOn generalizing machine completion final with
  | ind limit ih =>
    have calls : (definednessComparison program.globals limit).Calls
        program.endlessMain.functions program.functions := by
      apply calls_endlessMain isMain
      rintro fuel _ ⟨⟨⟩, bounded⟩ level first second passed passed' machines _
      have nested : Machine.LessDefined program.globals 0 (program.entered main)
          (second.push main passed') := by
        have frames := second.frames_push main passed'
        rw [Function.frame_of_isEmpty noParams] at frames
        exact lessDefined_entered noParams machines.domain frames
          (isSome_undefined main.locals)
      have notDone := ih fuel bounded nested
      rw [execAll_endless]
      generalize Stmt.execAll program.functions fuel main.body _ = secondEnd at notDone
      obtain ⟨outcome, final⟩ := secondEnd
      refine .excused (.exhausted ?_)
      cases outcome with
      | done completion => exact absurd rfl (notDone completion final)
      | failed => nofun
      | outOfFuel => nofun
    have agrees := (Comparison.lockstep calls ⟨rfl, Nat.le_refl limit⟩).execAll 0 main.body
      (program.entered main) machine related
    have stopped := endless limit
    generalize Stmt.execAll program.endlessMain.functions limit main.body _ = firstEnd
      at agrees stopped
    obtain ⟨outcome, exhausted⟩ := firstEnd
    obtain rfl : outcome = .outOfFuel := stopped
    intro done
    rw [done] at agrees
    cases agrees with
    | excused excuse =>
      cases excuse with
      | exhausted notDone => exact notDone rfl

theorem neverFalls_main (isMain : program.main? = some main)
    (noParams : main.params.isEmpty = true)
    (endless : program.Endless main) : NeverFalls program main := by
  intro fuel below machine final typed
  apply execAll_main_ne_done isMain noParams endless
  obtain ⟨globals, frame, frames, frameTyped⟩ := typed
  apply lessDefined_entered noParams _ frames
  · intro name
    have sameTy := frameTyped name
    rw [Definitions.get?_of_isEmpty noParams, Option.map_none, Option.none_or] at sameTy
    simpa using congrArg Option.isSome sameTy
  · intro name
    simpa using congrArg Option.isSome (globals name)

/-- If the run in which calls of the main function are endless ends, the run of the program
ends in the same way. -/
theorem execAll_of_endlessMain (isMain : program.main? = some main) {fuel fuel' : Nat}
    {final final' : Outcome Completion × Machine}
    (ends : Stmt.execAll program.endlessMain.functions fuel main.body (program.entered main) =
      final) (lasts : final.1 ≠ .outOfFuel)
    (ends' : Stmt.execAll program.functions fuel' main.body (program.entered main) = final')
    (lasts' : final'.1 ≠ .outOfFuel) : final' = final := by
  have calls : fuelComparison.Calls program.endlessMain.functions program.functions := by
    apply calls_endlessMain isMain
    intro fuel fuel' _ level machine machine' passed passed' _ _
    rw [execAll_endless]
    exact .excused rfl
  have longer := execAll_of_le calls (Nat.le_max_left fuel fuel') ends lasts
  have longer' := execAll_of_le (fuelComparison.calls_self program.functions)
    (Nat.le_max_right fuel fuel') ends' lasts'
  exact longer'.symm.trans longer

end Start

end TypedImp
