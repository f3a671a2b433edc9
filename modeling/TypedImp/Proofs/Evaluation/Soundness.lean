import TypedImp.Proofs.Evaluation.Reentry

/-!
# Type soundness

A compiled program ends with values of the declared types, or with an expected failure.
A function other than `main` ends with a `giveBack`, so it does not finish without one.
For the main function there are two cases: the run calls it nowhere, or no call of it
gives a result.
-/

namespace TypedImp

section LastStatement

/-- A function that gives a value ends with a `giveBack`, except perhaps `main`. -/
theorem Function.last_of_checkReturns {τ : Type} {function : Function τ}
    (checked : function.checkReturns = .ok ()) (notVoid : function.returnTy ≠ .void)
    (notMain : function.name.name ≠ Program.mainName) :
    (function.body.getLast?.bind Stmt.returnSpan?).isSome = true := by
  rw [checkReturns, if_neg notVoid] at checked
  split at checked
  · rw [require_eq_ok_iff] at checked
    exact absurd (of_decide_eq_true checked) notMain
  · exact require_eq_ok_iff.mp checked
  · cases checked

/-- Statements of which the last one is a `giveBack` do not finish normally. -/
theorem execAll_ne_normal {functions : Definitions (Function Ty)} {body : List (Stmt Ty)}
    (last : (body.getLast?.bind Stmt.returnSpan?).isSome = true) (fuel : Nat)
    (machine final : Machine) :
    Stmt.execAll functions fuel body machine ≠ (.done .normal, final) := by
  induction body generalizing fuel machine with
  | nil => cases last
  | cons first rest ih =>
    cases fuel with
    | zero => nofun
    | succ fuel =>
      intro done
      rw [Stmt.execAll, Evaluation.bind_eq_done_iff] at done
      obtain ⟨completion, middle, firstDone, restDone⟩ := done
      cases completion with
      | returned value => cases restDone
      | normal =>
        cases rest with
        | cons second rest =>
          rw [List.getLast?_cons_cons] at last
          exact ih last fuel middle restDone
        | nil =>
          cases first with
          | giveBack value span =>
            cases fuel with
            | zero => cases firstDone
            | succ fuel =>
              rw [Stmt.exec, Evaluation.bind_eq_done_iff] at firstDone
              obtain ⟨_, _, _, returned⟩ := firstDone
              cases returned
          | skip | block | assign | conditional | loop | call => cases last

theorem neverFalls_of_last {program : Program Ty} {function : Function Ty}
    (last : (function.body.getLast?.bind Stmt.returnSpan?).isSome = true) :
    NeverFalls program function :=
  fun fuel _ machine final _ => execAll_ne_normal last fuel machine final

end LastStatement

section Programs

variable {program : Program Unit} {specialized : Program Ty} {main : Function Ty}

theorem neverFalls_of_elaborates (elaborates : ProgramElaborates program specialized)
    {name : String} {function : Function Ty}
    (found : specialized.functions.get? name = some function)
    (notVoid : function.returnTy ≠ .void) (notMain : function.name.name ≠ Program.mainName)
    (other : Program Ty) : NeverFalls other function := by
  obtain ⟨source, _, related⟩ := elaborates.exists_source found
  apply neverFalls_of_last
  exact Function.last_of_checkReturns related.checkReturns notVoid notMain

/-- Only expected failures occur if the main function never falls. -/
theorem allows_of_neverFalls (elaborates : ProgramElaborates program specialized)
    (isMain : specialized.main? = some main) (never : NeverFalls specialized main) :
    Allows specialized RunError.Expected := by
  refine ⟨fun _ expected => expected, fun name function found notVoid => .inr ?_⟩
  by_cases atMain : function.name.name = Program.mainName
  · obtain rfl := Program.eq_main_of_name isMain found atMain
    exact never
  · exact neverFalls_of_elaborates elaborates found notVoid atMain specialized

theorem allows_endlessMain (elaborates : ProgramElaborates program specialized) :
    Allows specialized.endlessMain RunError.Expected := by
  refine ⟨fun _ expected => expected, fun name function found notVoid => .inr ?_⟩
  rw [specialized.get?_endlessMain] at found
  obtain ⟨original, originalFound, rfl⟩ := Option.map_eq_some_iff.mp found
  by_cases atMain : original.name.name = Program.mainName
  · intro fuel below machine final _
    rw [Function.endlessMain, if_pos atMain, execAll_endless]
    intro done
    cases done
  · rw [Function.endlessMain, if_neg atMain] at notVoid ⊢
    exact neverFalls_of_elaborates elaborates originalFound notVoid atMain _

theorem sameSignatures_endlessMain (elaborates : ProgramElaborates program specialized) :
    specialized.endlessMain.SameSignatures program := by
  refine ⟨elaborates.globals, fun name function found => ?_⟩
  obtain ⟨body, specializedFound⟩ := elaborates.sameSignatures.functions name function found
  rw [specialized.get?_endlessMain, specializedFound, Option.map_some, Function.endlessMain]
  split
  · exact ⟨endlessBody, rfl⟩
  · exact ⟨body, rfl⟩

theorem stmtsTyped_endlessBody (scope : Scope Ty) (returnTy : Ty) :
    StmtsTyped scope returnTy endlessBody :=
  .cons (.loop .literal .skip) .nil

theorem typed_endlessMain (admissible : program.tree.Admissible)
    (elaborates : ProgramElaborates program specialized) :
    ProgramTyped specialized.endlessMain := by
  constructor
  · intro function member
    obtain ⟨original, originalMember, rfl⟩ := List.mem_map.mp member
    obtain ⟨source, sourceMember, related⟩ := elaborates.source_of_mem originalMember
    rw [Function.endlessMain]
    split
    · exact stmtsTyped_endlessBody _ _
    · exact related.typed admissible (sameSignatures_endlessMain elaborates) sourceMember
  · intro function member name
    obtain ⟨original, originalMember, rfl⟩ := List.mem_map.mp member
    have disjoint := (typed_of_programElaborates admissible elaborates).disjoint original
      originalMember name
    rw [Function.endlessMain]
    split <;> exact disjoint

/-- How the main function may end. -/
def EndsTyped (program : Program Ty) (main : Function Ty) :
    Outcome Completion × Machine → Prop
  | (.done _, machine) => MachineTyped program main [] machine
  | (.failed error, _) => error.content.Expected
  | (.outOfFuel, _) => True

/-- Well-typed statements of the main function that begin a run end as they should. -/
theorem endsTyped_entered {program : Program Ty} (typed : ProgramTyped program)
    (allows : Allows program RunError.Expected) {body : List (Stmt Ty)}
    (member : main ∈ program.functions.toList) (noParams : main.params.isEmpty = true)
    (bodyTyped : StmtsTyped (.inFunction program main) main.returnTy body) (fuel : Nat) :
    EndsTyped program main
      (Stmt.execAll program.functions fuel body (program.entered main)) := by
  have kept := (keepsTypes typed allows fuel).execAll member bodyTyped (program.entered main)
    (machineTyped_entered program noParams)
  unfold EndsTyped
  split at kept
  case _ done => rw [done]; exact kept.1
  case _ failed => rw [failed]; exact kept
  case _ exhausted => rw [exhausted]; trivial

theorem Function.exists_endlessMain (function : Function Ty) :
    ∃ body, function.endlessMain = { function with body := body } := by
  unfold endlessMain
  split
  · exact ⟨endlessBody, rfl⟩
  · exact ⟨function.body, rfl⟩

theorem endsTyped_endlessMain (admissible : program.tree.Admissible)
    (elaborates : ProgramElaborates program specialized)
    (member : main ∈ specialized.functions.toList) (noParams : main.params.isEmpty = true)
    (fuel : Nat) :
    EndsTyped specialized main
      (Stmt.execAll specialized.endlessMain.functions fuel main.body
        (specialized.entered main)) := by
  obtain ⟨source, sourceMember, related⟩ := elaborates.source_of_mem member
  have bodyTyped := related.typed admissible (sameSignatures_endlessMain elaborates) sourceMember
  have endlessMember : main.endlessMain ∈ specialized.endlessMain.functions.toList :=
    List.mem_map_of_mem member
  obtain ⟨body, sameFrame⟩ := main.exists_endlessMain
  rw [sameFrame] at endlessMember
  have ends := endsTyped_entered (typed_endlessMain admissible elaborates)
    (allows_endlessMain elaborates) endlessMember noParams bodyTyped fuel
  -- The two programs have the same variables, so the machines have the same types.
  change EndsTyped specialized.endlessMain _ (Stmt.execAll specialized.endlessMain.functions fuel
    main.body (specialized.entered main)) at ends
  generalize Stmt.execAll specialized.endlessMain.functions fuel main.body _ = final at ends ⊢
  obtain ⟨outcome, final⟩ := final
  cases outcome with
  | done completion => exact ⟨ends.globals, ends.frame⟩
  | failed error => exact ends
  | outOfFuel => trivial

/-- The main function of a compiled program ends with values of the declared types, or with
an expected failure. -/
theorem endsTyped_main (admissible : program.tree.Admissible)
    (elaborates : ProgramElaborates program specialized)
    (isMain : specialized.main? = some main) (noParams : main.params.isEmpty = true)
    (fuel : Nat) :
    EndsTyped specialized main
      (Stmt.execAll specialized.functions fuel main.body (specialized.entered main)) := by
  have member := Definitions.mem_of_get? isMain
  by_cases endless : specialized.Endless main
  · -- No call of the main function gives a result, so none finishes without one.
    have typed := typed_of_programElaborates admissible elaborates
    have never := neverFalls_main isMain noParams endless
    exact endsTyped_entered typed (allows_of_neverFalls elaborates isMain never) member noParams
      (typed.body main member) fuel
  · -- The run calls the main function nowhere, so the body of such a call does not matter.
    obtain ⟨enough, endsThere⟩ := not_forall.mp endless
    cases ended : Stmt.execAll specialized.functions fuel main.body
        (specialized.entered main) with
    | mk outcome final =>
      by_cases lasts : outcome = .outOfFuel
      · rw [lasts]
        trivial
      · rw [execAll_of_endlessMain isMain rfl endsThere ended lasts]
        exact endsTyped_endlessMain admissible elaborates member noParams enough

end Programs

end TypedImp
