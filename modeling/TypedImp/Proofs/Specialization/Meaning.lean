import TypedImp.Proofs.Evaluation.Preservation
import TypedImp.Proofs.Specialization.Conversions

/-!
# What specialized programs do

A specialized program gives exactly the results of the program that was read, evaluated by
the types of its values.  An inserted cast takes a step of fuel that the other evaluation
does not take, so twice the fuel is enough for the specialized program.
-/

namespace TypedImp

open Evaluation

/-- Fuel of the specialized program and of the program that was read, of which the one that
does not lead has enough. -/
def Leader.Suffices : Leader → Nat → Nat → Prop
  | .first, fuel, fuel' => fuel ≤ fuel'
  | .second, fuel, fuel' => 2 * fuel' ≤ fuel

/-- A function that was read and its specialized form, in their programs. -/
structure FunctionPair (program : Program Unit) (specialized : Program Ty)
    (function : Function Unit) (function' : Function Ty) : Prop where
  member : function ∈ program.functions.toList
  member' : function' ∈ specialized.functions.toList
  related : FunctionElaborates program function function'

theorem FunctionPair.specializes {program : Program Unit} {specialized : Program Ty}
    {function : Function Unit} {function' : Function Ty}
    (pair : FunctionPair program specialized function function')
    (admissible : program.tree.Admissible)
    (elaborates : ProgramElaborates program specialized) :
    (Scope.inFunction specialized function').Specializes (.inFunction program function) := by
  rw [pair.related.withBody]
  exact specializes_inFunction admissible elaborates.sameSignatures pair.member function'.body

/-- On a typed machine, storing a converted value follows the assignment that converts it to
the type of what the variable holds. -/
theorem follows_assign {specialized : Program Ty} {function' : Function Ty}
    {below : List State} {leader : Leader} {β : Type}
    (disjoint : ∀ name, function'.params.get? name = none ∨ function'.locals.get? name = none)
    {target : Ident} {declared : Ty}
    (isDeclared : (Scope.inFunction specialized function').types.get? target.name = some declared)
    {value : Value} {converted : Except RunError Value}
    (same : converted = value.convertTo declared) (span : Span) (next : Unit → Evaluation β) :
    Follows leader (MachineTyped specialized function' below)
      (ofExcept span converted >>= fun stored => store target stored >>= next)
      (assign target value >>= next) := by
  intro machine typed result final done
  have lookupTy := typed.ty_lookup disjoint target.name
  rw [isDeclared] at lookupTy
  obtain ⟨current, found, currentTy⟩ := Option.map_eq_some_iff.mp lookupTy
  have unfolded : (assign target value >>= next) machine =
      (ofExcept target.span converted >>= fun stored => store target stored >>= next)
        machine := by
    rw [assign, bind_assoc, bind_apply, read_apply, found]
    simp only [bind_assoc, currentTy, same]
  cases converted with
  | ok stored => cases leader <;> simp only [Leader.pick, unfolded] at done ⊢ <;> exact ⟨done, done⟩
  | error error =>
    cases leader with
    | first => cases done
    | second =>
      rw [Leader.pick, unfolded] at done
      cases done

/-- A call follows another one if their bodies do, from the machine with the frame of the
call on. -/
theorem follows_inFrame {specialized : Program Ty} {function' : Function Ty}
    {callee : Function Unit} {statements : List (Stmt Ty)} {below : List State}
    {leader : Leader} {values : List Value}
    (fits : List.Forall₂ (fun param value => value.ty = param.ty) callee.params.toList values)
    {body body' : Evaluation Completion} (span : Span)
    (follows : ∀ frames,
      Follows leader (MachineTyped specialized (callee.withBody statements) frames) body body') :
    Follows leader (MachineTyped specialized function' below)
      (inFrame (callee.withBody statements) values span body)
      (inFrame callee values span body') := by
  intro machine typed result final done
  have parts : machine.depth < Machine.maxDepth ∧ ∃ completion last,
      leader.pick body body' (machine.push callee values) = (.done completion, last) ∧
        completion.value? = result ∧ last.pop = final := by
    cases leader <;> exact inFrame_eq_done_iff.mp done
  obtain ⟨room, completion, last, leads, sameValue, popped⟩ := parts
  have entered : MachineTyped specialized (callee.withBody statements) machine.frames
      (machine.push callee values) :=
    .push typed.globals rfl fits
  obtain ⟨bodyDone, bodyDone'⟩ := follows machine.frames _ entered completion last leads
  exact ⟨inFrame_eq_done_iff.mpr ⟨room, completion, last, bodyDone, sameValue, popped⟩,
    inFrame_eq_done_iff.mpr ⟨room, completion, last, bodyDone', sameValue, popped⟩⟩

/-- With some fuel, specialized syntax follows the syntax that was read. -/
structure FollowsReference (leader : Leader) (program : Program Unit) (specialized : Program Ty)
    (fuel fuel' : Nat) : Prop where
  eval {function : Function Unit} {function' : Function Ty} {below : List State}
    {expr : Expr Unit} {expr' : Expr Ty} {ty : Ty}
    (pair : FunctionPair program specialized function function')
    (elaborated : Elaborates (.inFunction program function) expr expr' ty) :
    Follows leader (MachineTyped specialized function' below)
      (Expr.eval specialized.functions fuel expr') (Reference.eval program.functions fuel' expr)
  evalAll {function : Function Unit} {function' : Function Ty} {below : List State}
    {arguments : List (Expr Unit)} {arguments' : List (Expr Ty)} {params : List Declaration}
    (pair : FunctionPair program specialized function function')
    (elaborated : ElaboratesAll (.inFunction program function) arguments arguments' params)
    (typed : HaveTypes (.inFunction specialized function') arguments' params) :
    Follows leader (MachineTyped specialized function' below)
      (Expr.evalAll specialized.functions fuel arguments')
      (Reference.evalAll program.functions fuel' arguments)
  call {function callee : Function Unit} {function' : Function Ty} {below : List State}
    {name : Ident} {arguments : List (Expr Unit)} {arguments' : List (Expr Ty)} (span : Span)
    (pair : FunctionPair program specialized function function')
    (found : program.functions.get? name.name = some callee)
    (elaborated :
      ElaboratesAll (.inFunction program function) arguments arguments' callee.params.toList) :
    Follows leader (MachineTyped specialized function' below)
      (callFunction specialized.functions fuel name arguments' span)
      (Reference.call program.functions fuel' name arguments span)
  test {function : Function Unit} {function' : Function Ty} {below : List State}
    {test : Expr Unit} {test' : Expr Ty}
    (pair : FunctionPair program specialized function function')
    (elaborated : Elaborates (.inFunction program function) test test' .bool) :
    Follows leader (MachineTyped specialized function' below)
      (Expr.evalTest specialized.functions fuel test')
      (Reference.evalTest program.functions fuel' test)
  exec {function : Function Unit} {function' : Function Ty} {below : List State}
    {stmt : Stmt Unit} {stmt' : Stmt Ty}
    (pair : FunctionPair program specialized function function')
    (elaborated : StmtElaborates (.inFunction program function) function.returnTy stmt stmt')
    (typed : StmtTyped (.inFunction specialized function') function'.returnTy stmt') :
    Follows leader (MachineTyped specialized function' below)
      (Stmt.exec specialized.functions fuel stmt') (Reference.exec program.functions fuel' stmt)
  execAll {function : Function Unit} {function' : Function Ty} {below : List State}
    {body : List (Stmt Unit)} {body' : List (Stmt Ty)}
    (pair : FunctionPair program specialized function function')
    (elaborated : StmtsElaborate (.inFunction program function) function.returnTy body body')
    (typed : StmtsTyped (.inFunction specialized function') function'.returnTy body') :
    Follows leader (MachineTyped specialized function' below)
      (Stmt.execAll specialized.functions fuel body')
      (Reference.execAll program.functions fuel' body)

section Induction

variable {leader : Leader} {program : Program Unit} {specialized : Program Ty}
  {fuel fuel' : Nat}

theorem followsReference_zero (noFuel : leader.pick fuel fuel' = 0) :
    FollowsReference leader program specialized fuel fuel' := by
  cases leader with
  | first =>
    obtain rfl : fuel = 0 := noFuel
    constructor <;> intros <;> apply follows_of_stuck <;>
      simp only [Leader.pick, Expr.eval, Expr.evalAll, callFunction, Expr.evalTest, Stmt.exec,
        Stmt.execAll]
  | second =>
    obtain rfl : fuel' = 0 := noFuel
    constructor <;> intros <;> apply follows_of_stuck <;>
      simp only [Leader.pick, Reference.eval, Reference.evalAll, Reference.call,
        Reference.evalTest, Reference.exec, Reference.execAll]

/-- An operand that is converted is evaluated with an amount of fuel for which the other
one suffices as well. -/
theorem Leader.Suffices.operand (sufficient : leader.Suffices (fuel + 1) (fuel' + 1))
    {earlier : Nat} (atLeast : fuel - 1 ≤ earlier) (atMost : earlier ≤ fuel) :
    leader.Suffices earlier fuel' := by
  cases leader with
  | first =>
    have le : fuel + 1 ≤ fuel' + 1 := sufficient
    change earlier ≤ fuel'
    omega
  | second =>
    have le : 2 * (fuel' + 1) ≤ fuel + 1 := sufficient
    change 2 * fuel' ≤ earlier
    omega

theorem Leader.Suffices.pred (sufficient : leader.Suffices (fuel + 1) (fuel' + 1)) :
    leader.Suffices fuel fuel' :=
  sufficient.operand (Nat.sub_le fuel 1) (Nat.le_refl fuel)

/-- The types of a specialized program are kept; which failures are left does not matter
here. -/
theorem keepsTypes_of_elaborates (admissible : program.tree.Admissible)
    (elaborates : ProgramElaborates program specialized) (fuel : Nat) :
    KeepsTypes specialized (fun _ => True) fuel :=
  keepsTypes (typed_of_programElaborates admissible elaborates)
    ⟨fun _ _ => trivial, fun _ _ _ _ => .inl trivial⟩ fuel

namespace FollowsReference

theorem eval_succ
    (admissible : program.tree.Admissible) (elaborates : ProgramElaborates program specialized)
    (sufficient : leader.Suffices (fuel + 1) (fuel' + 1))
    (ih : ∀ earlier ≤ fuel, leader.Suffices earlier fuel' →
      FollowsReference leader program specialized earlier fuel')
    {function : Function Unit} {function' : Function Ty} {below : List State}
    {expr : Expr Unit} {expr' : Expr Ty} {ty : Ty}
    (pair : FunctionPair program specialized function function')
    (elaborated : Elaborates (.inFunction program function) expr expr' ty) :
    Follows leader (MachineTyped specialized function' below)
      (Expr.eval specialized.functions (fuel + 1) expr')
      (Reference.eval program.functions (fuel' + 1) expr) := by
  have keeps := keepsTypes_of_elaborates admissible elaborates
  have now := ih fuel (Nat.le_refl fuel) sufficient.pred
  have specializes := pair.specializes admissible elaborates
  cases elaborated with
  | literal =>
    rw [Expr.eval, Reference.eval]
    exact follows_refl
  | var declared =>
    rw [Expr.eval, Reference.eval]
    exact follows_refl
  | binary first second accepted firstConverts secondConverts =>
    rw [Expr.eval, Reference.eval]
    obtain ⟨leftNotVoid, rightNotVoid⟩ := BinaryOperator.not_void_of_accepts accepted
    have leftTyped := hasType_of_elaborates specializes first leftNotVoid
    have rightTyped := hasType_of_elaborates specializes second rightNotVoid
    obtain ⟨leftFuel, _, _, leftAtLeast, leftAtMost, left, leftEq⟩ :=
      eval_converted specialized.functions firstConverts fuel
    obtain ⟨rightFuel, _, _, rightAtLeast, rightAtMost, right, rightEq⟩ :=
      eval_converted specialized.functions secondConverts fuel
    have leftIh := ih leftFuel leftAtMost (sufficient.operand leftAtLeast leftAtMost)
    have rightIh := ih rightFuel rightAtMost (sufficient.operand rightAtLeast rightAtMost)
    rw [leftEq, rightEq]
    exact follows_binary accepted (leftIh.eval pair first)
      ((keeps leftFuel).eval pair.member' leftTyped) (rightIh.eval pair second)
      ((keeps rightFuel).eval pair.member' rightTyped) left right _
  | unary first accepted =>
    rw [Expr.eval, Reference.eval]
    have operandTyped :=
      hasType_of_elaborates specializes first (UnaryOperator.not_void_of_accepts accepted)
    apply (now.eval pair first).bind ((keeps fuel).eval pair.member' operandTyped)
    rintro value rfl
    exact follows_refl
  | call found passed =>
    rw [Expr.eval, Reference.eval]
    obtain ⟨body, specializedFound⟩ := specializes.functions _ _ found
    have argumentsTyped :=
      haveTypes_of_elaboratesAll specializes passed (specializes.paramsNotVoid _ _ found)
    apply (now.call _ pair found passed).bind
      ((keeps fuel).call _ pair.member' specializedFound argumentsTyped)
    intro result? _
    cases result? <;> exact follows_refl

theorem evalAll_succ
    (admissible : program.tree.Admissible) (elaborates : ProgramElaborates program specialized)
    (now : FollowsReference leader program specialized fuel fuel')
    {function : Function Unit} {function' : Function Ty} {below : List State}
    {arguments : List (Expr Unit)} {arguments' : List (Expr Ty)} {params : List Declaration}
    (pair : FunctionPair program specialized function function')
    (elaborated : ElaboratesAll (.inFunction program function) arguments arguments' params)
    (argumentsTyped : HaveTypes (.inFunction specialized function') arguments' params) :
    Follows leader (MachineTyped specialized function' below)
      (Expr.evalAll specialized.functions (fuel + 1) arguments')
      (Reference.evalAll program.functions (fuel' + 1) arguments) := by
  have keeps := keepsTypes_of_elaborates admissible elaborates
  cases elaborated with
  | nil =>
    rw [Expr.evalAll, Reference.evalAll]
    exact follows_refl
  | cons first rest =>
    rw [Expr.evalAll, Reference.evalAll]
    cases argumentsTyped with
    | cons firstTyped restTyped =>
      apply (now.eval pair first).bind ((keeps fuel).eval pair.member' firstTyped)
      intro value _
      apply (now.evalAll pair rest restTyped).bind
        ((keeps fuel).evalAll pair.member' restTyped)
      intro values _
      exact follows_refl

theorem call_succ
    (admissible : program.tree.Admissible) (elaborates : ProgramElaborates program specialized)
    (now : FollowsReference leader program specialized fuel fuel')
    {function callee : Function Unit} {function' : Function Ty} {below : List State}
    {name : Ident} {arguments : List (Expr Unit)} {arguments' : List (Expr Ty)} (span : Span)
    (pair : FunctionPair program specialized function function')
    (found : program.functions.get? name.name = some callee)
    (elaborated :
      ElaboratesAll (.inFunction program function) arguments arguments' callee.params.toList) :
    Follows leader (MachineTyped specialized function' below)
      (callFunction specialized.functions (fuel + 1) name arguments' span)
      (Reference.call program.functions (fuel' + 1) name arguments span) := by
  have typed := typed_of_programElaborates admissible elaborates
  have keeps := keepsTypes_of_elaborates admissible elaborates
  have specializes := pair.specializes admissible elaborates
  have argumentsTyped :=
    haveTypes_of_elaboratesAll specializes elaborated (specializes.paramsNotVoid _ _ found)
  obtain ⟨statements, found', related⟩ := elaborates.exists_specialized found
  have member := Definitions.mem_of_get? found
  have member' := Definitions.mem_of_get? found'
  simp only [callFunction, Reference.call, found, found']
  apply (now.evalAll pair elaborated argumentsTyped).bind
    ((keeps fuel).evalAll pair.member' argumentsTyped)
  intro values fits
  -- From here on the types are those of the callee.
  apply follows_inFrame fits span
  intro frames
  exact now.execAll ⟨member, member', related⟩ related.body (typed.body _ member')

theorem test_succ
    (admissible : program.tree.Admissible) (elaborates : ProgramElaborates program specialized)
    (now : FollowsReference leader program specialized fuel fuel')
    {function : Function Unit} {function' : Function Ty} {below : List State}
    {test : Expr Unit} {test' : Expr Ty}
    (pair : FunctionPair program specialized function function')
    (elaborated : Elaborates (.inFunction program function) test test' .bool) :
    Follows leader (MachineTyped specialized function' below)
      (Expr.evalTest specialized.functions (fuel + 1) test')
      (Reference.evalTest program.functions (fuel' + 1) test) := by
  have keeps := keepsTypes_of_elaborates admissible elaborates
  have specializes := pair.specializes admissible elaborates
  rw [Expr.evalTest, Reference.evalTest]
  have testTyped := hasType_of_elaborates specializes elaborated (by simp)
  apply (now.eval pair elaborated).bind ((keeps fuel).eval pair.member' testTyped)
  intro value _
  apply follows_of_sameResults
  intro machine truth final
  rw [ofExcept_eq_done_iff, ofExcept_eq_done_iff]

theorem exec_succ
    (admissible : program.tree.Admissible) (elaborates : ProgramElaborates program specialized)
    (sufficient : leader.Suffices (fuel + 1) (fuel' + 1))
    (ih : ∀ earlier ≤ fuel, leader.Suffices earlier fuel' →
      FollowsReference leader program specialized earlier fuel')
    {function : Function Unit} {function' : Function Ty} {below : List State}
    {stmt : Stmt Unit} {stmt' : Stmt Ty}
    (pair : FunctionPair program specialized function function')
    (elaborated : StmtElaborates (.inFunction program function) function.returnTy stmt stmt')
    (stmtTyped : StmtTyped (.inFunction specialized function') function'.returnTy stmt') :
    Follows leader (MachineTyped specialized function' below)
      (Stmt.exec specialized.functions (fuel + 1) stmt')
      (Reference.exec program.functions (fuel' + 1) stmt) := by
  have typed := typed_of_programElaborates admissible elaborates
  have keeps := keepsTypes_of_elaborates admissible elaborates
  have now := ih fuel (Nat.le_refl fuel) sufficient.pred
  have specializes := pair.specializes admissible elaborates
  cases elaborated with
  | skip =>
    rw [Stmt.exec, Reference.exec]
    exact follows_refl
  | block elaborated =>
    rw [Stmt.exec, Reference.exec]
    cases stmtTyped with
    | block bodyTyped => exact now.execAll pair elaborated bodyTyped
  | assign isDeclared elaborated converts =>
    rw [Stmt.exec, Reference.exec]
    have notVoid := not_void_of_converts converts (specializes.typesNotVoid _ _ isDeclared)
    have valueTyped := hasType_of_elaborates specializes elaborated notVoid
    obtain ⟨valueFuel, _, _, atLeast, atMost, convert, valueEq⟩ :=
      eval_converted specialized.functions converts fuel
    have valueIh := ih valueFuel atMost (sufficient.operand atLeast atMost)
    rw [valueEq, bind_assoc]
    apply (valueIh.eval pair elaborated).bind
      ((keeps valueFuel).eval pair.member' valueTyped)
    intro value isTy
    exact follows_assign (typed.disjoint function' pair.member')
      (specializes.types ▸ isDeclared) (convert value isTy) _ _
  | conditional tested chosen rejected =>
    rw [Stmt.exec, Reference.exec]
    cases stmtTyped with
    | conditional testTyped chosenTyped rejectedTyped =>
      apply (now.test pair tested).bind ((keeps fuel).test pair.member' testTyped)
      intro truth _
      cases truth with
      | true => exact now.exec pair chosen chosenTyped
      | false => exact now.exec pair rejected rejectedTyped
  | loop tested repeated =>
    rw [Stmt.exec, Reference.exec]
    cases stmtTyped with
    | loop testTyped repeatedTyped =>
      apply (now.test pair tested).bind ((keeps fuel).test pair.member' testTyped)
      intro truth _
      cases truth with
      | true =>
        apply (now.exec pair repeated repeatedTyped).bind
          ((keeps fuel).exec pair.member' repeatedTyped)
        intro completion _
        cases completion with
        | normal => exact now.exec pair (.loop tested repeated) (.loop testTyped repeatedTyped)
        | returned value => exact follows_refl
      | false => exact follows_refl
  | call found passed =>
    rw [Stmt.exec, Reference.exec]
    cases stmtTyped with
    | call found' argumentsTyped =>
      apply (now.call _ pair found passed).bind
        ((keeps fuel).call _ pair.member' found' argumentsTyped)
      intro _ _
      exact follows_refl
  | giveBack given =>
    rw [Stmt.exec, Reference.exec]
    cases stmtTyped with
    | giveBack givenTyped =>
      apply (now.eval pair given).bind ((keeps fuel).eval pair.member' givenTyped)
      intro value _
      exact follows_refl

theorem execAll_succ
    (admissible : program.tree.Admissible) (elaborates : ProgramElaborates program specialized)
    (now : FollowsReference leader program specialized fuel fuel')
    {function : Function Unit} {function' : Function Ty} {below : List State}
    {body : List (Stmt Unit)} {body' : List (Stmt Ty)}
    (pair : FunctionPair program specialized function function')
    (elaborated : StmtsElaborate (.inFunction program function) function.returnTy body body')
    (bodyTyped : StmtsTyped (.inFunction specialized function') function'.returnTy body') :
    Follows leader (MachineTyped specialized function' below)
      (Stmt.execAll specialized.functions (fuel + 1) body')
      (Reference.execAll program.functions (fuel' + 1) body) := by
  have keeps := keepsTypes_of_elaborates admissible elaborates
  cases elaborated with
  | nil =>
    rw [Stmt.execAll, Reference.execAll]
    exact follows_refl
  | cons head following =>
    rw [Stmt.execAll, Reference.execAll]
    cases bodyTyped with
    | cons headTyped followingTyped =>
      apply (now.exec pair head headTyped).bind ((keeps fuel).exec pair.member' headTyped)
      intro completion _
      cases completion with
      | normal => exact now.execAll pair following followingTyped
      | returned value => exact follows_refl

end FollowsReference

theorem followsReference_succ (admissible : program.tree.Admissible)
    (elaborates : ProgramElaborates program specialized)
    (sufficient : leader.Suffices (fuel + 1) (fuel' + 1))
    (ih : ∀ earlier ≤ fuel, leader.Suffices earlier fuel' →
      FollowsReference leader program specialized earlier fuel') :
    FollowsReference leader program specialized (fuel + 1) (fuel' + 1) := by
  have now := ih fuel (Nat.le_refl fuel) sufficient.pred
  exact
    { eval := FollowsReference.eval_succ admissible elaborates sufficient ih
      evalAll := FollowsReference.evalAll_succ admissible elaborates now
      call := FollowsReference.call_succ admissible elaborates now
      test := FollowsReference.test_succ admissible elaborates now
      exec := FollowsReference.exec_succ admissible elaborates sufficient ih
      execAll := FollowsReference.execAll_succ admissible elaborates now }

/-- Specialized syntax follows the syntax that was read, as long as the one that does not
lead has enough fuel. -/
theorem followsReference (admissible : program.tree.Admissible)
    (elaborates : ProgramElaborates program specialized)
    (sufficient : leader.Suffices fuel fuel') :
    FollowsReference leader program specialized fuel fuel' := by
  -- The operand of an inserted cast has one step less, so the induction is on all smaller
  -- amounts of fuel.
  induction fuel using Nat.strongRecOn generalizing fuel' with
  | ind fuel ih =>
    by_cases noFuel : leader.pick fuel fuel' = 0
    · exact followsReference_zero noFuel
    · obtain ⟨earlier, rfl⟩ : ∃ earlier, fuel = earlier + 1 := by
        cases leader <;> simp only [Leader.pick, Leader.Suffices] at noFuel sufficient <;>
          exact Nat.exists_eq_succ_of_ne_zero (by omega)
      obtain ⟨earlier', rfl⟩ : ∃ earlier', fuel' = earlier' + 1 := by
        cases leader <;> simp only [Leader.pick, Leader.Suffices] at noFuel sufficient <;>
          exact Nat.exists_eq_succ_of_ne_zero (by omega)
      exact followsReference_succ admissible elaborates sufficient fun earlier atMost sufficient =>
        ih earlier (Nat.lt_succ_of_le atMost) sufficient

end Induction

section Runs

theorem Reference.run_eq_done_iff {program : Program Unit} {main : Function Unit}
    (isMain : program.main? = some main) {fuel : Nat} {state : State} :
    (run program fuel).outcome = .done state ↔
      ∃ completion machine,
        execAll program.functions fuel main.body (program.entered main) =
          (.done completion, machine) ∧ machine.globals.merge machine.innermost = state := by
  rw [run, isMain]
  unfold Program.entered
  dsimp only
  generalize execAll program.functions fuel main.body _ = ended
  obtain ⟨outcome, machine⟩ := ended
  cases outcome <;> simp

/-- The state with which the leading run ends is that of both. -/
theorem outcomes_of_leader {program : Program Unit} {specialized : Program Ty}
    (admissible : program.tree.Admissible) (elaborates : ProgramElaborates program specialized)
    {leader : Leader} {fuel fuel' : Nat} (sufficient : leader.Suffices fuel fuel') {state : State}
    (ends : leader.pick (specialized.run fuel).outcome (Reference.run program fuel').outcome =
      .done state) :
    (specialized.run fuel).outcome = .done state ∧
      (Reference.run program fuel').outcome = .done state := by
  obtain ⟨main, isMain, noParams⟩ := elaborates.main
  obtain ⟨statements, isMain', related⟩ := elaborates.exists_specialized isMain
  have member' := Definitions.mem_of_get? isMain'
  have pair : FunctionPair program specialized main (main.withBody statements) :=
    ⟨Definitions.mem_of_get? isMain, member', related⟩
  have typed := typed_of_programElaborates admissible elaborates
  have sameStart : specialized.entered (main.withBody statements) = program.entered main := by
    rw [Program.entered, Machine.start, elaborates.globals]
    rfl
  have follows := (followsReference admissible elaborates sufficient).execAll pair related.body
    (typed.body _ member') _ (machineTyped_entered specialized noParams)
  have parts : ∃ completion machine,
      leader.pick (Stmt.execAll specialized.functions fuel statements)
          (Reference.execAll program.functions fuel' main.body) (program.entered main) =
        (.done completion, machine) ∧ machine.globals.merge machine.innermost = state := by
    cases leader with
    | first =>
      rw [← sameStart]
      exact (Program.run_eq_done_iff isMain').mp ends
    | second => exact (Reference.run_eq_done_iff isMain).mp ends
  obtain ⟨completion, machine, leads, sameState⟩ := parts
  rw [sameStart] at follows
  obtain ⟨done, done'⟩ := follows completion machine leads
  rw [← sameStart] at done
  exact ⟨(Program.run_eq_done_iff isMain').mpr ⟨completion, machine, done, sameState⟩,
    (Reference.run_eq_done_iff isMain).mpr ⟨completion, machine, done', sameState⟩⟩

/-- A compiled program ends with a state exactly if the program that was read does, run by
the types of its values. -/
theorem run_specialized_iff_reference {config : Config} {source : String} {compiled : Compiled}
    (done : (compile config source).outcome = .ok compiled) (state : State) :
    (∃ fuel, (compiled.specialized.run fuel).outcome = .done state) ↔
      ∃ fuel, (Reference.run compiled.program fuel).outcome = .done state := by
  obtain ⟨_, admissible, elaborates⟩ := elaborates_of_compile done
  constructor
  · rintro ⟨fuel, ends⟩
    have sufficient : Leader.first.Suffices fuel fuel := Nat.le_refl fuel
    exact ⟨fuel, (outcomes_of_leader admissible elaborates sufficient ends).2⟩
  · rintro ⟨fuel, ends⟩
    have sufficient : Leader.second.Suffices (2 * fuel) fuel := Nat.le_refl (2 * fuel)
    exact ⟨2 * fuel, (outcomes_of_leader admissible elaborates sufficient ends).1⟩

/-- A program in which conversions are inserted ends with the same state both ways. -/
theorem run_specialized_iff_reference_of_conversions :
    ∃ compiled state,
      (compile .standard
        "int n; float x; int main() \x7b n = 'a'; x = n; x = n + x; \x7d").outcome = .ok compiled ∧
      (∃ fuel, (compiled.specialized.run fuel).outcome = .done state) ∧
      ∃ fuel, (Reference.run compiled.program fuel).outcome = .done state := by
  have accepted : (match (compile .standard
      "int n; float x; int main() \x7b n = 'a'; x = n; x = n + x; \x7d").outcome with
      | .ok compiled =>
        match (compiled.specialized.run 10).outcome with
        | .done _ => true
        | _ => false
      | .error _ => false) = true := by
    decide +kernel
  split at accepted
  case h_1 compiled done =>
    split at accepted
    case h_1 state ends =>
      exact ⟨compiled, state, done, ⟨10, ends⟩,
        (run_specialized_iff_reference done state).mp ⟨10, ends⟩⟩
    case h_2 => cases accepted
  case h_2 => cases accepted

end Runs

end TypedImp
