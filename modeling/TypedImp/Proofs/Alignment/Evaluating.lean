import TypedImp.Evaluation.Run
import TypedImp.Proofs.Alignment.Basic
import TypedImp.Proofs.Evaluation.Keeps

/-!
# Running the same program at other places

An evaluation uses spans for its failures only.  The same program does the same to the
machine wherever it stands, and it fails for the same reason at places that correspond.

The induction is on the fuel: a call leads from its arguments to another body.
-/

namespace TypedImp.Alignment

variable (alignment : Alignment)

/-- One failure at two places, one result, or no outcome in either case. -/
inductive SameOutcome {α : Type} : Outcome α → Outcome α → Prop where
  | done (result : α) : SameOutcome (.done result) (.done result)
  | failed (error : RunError) {span span' : Span} (spans : alignment.spans span span') :
      SameOutcome (.failed ⟨span, error⟩) (.failed ⟨span', error⟩)
  | outOfFuel : SameOutcome .outOfFuel .outOfFuel

/-- From every machine two evaluations have the same outcome and leave the same machine. -/
def SameEvaluation {α : Type} (first second : Evaluation α) : Prop :=
  ∀ machine, alignment.SameOutcome (first machine).1 (second machine).1 ∧
    (first machine).2 = (second machine).2

variable {alignment}

section Rules

variable {α β : Type}

theorem sameEvaluation_pure (result : α) :
    alignment.SameEvaluation (pure result) (pure result) :=
  fun _ => ⟨.done result, rfl⟩

theorem sameEvaluation_stuck : alignment.SameEvaluation (.stuck : Evaluation α) .stuck :=
  fun _ => ⟨.outOfFuel, rfl⟩

theorem sameEvaluation_fail {span span' : Span} (spans : alignment.spans span span')
    (error : RunError) :
    alignment.SameEvaluation (.fail span error : Evaluation α) (.fail span' error) :=
  fun _ => ⟨.failed error spans, rfl⟩

theorem sameEvaluation_ofExcept {span span' : Span} (spans : alignment.spans span span')
    (outcome : Except RunError α) :
    alignment.SameEvaluation (.ofExcept span outcome) (.ofExcept span' outcome) := by
  cases outcome with
  | ok result => exact sameEvaluation_pure result
  | error error => exact sameEvaluation_fail spans error

theorem SameEvaluation.bind {first second : Evaluation α} {next next' : α → Evaluation β}
    (same : alignment.SameEvaluation first second)
    (following : ∀ result, alignment.SameEvaluation (next result) (next' result)) :
    alignment.SameEvaluation (first >>= next) (second >>= next') := by
  intro machine
  obtain ⟨outcomes, machines⟩ := same machine
  rw [Evaluation.bind_apply, Evaluation.bind_apply]
  generalize first machine = final, second machine = final' at outcomes machines
  obtain ⟨outcome, left⟩ := final
  obtain ⟨outcome', _⟩ := final'
  obtain rfl := machines
  cases outcomes with
  | done result => exact following result left
  | failed error spans => exact ⟨.failed error spans, rfl⟩
  | outOfFuel => exact ⟨.outOfFuel, rfl⟩

theorem sameEvaluation_read {name name' : Ident} (names : alignment.SameIdent name name')
    {span span' : Span} (spans : alignment.spans span span') :
    alignment.SameEvaluation (.read name span) (.read name' span') := by
  intro machine
  rw [Evaluation.read_apply, Evaluation.read_apply, ← names.name]
  cases machine.lookup name.name with
  | none => exact ⟨.failed _ spans, rfl⟩
  | some value => exact ⟨.done value, rfl⟩

theorem sameEvaluation_store {target target' : Ident}
    (targets : alignment.SameIdent target target') (stored : Value) :
    alignment.SameEvaluation (.store target stored) (.store target' stored) := by
  intro machine
  rw [Evaluation.store_apply, Evaluation.store_apply, ← targets.name]
  cases machine.assign? target.name stored with
  | none => exact ⟨.failed _ targets.span, rfl⟩
  | some assigned => exact ⟨.done (), rfl⟩

end Rules

section Frames

theorem SameVariables.undefined {first second : Definitions Declaration}
    (same : alignment.SameVariables first second) :
    State.undefined first = State.undefined second := by
  unfold State.undefined TypeMap.ofDeclarations
  rw [same.overlay]

theorem foldl_zip_eq {params params' : List Declaration}
    (same : List.Forall₂ alignment.SameDeclaration params params') (values : List Value)
    (state : State) :
    (params.zip values).foldl (fun state (param, value) => state.insert param.name.name value)
        state =
      (params'.zip values).foldl (fun state (param, value) => state.insert param.name.name value)
        state := by
  induction same generalizing values state with
  | nil => rfl
  | cons head _ ih =>
    cases values with
    | nil => rfl
    | cons value values =>
      simp only [List.zip_cons_cons, List.foldl_cons]
      rw [head.name.name, ih]

/-- A call begins with the same frame. -/
theorem SameFunction.frame {function function' : Function Ty}
    (same : alignment.SameFunction function function') (values : List Value) :
    function.frame values = function'.frame values := by
  unfold Function.frame
  rw [same.locals.undefined, foldl_zip_eq same.params]

theorem SameFunction.push {function function' : Function Ty}
    (same : alignment.SameFunction function function') (machine : Machine)
    (values : List Value) : machine.push function values = machine.push function' values := by
  unfold Machine.push
  rw [same.name.name, same.frame]

theorem sameEvaluation_inFrame {function function' : Function Ty}
    (same : alignment.SameFunction function function') (values : List Value) {span span' : Span}
    (spans : alignment.spans span span') {body body' : Evaluation Completion}
    (bodies : alignment.SameEvaluation body body') :
    alignment.SameEvaluation (.inFrame function values span body)
      (.inFrame function' values span' body') := by
  intro machine
  rw [Evaluation.inFrame_apply, Evaluation.inFrame_apply, ← same.push]
  split
  case isTrue =>
    obtain ⟨outcomes, machines⟩ := bodies (machine.push function values)
    generalize body (machine.push function values) = final,
      body' (machine.push function values) = final' at outcomes machines
    obtain ⟨outcome, left⟩ := final
    obtain ⟨outcome', _⟩ := final'
    obtain rfl := machines
    cases outcomes with
    | done completion => exact ⟨.done _, rfl⟩
    | failed error spans => exact ⟨.failed error spans, rfl⟩
    | outOfFuel => exact ⟨.outOfFuel, rfl⟩
  case isFalse => exact ⟨.failed _ spans, rfl⟩

end Frames

section Syntax

variable {functions functions' : Definitions (Function Ty)}

mutual

theorem SameExpr.eval
    (calls : alignment.SameFunctions functions functions') (fuel : Nat) {expr expr' : Expr Ty}
    (same : alignment.SameExpr expr expr') :
    alignment.SameEvaluation (Expr.eval functions fuel expr)
      (Expr.eval functions' fuel expr') := by
  cases fuel with
  | zero =>
    simp only [Expr.eval]
    exact sameEvaluation_stuck
  | succ fuel =>
    cases same with
    | literal value _ =>
      simp only [Expr.eval]
      exact sameEvaluation_pure value
    | var names spans =>
      simp only [Expr.eval]
      exact sameEvaluation_read names spans
    | binary op tag first second spans =>
      simp only [Expr.eval]
      apply (first.eval calls fuel).bind
      intro left
      apply (second.eval calls fuel).bind
      intro right
      exact sameEvaluation_ofExcept spans _
    | unary op tag inner spans =>
      simp only [Expr.eval]
      apply (inner.eval calls fuel).bind
      intro value
      exact sameEvaluation_ofExcept spans _
    | call callees passed callSpans spans =>
      simp only [Expr.eval]
      apply (sameEvaluation_callFunction calls fuel callees passed callSpans).bind
      intro result
      rw [← callees.name]
      cases result with
      | none => exact sameEvaluation_fail spans _
      | some value => exact sameEvaluation_pure value

theorem SameExprs.evalAll
    (calls : alignment.SameFunctions functions functions') (fuel : Nat)
    {exprs exprs' : List (Expr Ty)} (same : alignment.SameExprs exprs exprs') :
    alignment.SameEvaluation (Expr.evalAll functions fuel exprs)
      (Expr.evalAll functions' fuel exprs') := by
  cases fuel with
  | zero =>
    simp only [Expr.evalAll]
    exact sameEvaluation_stuck
  | succ fuel =>
    cases same with
    | nil =>
      simp only [Expr.evalAll]
      exact sameEvaluation_pure []
    | cons head following =>
      simp only [Expr.evalAll]
      apply (head.eval calls fuel).bind
      intro value
      apply (following.evalAll calls fuel).bind
      intro values
      exact sameEvaluation_pure _

theorem sameEvaluation_callFunction
    (calls : alignment.SameFunctions functions functions') (fuel : Nat) {callee callee' : Ident}
    (callees : alignment.SameIdent callee callee') {arguments arguments' : List (Expr Ty)}
    (passed : alignment.SameExprs arguments arguments') {span span' : Span}
    (spans : alignment.spans span span') :
    alignment.SameEvaluation (callFunction functions fuel callee arguments span)
      (callFunction functions' fuel callee' arguments' span') := by
  cases fuel with
  | zero =>
    simp only [callFunction]
    exact sameEvaluation_stuck
  | succ fuel =>
    simp only [callFunction]
    rw [← callees.name]
    have found := calls callee.name
    generalize functions.get? callee.name = function, functions'.get? callee.name = function'
      at found
    cases found with
    | none => exact sameEvaluation_fail callees.span _
    | some sameFunction =>
      -- The bodies are no parts of the call; only the fuel has become less.
      apply (passed.evalAll calls fuel).bind
      intro values
      exact sameEvaluation_inFrame sameFunction values spans (sameFunction.body.execAll calls fuel)

theorem SameExpr.evalTest
    (calls : alignment.SameFunctions functions functions') (fuel : Nat) {test test' : Expr Ty}
    (same : alignment.SameExpr test test') :
    alignment.SameEvaluation (Expr.evalTest functions fuel test)
      (Expr.evalTest functions' fuel test') := by
  cases fuel with
  | zero =>
    simp only [Expr.evalTest]
    exact sameEvaluation_stuck
  | succ fuel =>
    simp only [Expr.evalTest]
    apply (same.eval calls fuel).bind
    intro value
    exact sameEvaluation_ofExcept same.span _

theorem SameStmt.exec
    (calls : alignment.SameFunctions functions functions') (fuel : Nat) {stmt stmt' : Stmt Ty}
    (same : alignment.SameStmt stmt stmt') :
    alignment.SameEvaluation (Stmt.exec functions fuel stmt)
      (Stmt.exec functions' fuel stmt') := by
  cases fuel with
  | zero =>
    simp only [Stmt.exec]
    exact sameEvaluation_stuck
  | succ fuel =>
    cases same with
    | skip =>
      simp only [Stmt.exec]
      exact sameEvaluation_pure _
    | block inner =>
      simp only [Stmt.exec]
      exact inner.execAll calls fuel
    | assign targets values =>
      simp only [Stmt.exec]
      apply (values.eval calls fuel).bind
      intro stored
      apply (sameEvaluation_store targets stored).bind
      intro _
      exact sameEvaluation_pure _
    | conditional tests chosen rejected =>
      simp only [Stmt.exec]
      apply (tests.evalTest calls fuel).bind
      intro truth
      cases truth with
      | true => exact chosen.exec calls fuel
      | false => exact rejected.exec calls fuel
    | loop tests inner =>
      simp only [Stmt.exec]
      apply (tests.evalTest calls fuel).bind
      intro truth
      cases truth with
      | true =>
        apply (inner.exec calls fuel).bind
        intro completion
        cases completion with
        | normal => exact (SameStmt.loop tests inner).exec calls fuel
        | returned value => exact sameEvaluation_pure _
      | false => exact sameEvaluation_pure _
    | call callees passed spans =>
      simp only [Stmt.exec]
      apply (sameEvaluation_callFunction calls fuel callees passed spans).bind
      intro _
      exact sameEvaluation_pure _
    | giveBack values _ =>
      simp only [Stmt.exec]
      apply (values.eval calls fuel).bind
      intro result
      exact sameEvaluation_pure _

theorem SameStmts.execAll
    (calls : alignment.SameFunctions functions functions') (fuel : Nat)
    {body body' : List (Stmt Ty)} (same : alignment.SameStmts body body') :
    alignment.SameEvaluation (Stmt.execAll functions fuel body)
      (Stmt.execAll functions' fuel body') := by
  cases fuel with
  | zero =>
    simp only [Stmt.execAll]
    exact sameEvaluation_stuck
  | succ fuel =>
    cases same with
    | nil =>
      simp only [Stmt.execAll]
      exact sameEvaluation_pure _
    | cons head following =>
      simp only [Stmt.execAll]
      apply (head.exec calls fuel).bind
      intro completion
      cases completion with
      | normal => exact following.execAll calls fuel
      | returned value => exact sameEvaluation_pure _

end

end Syntax

/-- The same program runs alike, if it has a function to begin with. -/
theorem SameNames.run {program program' : Program Ty}
    (same : alignment.SameNames program program') {main : Function Ty}
    (isMain : program.main? = some main) (fuel : Nat) :
    alignment.SameOutcome (program.run fuel).outcome (program'.run fuel).outcome ∧
      (program.run fuel).log = (program'.run fuel).log := by
  have found := same.functions Program.mainName
  unfold Program.main? at isMain
  unfold Program.run Program.main?
  rw [isMain] at found ⊢
  generalize program'.functions.get? Program.mainName = other at found ⊢
  cases found with
  | @some _ main' mains =>
    have start : (Machine.start program).push main [] = (Machine.start program').push main' [] := by
      rw [mains.push, Machine.start, same.globals.undefined]
      rfl
    dsimp only
    rw [← start]
    obtain ⟨outcomes, machines⟩ :=
      mains.body.execAll same.functions fuel ((Machine.start program).push main [])
    generalize Stmt.execAll program.functions fuel main.body _ = final,
      Stmt.execAll program'.functions fuel main'.body _ = final' at outcomes machines ⊢
    obtain ⟨outcome, left⟩ := final
    obtain ⟨outcome', _⟩ := final'
    obtain rfl := machines
    cases outcomes with
    | done completion => exact ⟨.done _, rfl⟩
    | failed error spans => exact ⟨.failed error spans, rfl⟩
    | outOfFuel => exact ⟨.outOfFuel, rfl⟩

end TypedImp.Alignment
