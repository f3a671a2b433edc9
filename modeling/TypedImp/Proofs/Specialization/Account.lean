import TypedImp.Proofs.Compilation

/-!
# The events of a specialization

What a specialization records can be read off the program and its specialized form: an event
for each operator behind those of its operands, and an event for each cast that only the
specialized form has.  A cast of an operand is recorded right before the operator, and a cast
of an assigned value behind all events of the value.  Two programs have one such account.
-/

namespace TypedImp

namespace Recorded

variable {ω ε α β : Type}

/-- A computation in two parts gives a result and records the events of both parts. -/
theorem bind_eq_ok_iff {first : Recorded ω ε α} {next : α → Recorded ω ε β} {events : List ω}
    {result : β} :
    first >>= next = ⟨events, .ok result⟩ ↔
      ∃ middle before behind, first = ⟨before, .ok middle⟩ ∧
        next middle = ⟨behind, .ok result⟩ ∧ before ++ behind = events := by
  obtain ⟨before, outcome⟩ := first
  cases outcome with
  | error error => simp
  | ok middle =>
    rw [mk_ok_bind]
    cases called : next middle with
    | mk behind outcome => simp [called, and_comm]

theorem eq_mk_of_outcome {computation : Recorded ω ε α} {result : α}
    (done : computation.outcome = .ok result) : computation = ⟨computation.events, .ok result⟩ := by
  obtain ⟨events, outcome⟩ := computation
  obtain rfl : outcome = .ok result := done
  rfl

theorem mapped_eq_of_outcome {ω' ε' : Type} {f : ω → ω'} {g : ε → ε'}
    {computation : Recorded ω ε α} {result : α} (done : computation.outcome = .ok result) :
    (computation.mapEvents f).mapError g = ⟨computation.events.map f, .ok result⟩ := by
  rw [eq_mk_of_outcome done]
  rfl

end Recorded

/-- Two operands are balanced by a cast to float of one of them, or by none. -/
inductive Balances (left right : Expr Ty) :
    Expr Ty → Expr Ty → List SpecializationEvent → Prop where
  | plain : Balances left right left right []
  | left : Balances left right (.unary .floatCast .int left left.span) right [.floatCast]
  | right : Balances left right left (.unary .floatCast .int right right.span) [.floatCast]

/-- A value is converted by a cast to float or to integer, or by none. -/
inductive Coerces (value : Expr Ty) : Expr Ty → List SpecializationEvent → Prop where
  | plain : Coerces value value []
  | toFloat : Coerces value (.unary .floatCast .int value value.span) [.floatCast]
  | toInt (source : Ty) :
      Coerces value (.unary .intCast source value value.span) [.intCast source]

mutual

/-- Events account for an expression and its specialized form. -/
inductive Accounts : Expr Unit → Expr Ty → List SpecializationEvent → Prop where
  | literal {value : Value} {span : Span} :
      Accounts (.literal value span) (.literal value span) []
  | var {name : Ident} {span : Span} : Accounts (.var name span) (.var name span) []
  | binary {op : BinaryOperator} {tag : Ty} {lhs rhs : Expr Unit}
      {left right left' right' : Expr Ty} {span : Span}
      {before between casts : List SpecializationEvent} (first : Accounts lhs left before)
      (second : Accounts rhs right between) (balances : Balances left right left' right' casts) :
      Accounts (.binary op () lhs rhs span) (.binary op tag left' right' span)
        (before ++ (between ++ (casts ++ [.binary op tag])))
  | unary {op : UnaryOperator} {tag : Ty} {operand : Expr Unit} {inner : Expr Ty} {span : Span}
      {before : List SpecializationEvent} (plain : Accounts operand inner before) :
      Accounts (.unary op () operand span) (.unary op tag inner span) (before ++ [.unary op tag])
  | call {callee : Ident} {arguments : List (Expr Unit)} {specialized : List (Expr Ty)}
      {callSpan span : Span} {events : List SpecializationEvent}
      (passed : AccountsAll arguments specialized events) :
      Accounts (.call callee arguments callSpan span) (.call callee specialized callSpan span)
        events

/-- Events account for expressions and their specialized forms, one after the other. -/
inductive AccountsAll :
    List (Expr Unit) → List (Expr Ty) → List SpecializationEvent → Prop where
  | nil : AccountsAll [] [] []
  | cons {expr : Expr Unit} {specialized : Expr Ty} {rest : List (Expr Unit)}
      {others : List (Expr Ty)} {events following : List SpecializationEvent}
      (first : Accounts expr specialized events) (behind : AccountsAll rest others following) :
      AccountsAll (expr :: rest) (specialized :: others) (events ++ following)

end

mutual

/-- Events account for a statement and its specialized form. -/
inductive StmtAccounts : Stmt Unit → Stmt Ty → List SpecializationEvent → Prop where
  | skip : StmtAccounts .skip .skip []
  | block {body : List (Stmt Unit)} {specialized : List (Stmt Ty)}
      {events : List SpecializationEvent} (inner : StmtsAccount body specialized events) :
      StmtAccounts (.block body) (.block specialized) events
  | assign {target : Ident} {value : Expr Unit} {plain converted : Expr Ty}
      {events casts : List SpecializationEvent} (assigned : Accounts value plain events)
      (coerces : Coerces plain converted casts) :
      StmtAccounts (.assign target value) (.assign target converted) (events ++ casts)
  | conditional {test : Expr Unit} {test' : Expr Ty} {thenBranch elseBranch : Stmt Unit}
      {thenBranch' elseBranch' : Stmt Ty} {tests chosenEvents rejectedEvents :
        List SpecializationEvent} (tested : Accounts test test' tests)
      (chosen : StmtAccounts thenBranch thenBranch' chosenEvents)
      (rejected : StmtAccounts elseBranch elseBranch' rejectedEvents) :
      StmtAccounts (.conditional test thenBranch elseBranch)
        (.conditional test' thenBranch' elseBranch') (tests ++ (chosenEvents ++ rejectedEvents))
  | loop {test : Expr Unit} {test' : Expr Ty} {body : Stmt Unit} {body' : Stmt Ty}
      {tests events : List SpecializationEvent} (tested : Accounts test test' tests)
      (repeated : StmtAccounts body body' events) :
      StmtAccounts (.loop test body) (.loop test' body') (tests ++ events)
  | call {callee : Ident} {arguments : List (Expr Unit)} {specialized : List (Expr Ty)}
      {span : Span} {events : List SpecializationEvent}
      (passed : AccountsAll arguments specialized events) :
      StmtAccounts (.call callee arguments span) (.call callee specialized span) events
  | giveBack {value : Expr Unit} {specialized : Expr Ty} {span : Span}
      {events : List SpecializationEvent} (given : Accounts value specialized events) :
      StmtAccounts (.giveBack value span) (.giveBack specialized span) events

/-- Events account for statements and their specialized forms, one after the other. -/
inductive StmtsAccount :
    List (Stmt Unit) → List (Stmt Ty) → List SpecializationEvent → Prop where
  | nil : StmtsAccount [] [] []
  | cons {stmt : Stmt Unit} {specialized : Stmt Ty} {rest : List (Stmt Unit)}
      {others : List (Stmt Ty)} {events following : List SpecializationEvent}
      (first : StmtAccounts stmt specialized events)
      (behind : StmtsAccount rest others following) :
      StmtsAccount (stmt :: rest) (specialized :: others) (events ++ following)

end

/-- Events account for functions and their specialized forms, one after the other. -/
inductive FunctionsAccount :
    List (Function Unit) → List (Function Ty) → List SpecializationEvent → Prop where
  | nil : FunctionsAccount [] [] []
  | cons {function : Function Unit} {body : List (Stmt Ty)} {rest : List (Function Unit)}
      {others : List (Function Ty)} {events following : List SpecializationEvent}
      (first : StmtsAccount function.body body events)
      (behind : FunctionsAccount rest others following) :
      FunctionsAccount (function :: rest) (function.withBody body :: others) (events ++ following)

section Recording

open Recorded

namespace TypedExpr

theorem balances_of_balance {lhs rhs left right : TypedExpr} {events : List SpecializationEvent}
    (done : balance lhs rhs = ⟨events, .ok (left, right)⟩) :
    Balances lhs.expr rhs.expr left.expr right.expr events := by
  unfold balance at done
  split at done <;> cases done
  · exact .left
  · exact .right
  · exact .plain

/-- A binary operator is recorded behind the cast of an operand, if there is one. -/
theorem exists_of_binary {op : BinaryOperator} {lhs rhs applied : TypedExpr} {span : Span}
    {events : List SpecializationEvent} (done : lhs.binary op rhs span = ⟨events, .ok applied⟩) :
    ∃ tag left right casts, Balances lhs.expr rhs.expr left right casts ∧
      applied.expr = .binary op tag left right span ∧ events = casts ++ [.binary op tag] := by
  cases isBoolean : op.isBoolean with
  | true =>
    simp only [binary, isBoolean, if_true, pure_bind] at done
    cases done
    exact ⟨_, _, _, [], .plain, rfl, rfl⟩
  | false =>
    simp only [binary, isBoolean, Bool.false_eq_true, if_false] at done
    obtain ⟨⟨left, right⟩, casts, _, balanced, tagged, rfl⟩ := bind_eq_ok_iff.mp done
    cases tagged
    exact ⟨_, _, _, casts, balances_of_balance balanced, rfl, rfl⟩

theorem coerces_of_coerce {declared : Ty} {value converted : TypedExpr}
    {events : List SpecializationEvent} (done : value.coerce declared = ⟨events, .ok converted⟩) :
    Coerces value.expr converted.expr events := by
  unfold coerce at done
  split at done <;> cases done
  · exact .toFloat
  · exact .toInt value.ty
  · exact .toInt value.ty
  · exact .plain

end TypedExpr

namespace Scope

variable {scope : Scope Unit}

theorem events_knownType {name : Ident} {ty : Ty} {events : List SpecializationEvent}
    (done : scope.knownType name = ⟨events, .ok ty⟩) : events = [] := by
  unfold knownType at done
  split at done <;> cases done
  rfl

theorem events_knownReturnType {name : Ident} {ty : Ty} {events : List SpecializationEvent}
    (done : scope.knownReturnType name = ⟨events, .ok ty⟩) : events = [] := by
  unfold knownReturnType at done
  split at done <;> cases done
  rfl

mutual

/-- What is recorded for an expression accounts for its specialized form. -/
theorem accounts_of_specializeExpr (expr : Expr Unit) {specialized : TypedExpr}
    {events : List SpecializationEvent}
    (done : scope.specializeExpr expr = ⟨events, .ok specialized⟩) :
    Accounts expr specialized.expr events := by
  match expr with
  | .literal value span =>
    rw [specializeExpr] at done
    cases done
    exact .literal
  | .var name span =>
    rw [specializeExpr] at done
    obtain ⟨ty, before, _, known, result, rfl⟩ := bind_eq_ok_iff.mp done
    obtain rfl := events_knownType known
    cases result
    exact .var
  | .binary op () lhs rhs span =>
    rw [specializeExpr] at done
    obtain ⟨left, before, _, leftDone, following, rfl⟩ := bind_eq_ok_iff.mp done
    obtain ⟨right, between, _, rightDone, applied, rfl⟩ := bind_eq_ok_iff.mp following
    obtain ⟨tag, _, _, casts, balances, isBinary, rfl⟩ := TypedExpr.exists_of_binary applied
    rw [isBinary]
    exact .binary (accounts_of_specializeExpr lhs leftDone)
      (accounts_of_specializeExpr rhs rightDone) balances
  | .unary op () operand span =>
    rw [specializeExpr] at done
    obtain ⟨inner, before, _, innerDone, applied, rfl⟩ := bind_eq_ok_iff.mp done
    cases applied
    exact .unary (accounts_of_specializeExpr operand innerDone)
  | .call callee arguments callSpan span =>
    rw [specializeExpr] at done
    obtain ⟨ty, _, _, known, following, rfl⟩ := bind_eq_ok_iff.mp done
    obtain rfl := events_knownReturnType known
    obtain ⟨passed, events, _, passedDone, result, rfl⟩ := bind_eq_ok_iff.mp following
    cases result
    rw [List.nil_append, List.append_nil]
    exact .call (accounts_of_specializeExprs arguments passedDone)

theorem accounts_of_specializeExprs (exprs : List (Expr Unit)) {specialized : List (Expr Ty)}
    {events : List SpecializationEvent}
    (done : scope.specializeExprs exprs = ⟨events, .ok specialized⟩) :
    AccountsAll exprs specialized events := by
  match exprs with
  | [] =>
    rw [specializeExprs] at done
    cases done
    exact .nil
  | first :: rest =>
    rw [specializeExprs] at done
    obtain ⟨head, before, _, headDone, following, rfl⟩ := bind_eq_ok_iff.mp done
    obtain ⟨others, behind, _, othersDone, result, rfl⟩ := bind_eq_ok_iff.mp following
    cases result
    rw [List.append_nil]
    exact .cons (accounts_of_specializeExpr first headDone)
      (accounts_of_specializeExprs rest othersDone)

end

mutual

/-- What is recorded for a statement accounts for its specialized form. -/
theorem accounts_of_specializeStmt (stmt : Stmt Unit) {specialized : Stmt Ty}
    {events : List SpecializationEvent}
    (done : scope.specializeStmt stmt = ⟨events, .ok specialized⟩) :
    StmtAccounts stmt specialized events := by
  match stmt with
  | .skip =>
    rw [specializeStmt] at done
    cases done
    exact .skip
  | .block body =>
    rw [specializeStmt] at done
    obtain ⟨inner, events, _, innerDone, result, rfl⟩ := bind_eq_ok_iff.mp done
    cases result
    rw [List.append_nil]
    exact .block (account_of_specializeStmts body innerDone)
  | .assign target value =>
    rw [specializeStmt] at done
    obtain ⟨declared, _, _, known, following, rfl⟩ := bind_eq_ok_iff.mp done
    obtain rfl := events_knownType known
    obtain ⟨plain, events, _, plainDone, remaining, rfl⟩ := bind_eq_ok_iff.mp following
    obtain ⟨converted, casts, _, coerced, result, rfl⟩ := bind_eq_ok_iff.mp remaining
    split at result <;> cases result
    rw [List.nil_append, List.append_nil]
    exact .assign (accounts_of_specializeExpr value plainDone)
      (TypedExpr.coerces_of_coerce coerced)
  | .conditional test thenBranch elseBranch =>
    rw [specializeStmt] at done
    obtain ⟨tested, _, _, testDone, following, rfl⟩ := bind_eq_ok_iff.mp done
    obtain ⟨chosen, _, _, chosenDone, remaining, rfl⟩ := bind_eq_ok_iff.mp following
    obtain ⟨rejected, _, _, rejectedDone, result, rfl⟩ := bind_eq_ok_iff.mp remaining
    cases result
    rw [List.append_nil]
    exact .conditional (accounts_of_specializeExpr test testDone)
      (accounts_of_specializeStmt thenBranch chosenDone)
      (accounts_of_specializeStmt elseBranch rejectedDone)
  | .loop test body =>
    rw [specializeStmt] at done
    obtain ⟨tested, _, _, testDone, following, rfl⟩ := bind_eq_ok_iff.mp done
    obtain ⟨repeated, _, _, bodyDone, result, rfl⟩ := bind_eq_ok_iff.mp following
    cases result
    rw [List.append_nil]
    exact .loop (accounts_of_specializeExpr test testDone)
      (accounts_of_specializeStmt body bodyDone)
  | .call callee arguments span =>
    rw [specializeStmt] at done
    obtain ⟨ty, _, _, known, following, rfl⟩ := bind_eq_ok_iff.mp done
    obtain rfl := events_knownReturnType known
    obtain ⟨passed, _, _, passedDone, result, rfl⟩ := bind_eq_ok_iff.mp following
    cases result
    rw [List.nil_append, List.append_nil]
    exact .call (accounts_of_specializeExprs arguments passedDone)
  | .giveBack value span =>
    rw [specializeStmt] at done
    obtain ⟨given, _, _, givenDone, result, rfl⟩ := bind_eq_ok_iff.mp done
    cases result
    rw [List.append_nil]
    exact .giveBack (accounts_of_specializeExpr value givenDone)

theorem account_of_specializeStmts (body : List (Stmt Unit)) {specialized : List (Stmt Ty)}
    {events : List SpecializationEvent}
    (done : scope.specializeStmts body = ⟨events, .ok specialized⟩) :
    StmtsAccount body specialized events := by
  match body with
  | [] =>
    rw [specializeStmts] at done
    cases done
    exact .nil
  | first :: rest =>
    rw [specializeStmts] at done
    obtain ⟨head, _, _, headDone, following, rfl⟩ := bind_eq_ok_iff.mp done
    obtain ⟨others, _, _, othersDone, result, rfl⟩ := bind_eq_ok_iff.mp following
    cases result
    rw [List.append_nil]
    exact .cons (accounts_of_specializeStmt first headDone)
      (account_of_specializeStmts rest othersDone)

end

end Scope

/-- What is recorded for functions, one after the other, accounts for their specialized forms. -/
theorem functionsAccount_of_traverseList
    {compute : Function Unit → Specializing (List (Stmt Ty))} {functions : List (Function Unit)}
    {specialized : List (Function Ty)} {events : List SpecializationEvent}
    (bodies : ∀ function body events, compute function = ⟨events, .ok body⟩ →
      StmtsAccount function.body body events)
    (done : Definitions.traverseList compute Function.withBody functions =
      ⟨events, .ok specialized⟩) : FunctionsAccount functions specialized events := by
  induction functions generalizing specialized events with
  | nil =>
    rw [Definitions.traverseList] at done
    cases done
    exact .nil
  | cons first rest ih =>
    rw [Definitions.traverseList] at done
    obtain ⟨body, _, _, bodyDone, following, rfl⟩ := bind_eq_ok_iff.mp done
    obtain ⟨others, _, _, othersDone, result, rfl⟩ := bind_eq_ok_iff.mp following
    cases result
    rw [List.append_nil]
    exact .cons (bodies first body _ bodyDone) (ih othersDone)

/-- Definitions that were rebuilt are the list that was rebuilt from their list. -/
theorem Definitions.traverseList_of_traverse {α β ω ε γ : Type} [Named α] [Named β]
    {definitions : Definitions α} {compute : α → Recorded ω ε γ} {rebuild : α → γ → β}
    {keepsName : ∀ item part, Named.ident (rebuild item part) = Named.ident item}
    {rebuilt : Definitions β} {events : List ω}
    (done : definitions.traverse compute rebuild keepsName = ⟨events, .ok rebuilt⟩) :
    traverseList compute rebuild definitions.toList = ⟨events, .ok rebuilt.toList⟩ := by
  have sameEvents : (traverseList compute rebuild definitions.toList).events = events :=
    congrArg Recorded.events done
  have outcome := congrArg Recorded.outcome done
  unfold traverse at outcome
  dsimp only at outcome
  split at outcome
  case h_1 listed =>
    cases outcome
    rw [← sameEvents]
    exact eq_mk_of_outcome listed
  case h_2 => cases outcome

/-- What a specialization records accounts for the specialized program. -/
theorem Program.functionsAccount_of_specialize {program : Program Unit} {specialized : Program Ty}
    {types : TypeMap} {events : List SpecializationEvent}
    (done : program.specialize types = ⟨events, .ok specialized⟩) :
    FunctionsAccount program.functions.toList specialized.functions.toList events := by
  unfold specialize at done
  obtain ⟨functions, _, _, traversed, result, rfl⟩ := bind_eq_ok_iff.mp done
  cases result
  rw [List.append_nil]
  exact functionsAccount_of_traverseList
    (fun function _ _ => Scope.account_of_specializeStmts function.body)
    (Definitions.traverseList_of_traverse traversed)

end Recording

section Uniqueness

/-- No expression has both an expression and a cast of it for its specialized form. -/
theorem Accounts.not_cast {expr : Expr Unit} {specialized : Expr Ty}
    {events others : List SpecializationEvent} {op : UnaryOperator} {tag : Ty} {span : Span}
    (accounts : Accounts expr specialized events)
    (ofCast : Accounts expr (.unary op tag specialized span) others) : False := by
  match expr with
  | .literal .. | .var .. | .binary .. | .call .. => cases ofCast
  | .unary _ () operand _ =>
    -- both are casts, so the operand has such forms again
    cases accounts with
    | unary plain =>
      cases ofCast with
      | unary cast => exact plain.not_cast cast
termination_by structural expr

/-- The operands that are balanced are known from the balanced ones. -/
theorem Balances.eq {lhs rhs : Expr Unit} {left right otherLeft otherRight left' right' : Expr Ty}
    {before between otherBefore otherBetween casts otherCasts : List SpecializationEvent}
    (balances : Balances left right left' right' casts)
    (others : Balances otherLeft otherRight left' right' otherCasts)
    (first : Accounts lhs left before) (second : Accounts rhs right between)
    (otherFirst : Accounts lhs otherLeft otherBefore)
    (otherSecond : Accounts rhs otherRight otherBetween) :
    left = otherLeft ∧ right = otherRight ∧ casts = otherCasts := by
  cases balances with
  | plain =>
    cases others with
    | plain => exact ⟨rfl, rfl, rfl⟩
    | left => exact (otherFirst.not_cast first).elim
    | right => exact (otherSecond.not_cast second).elim
  | left =>
    cases others with
    | plain => exact (first.not_cast otherFirst).elim
    | left => exact ⟨rfl, rfl, rfl⟩
    | right => exact (first.not_cast otherFirst).elim
  | right =>
    cases others with
    | plain => exact (second.not_cast otherSecond).elim
    | left => exact (otherFirst.not_cast first).elim
    | right => exact ⟨rfl, rfl, rfl⟩

/-- The value that is converted is known from the converted one. -/
theorem Coerces.eq {value : Expr Unit} {plain otherPlain converted : Expr Ty}
    {events otherEvents casts otherCasts : List SpecializationEvent}
    (coerces : Coerces plain converted casts) (others : Coerces otherPlain converted otherCasts)
    (assigned : Accounts value plain events)
    (otherAssigned : Accounts value otherPlain otherEvents) :
    plain = otherPlain ∧ casts = otherCasts := by
  cases coerces with
  | plain =>
    cases others with
    | plain => exact ⟨rfl, rfl⟩
    | toFloat | toInt => exact (otherAssigned.not_cast assigned).elim
  | toFloat =>
    cases others with
    | plain => exact (assigned.not_cast otherAssigned).elim
    | toFloat => exact ⟨rfl, rfl⟩
  | toInt =>
    cases others with
    | plain => exact (assigned.not_cast otherAssigned).elim
    | toInt => exact ⟨rfl, rfl⟩

mutual

/-- An expression and its specialized form have one account. -/
theorem Accounts.eq {expr : Expr Unit} {specialized : Expr Ty}
    {events others : List SpecializationEvent} (accounts : Accounts expr specialized events)
    (otherAccounts : Accounts expr specialized others) : events = others := by
  match accounts, otherAccounts with
  | .literal, .literal | .var, .var => rfl
  | .binary first second balances, .binary otherFirst otherSecond otherBalances =>
    obtain ⟨rfl, rfl, rfl⟩ := balances.eq otherBalances first second otherFirst otherSecond
    rw [first.eq otherFirst, second.eq otherSecond]
  | .unary plain, .unary otherPlain => rw [plain.eq otherPlain]
  | .call passed, .call otherPassed => exact passed.eq otherPassed

theorem AccountsAll.eq {exprs : List (Expr Unit)} {specialized : List (Expr Ty)}
    {events others : List SpecializationEvent} (accounts : AccountsAll exprs specialized events)
    (otherAccounts : AccountsAll exprs specialized others) : events = others := by
  match accounts, otherAccounts with
  | .nil, .nil => rfl
  | .cons first behind, .cons otherFirst otherBehind =>
    rw [first.eq otherFirst, behind.eq otherBehind]

end

mutual

/-- A statement and its specialized form have one account. -/
theorem StmtAccounts.eq {stmt : Stmt Unit} {specialized : Stmt Ty}
    {events others : List SpecializationEvent} (accounts : StmtAccounts stmt specialized events)
    (otherAccounts : StmtAccounts stmt specialized others) : events = others := by
  match accounts, otherAccounts with
  | .skip, .skip => rfl
  | .block inner, .block otherInner => exact inner.eq otherInner
  | .assign assigned coerces, .assign otherAssigned otherCoerces =>
    obtain ⟨rfl, rfl⟩ := coerces.eq otherCoerces assigned otherAssigned
    rw [assigned.eq otherAssigned]
  | .conditional tested chosen rejected, .conditional otherTested otherChosen otherRejected =>
    rw [tested.eq otherTested, chosen.eq otherChosen, rejected.eq otherRejected]
  | .loop tested repeated, .loop otherTested otherRepeated =>
    rw [tested.eq otherTested, repeated.eq otherRepeated]
  | .call passed, .call otherPassed => exact passed.eq otherPassed
  | .giveBack given, .giveBack otherGiven => exact given.eq otherGiven

theorem StmtsAccount.eq {body : List (Stmt Unit)} {specialized : List (Stmt Ty)}
    {events others : List SpecializationEvent} (accounts : StmtsAccount body specialized events)
    (otherAccounts : StmtsAccount body specialized others) : events = others := by
  match accounts, otherAccounts with
  | .nil, .nil => rfl
  | .cons first behind, .cons otherFirst otherBehind =>
    rw [first.eq otherFirst, behind.eq otherBehind]

end

/-- Functions and their specialized forms have one account. -/
theorem FunctionsAccount.eq {functions : List (Function Unit)} {specialized : List (Function Ty)}
    {events others : List SpecializationEvent}
    (accounts : FunctionsAccount functions specialized events)
    (otherAccounts : FunctionsAccount functions specialized others) : events = others := by
  induction accounts generalizing others with
  | nil =>
    cases otherAccounts
    rfl
  | cons first _ ih =>
    cases otherAccounts with
    | cons otherFirst otherBehind => rw [first.eq otherFirst, ih otherBehind]

end Uniqueness

section Compilation

/-- The event of a specialization that an event of a run is, if it is one. -/
def Event.specialization? : Event → Option SpecializationEvent
  | .specialized event => some event
  | .registered _ | .parsed _ | .checking _ | .checked _ | .call _ | .finished _ => none

/-- The events of a compilation, without those of the other stages, are what its specialization
recorded. -/
theorem filterMap_events_compile {config : Config} {source : String} {compiled : Compiled}
    (done : (compile config source).outcome = .ok compiled) :
    (compile config source).events.filterMap Event.specialization? =
      (compiled.program.specialize compiled.types).events := by
  obtain ⟨_, read, checked, types, specialized⟩ := compile_eq_ok_iff.mp done
  rw [types] at specialized ⊢
  have ofRegistrations (events : List Registration) :
      (events.map Event.registered).filterMap Event.specialization? = [] := by
    simp [List.filterMap_map, Function.comp_def, Event.specialization?]
  have ofChecks (events : List FunctionCheck) :
      (events.map Event.checking).filterMap Event.specialization? = [] := by
    simp [List.filterMap_map, Function.comp_def, Event.specialization?]
  have ofSpecialization (events : List SpecializationEvent) :
      (events.map Event.specialized).filterMap Event.specialization? = events := by
    simp [List.filterMap_map, Function.comp_def, Event.specialization?]
  simp only [compile, Recorded.mapped_eq_of_outcome read, Recorded.mapped_eq_of_outcome checked,
    Recorded.mapped_eq_of_outcome specialized, Recorded.record, Recorded.mk_ok_bind,
    Recorded.pure_eq, List.filterMap_append, ofRegistrations, ofChecks, ofSpecialization]
  simp [List.filterMap_cons, Event.specialization?]

/-- The events of the specialization in the log of a compilation are the account of the two
programs, and no other events are. -/
theorem specialization_log {config : Config} {source : String} {compiled : Compiled}
    (done : (compile config source).outcome = .ok compiled) (events : List SpecializationEvent) :
    FunctionsAccount compiled.program.functions.toList compiled.specialized.functions.toList
        events ↔
      events = (compile config source).events.filterMap Event.specialization? := by
  obtain ⟨_, _, _, _, specialized⟩ := compile_eq_ok_iff.mp done
  have account :=
    Program.functionsAccount_of_specialize (Recorded.eq_mk_of_outcome specialized)
  rw [filterMap_events_compile done]
  constructor
  · exact fun other => other.eq account
  · rintro rfl
    exact account

/-- In `int('a') + 1.5` the operand is cast behind the events of both operands, and the value
that is assigned to an integer behind all events. -/
theorem specialization_log_of_mixedSum :
    ∃ compiled, (compile .standard
        "int main() \x7b int n; n = int('a') + 1.5 * 2.0; \x7d").outcome = .ok compiled ∧
      FunctionsAccount compiled.program.functions.toList compiled.specialized.functions.toList
        [.unary .intCast .char, .binary .mul .float, .floatCast, .binary .add .float,
          .intCast .float] := by
  have tested : (compile .standard
      "int main() \x7b int n; n = int('a') + 1.5 * 2.0; \x7d").outcome.toOption.any
        (fun _ => true) = true := by
    decide +kernel
  obtain ⟨compiled, done, _⟩ := exists_compiled tested
  exact ⟨compiled, done, (specialization_log done _).mpr (by decide +kernel)⟩

end Compilation

end TypedImp
