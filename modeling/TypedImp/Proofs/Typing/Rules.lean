import Mathlib.Data.List.Forall2
import TypedImp.Proofs.Program.Nodes
import TypedImp.Proofs.Typing.Checking

/-!
# The typing rules

Each statement and each expression has a rule of its own, which speaks of the types of its
direct parts.  A program keeps the rules if every statement and every expression in it does,
at any depth.  The check accepts exactly these programs: `checkExpr_eq_ok_iff` for
expressions, `checkStmt_eq_ok_iff` for statements, `checkReturns_eq_ok_iff` for the places of
`giveBack`.
-/

namespace TypedImp

variable {τ : Type}

/-- The types that a binary operator can be applied to. -/
inductive BinaryOperator.Takes : BinaryOperator → Ty → Ty → Prop where
  | arithmetic {op : BinaryOperator} {lhs rhs : Ty} (isArithmetic : op.isArithmetic = true)
      (left : lhs = .int ∨ lhs = .float) (right : rhs = .int ∨ rhs = .float) : Takes op lhs rhs
  | numbers {op : BinaryOperator} {lhs rhs : Ty} (isRelational : op.isRelational = true)
      (left : lhs = .int ∨ lhs = .float) (right : rhs = .int ∨ rhs = .float) : Takes op lhs rhs
  | characters {op : BinaryOperator} (isRelational : op.isRelational = true) :
      Takes op .char .char
  | equality : Takes .eq .bool .bool
  | inequality : Takes .ne .bool .bool
  | logic {op : BinaryOperator} (isBoolean : op.isBoolean = true) : Takes op .bool .bool

/-- The types that a unary operator can be applied to. -/
inductive UnaryOperator.Takes : UnaryOperator → Ty → Prop where
  | not : Takes .not .bool
  | negInt : Takes .neg .int
  | negFloat : Takes .neg .float
  | truncate : Takes .intCast .float
  | code : Takes .intCast .char
  | widen : Takes .floatCast .int
  | character : Takes .charCast .int

/-- The types that can be stored in a variable of a declared type. -/
inductive Config.Stores (config : Config) : (declared assigned : Ty) → Prop where
  | same {ty : Ty} : Stores config ty ty
  | intToFloat : Stores config .float .int
  | charToInt : Stores config .int .char
  | floatToInt (narrowing : config.narrowing = true) : Stores config .int .float

theorem BinaryOperator.accepts_iff_takes {op : BinaryOperator} {lhs rhs : Ty} :
    op.accepts lhs rhs = true ↔ op.Takes lhs rhs := by
  constructor
  · intro accepted
    rcases op.family_cases with isBoolean | isRelational | isArithmetic
    · have types : lhs = .bool ∧ rhs = .bool := by
        cases op <;> simp_all [accepts, BinaryOperator.isBoolean, BinaryOperator.isArithmetic,
          BinaryOperator.isRelational]
      obtain ⟨rfl, rfl⟩ := types
      exact .logic isBoolean
    · have notArithmetic : op.isArithmetic = false := by
        cases op <;> simp_all [BinaryOperator.isArithmetic, BinaryOperator.isRelational]
      rw [accepts, notArithmetic, if_neg Bool.false_ne_true, if_pos isRelational] at accepted
      cases lhs <;> cases rhs <;> simp [comparable, Ty.isNumeric] at accepted
      case bool.bool =>
        rcases accepted with rfl | rfl
        · exact .equality
        · exact .inequality
      case char.char => exact .characters isRelational
      all_goals exact .numbers isRelational (by simp) (by simp)
    · rw [accepts, if_pos isArithmetic] at accepted
      cases lhs <;> cases rhs <;> simp [Ty.isNumeric] at accepted
      all_goals exact .arithmetic isArithmetic (by simp) (by simp)
  · intro takes
    cases takes with
    | arithmetic isArithmetic left right =>
      rcases left with rfl | rfl <;> rcases right with rfl | rfl <;>
        simp [accepts, isArithmetic, Ty.isNumeric]
    | numbers isRelational left right =>
      rcases left with rfl | rfl <;> rcases right with rfl | rfl <;>
        simp [accepts, isRelational, comparable, Ty.isNumeric]
    | characters isRelational =>
      cases op <;> simp_all [accepts, comparable, BinaryOperator.isArithmetic,
        BinaryOperator.isRelational]
    | equality => rfl
    | inequality => rfl
    | logic isBoolean =>
      cases op <;> simp_all [accepts, BinaryOperator.isBoolean, BinaryOperator.isArithmetic,
        BinaryOperator.isRelational]

theorem UnaryOperator.accepts_iff_takes {op : UnaryOperator} {operand : Ty} :
    op.accepts operand = true ↔ op.Takes operand := by
  constructor
  · intro accepted
    cases op <;> cases operand <;> simp [accepts, Ty.isNumeric] at accepted <;> constructor
  · intro takes
    cases takes <;> rfl

theorem Config.assignable_iff_stores {config : Config} {declared assigned : Ty} :
    config.assignable declared assigned = true ↔ config.Stores declared assigned := by
  constructor
  · intro assignable
    by_cases same : declared = assigned
    · subst same
      exact .same
    · cases declared <;> cases assigned <;> simp [Config.assignable] at assignable same
      case int.char => exact .charToInt
      case int.float => exact .floatToInt assignable
      case float.int => exact .intToFloat
  · intro stores
    cases stores with
    | same => exact config.assignable_self declared
    | intToFloat => rfl
    | charToInt => rfl
    | floatToInt narrowing => exact narrowing

namespace Scope

variable {scope : Scope τ}

/-- A call names a function, and its arguments have the types of the parameters in the same
places. -/
def CallRule (scope : Scope τ) (callee : Ident) (arguments : List (Expr τ)) : Prop :=
  ∃ function, scope.functions.get? callee.name = some function ∧
    List.Forall₂ (fun argument param => scope.typeOf argument = .ok param.ty) arguments
      function.params.toList

/-- The rule of an expression, without the rules of the expressions in it. -/
def ExprRule (scope : Scope τ) : Expr τ → Prop
  | .literal _ _ => True
  | .var name _ => ∃ ty, scope.types.get? name.name = some ty
  | .binary op _ lhs rhs _ =>
    ∃ left right, scope.typeOf lhs = .ok left ∧ scope.typeOf rhs = .ok right ∧
      op.Takes left right
  | .unary op _ operand _ => ∃ inner, scope.typeOf operand = .ok inner ∧ op.Takes inner
  | .call callee arguments _ _ => scope.CallRule callee arguments

/-- The rule of a statement of a function that gives `returnTy`, without the rules of the
statements and expressions in it. -/
def StmtRule (scope : Scope τ) (config : Config) (returnTy : Ty) : Stmt τ → Prop
  | .skip | .block _ => True
  | .assign target value =>
    ∃ declared assigned, scope.types.get? target.name = some declared ∧
      scope.typeOf value = .ok assigned ∧ config.Stores declared assigned
  | .conditional test _ _ | .loop test _ => scope.typeOf test = .ok .bool
  | .call callee arguments _ => scope.CallRule callee arguments
  | .giveBack value _ => scope.typeOf value = .ok returnTy

mutual

/-- An expression is accepted with a type if every expression in it keeps its rule and the
type is its own. -/
theorem checkExpr_eq_ok_iff (expr : Expr τ) {ty : Ty} :
    scope.checkExpr expr = .ok ty ↔
      expr.Every scope.ExprRule ∧ scope.typeOf expr = .ok ty := by
  match expr with
  | .literal value span => simp [checkExpr, typeOf, Expr.Every, ExprRule]
  | .var name span =>
    simp only [checkExpr, typeOf, Expr.Every, ExprRule, variableType_eq_ok_iff]
    exact ⟨fun declared => ⟨⟨ty, declared⟩, declared⟩, And.right⟩
  | .binary op tag lhs rhs span =>
    simp only [checkExpr, typeOf, Expr.Every, ExprRule, except_bind_eq_ok_iff,
      require_eq_ok_iff, BinaryOperator.accepts_iff_takes, checkExpr_eq_ok_iff lhs,
      checkExpr_eq_ok_iff rhs]
    constructor
    · rintro ⟨left, ⟨leftKept, leftTy⟩, right, ⟨rightKept, rightTy⟩, _, takes, result⟩
      exact ⟨⟨leftKept, rightKept, left, right, leftTy, rightTy, takes⟩, left, leftTy, right,
        rightTy, result⟩
    · rintro ⟨⟨leftKept, rightKept, left, right, leftTy, rightTy, takes⟩, _, leftTy', _,
        rightTy', result⟩
      obtain rfl := Except.ok.inj (leftTy.symm.trans leftTy')
      obtain rfl := Except.ok.inj (rightTy.symm.trans rightTy')
      exact ⟨left, ⟨leftKept, leftTy⟩, right, ⟨rightKept, rightTy⟩, (), takes, result⟩
  | .unary op tag operand span =>
    simp only [checkExpr, typeOf, Expr.Every, ExprRule, except_bind_eq_ok_iff,
      require_eq_ok_iff, UnaryOperator.accepts_iff_takes, checkExpr_eq_ok_iff operand]
    constructor
    · rintro ⟨inner, ⟨kept, innerTy⟩, _, takes, result⟩
      exact ⟨⟨kept, inner, innerTy, takes⟩, inner, innerTy, result⟩
    · rintro ⟨⟨kept, inner, innerTy, takes⟩, _, innerTy', result⟩
      obtain rfl := Except.ok.inj (innerTy.symm.trans innerTy')
      exact ⟨inner, ⟨kept, innerTy⟩, (), takes, result⟩
  | .call callee arguments callSpan span =>
    simp only [checkExpr, typeOf, Expr.Every, ExprRule, CallRule, except_bind_eq_ok_iff,
      require_eq_ok_iff, callee_eq_ok_iff, decide_eq_true_eq]
    constructor
    · rintro ⟨function, found, _, sameLength, _, passed, result⟩
      obtain ⟨kept, fit⟩ := (checkArguments_eq_ok_iff sameLength).mp passed
      exact ⟨⟨kept, function, found, fit⟩, function, found, result⟩
    · rintro ⟨⟨kept, function, found, fit⟩, _, found', result⟩
      obtain rfl := Option.some.inj (found.symm.trans found')
      have sameLength := fit.length_eq.symm
      exact ⟨function, found, (), sameLength, (),
        (checkArguments_eq_ok_iff sameLength).mpr ⟨kept, fit⟩, result⟩

theorem checkArguments_eq_ok_iff {arguments : List (Expr τ)} {params : List Declaration}
    (sameLength : params.length = arguments.length) :
    scope.checkArguments arguments params = .ok () ↔
      Expr.EveryOf scope.ExprRule arguments ∧
        List.Forall₂ (fun argument param => scope.typeOf argument = .ok param.ty) arguments
          params := by
  match arguments, params with
  | [], [] => exact ⟨fun _ => ⟨trivial, .nil⟩, fun _ => rfl⟩
  | argument :: arguments, param :: params =>
    simp only [checkArguments, Expr.EveryOf, List.forall₂_cons, except_bind_eq_ok_iff,
      require_eq_ok_iff, decide_eq_true_eq, checkExpr_eq_ok_iff argument,
      checkArguments_eq_ok_iff (Nat.succ.inj sameLength)]
    constructor
    · rintro ⟨ty, ⟨kept, argumentTy⟩, _, rfl, restKept, fit⟩
      exact ⟨⟨kept, restKept⟩, argumentTy, fit⟩
    · rintro ⟨⟨kept, restKept⟩, argumentTy, fit⟩
      exact ⟨param.ty, ⟨kept, argumentTy⟩, (), rfl, restKept, fit⟩

end

theorem checkTest_eq_ok_iff {test : Expr τ} {result : Unit} :
    scope.checkTest test = .ok result ↔
      test.Every scope.ExprRule ∧ scope.typeOf test = .ok .bool := by
  simp only [checkTest, except_bind_eq_ok_iff, require_eq_ok_iff, decide_eq_true_eq,
    checkExpr_eq_ok_iff]
  constructor
  · rintro ⟨_, kept, rfl⟩
    exact kept
  · intro kept
    exact ⟨.bool, kept, rfl⟩

mutual

/-- A statement is accepted if every statement and every expression in it keeps its rule. -/
theorem checkStmt_eq_ok_iff {config : Config} {returnTy : Ty} (stmt : Stmt τ) :
    scope.checkStmt config returnTy stmt = .ok () ↔
      stmt.Throughout (scope.StmtRule config returnTy) ∧ stmt.Every scope.ExprRule := by
  match stmt with
  | .skip => exact ⟨fun _ => ⟨trivial, trivial⟩, fun _ => rfl⟩
  | .block body =>
    simp only [checkStmt, Stmt.Throughout, Stmt.Every, StmtRule, and_true,
      checkStmts_eq_ok_iff body]
  | .assign target value =>
    simp only [checkStmt, Stmt.Throughout, Stmt.Every, StmtRule, except_bind_eq_ok_iff,
      require_eq_ok_iff, variableType_eq_ok_iff, Config.assignable_iff_stores,
      checkExpr_eq_ok_iff]
    constructor
    · rintro ⟨declared, isDeclared, assigned, ⟨kept, valueTy⟩, stores⟩
      exact ⟨⟨declared, assigned, isDeclared, valueTy, stores⟩, kept⟩
    · rintro ⟨⟨declared, assigned, isDeclared, valueTy, stores⟩, kept⟩
      exact ⟨declared, isDeclared, assigned, ⟨kept, valueTy⟩, stores⟩
  | .conditional test thenBranch elseBranch =>
    simp only [checkStmt, Stmt.Throughout, Stmt.Every, StmtRule, except_bind_eq_ok_iff,
      checkTest_eq_ok_iff, checkStmt_eq_ok_iff thenBranch,
      checkStmt_eq_ok_iff elseBranch]
    constructor
    · rintro ⟨_, ⟨testKept, testTy⟩, _, ⟨thenRules, thenKept⟩, elseRules, elseKept⟩
      exact ⟨⟨thenRules, elseRules, testTy⟩, testKept, thenKept, elseKept⟩
    · rintro ⟨⟨thenRules, elseRules, testTy⟩, testKept, thenKept, elseKept⟩
      exact ⟨(), ⟨testKept, testTy⟩, (), ⟨thenRules, thenKept⟩, elseRules, elseKept⟩
  | .loop test body =>
    simp only [checkStmt, Stmt.Throughout, Stmt.Every, StmtRule, except_bind_eq_ok_iff,
      checkTest_eq_ok_iff, checkStmt_eq_ok_iff body]
    constructor
    · rintro ⟨_, ⟨testKept, testTy⟩, bodyRules, bodyKept⟩
      exact ⟨⟨bodyRules, testTy⟩, testKept, bodyKept⟩
    · rintro ⟨⟨bodyRules, testTy⟩, testKept, bodyKept⟩
      exact ⟨(), ⟨testKept, testTy⟩, bodyRules, bodyKept⟩
  | .call callee arguments span =>
    simp only [checkStmt, checkCall, Stmt.Throughout, Stmt.Every, StmtRule,
      except_bind_eq_ok_iff, checkExpr_eq_ok_iff, Expr.Every, ExprRule]
    constructor
    · rintro ⟨_, ⟨⟨kept, rule⟩, _⟩, _⟩
      exact ⟨rule, kept⟩
    · rintro ⟨rule, kept⟩
      obtain ⟨function, found, fit⟩ := rule
      refine ⟨function.returnTy, ⟨⟨kept, function, found, fit⟩, ?_⟩, rfl⟩
      simp only [typeOf, except_bind_eq_ok_iff, callee_eq_ok_iff]
      exact ⟨function, found, rfl⟩
  | .giveBack value span =>
    simp only [checkStmt, Stmt.Throughout, Stmt.Every, StmtRule, except_bind_eq_ok_iff,
      require_eq_ok_iff, decide_eq_true_eq, checkExpr_eq_ok_iff]
    constructor
    · rintro ⟨_, ⟨kept, valueTy⟩, rfl⟩
      exact ⟨valueTy, kept⟩
    · rintro ⟨valueTy, kept⟩
      exact ⟨returnTy, ⟨kept, valueTy⟩, rfl⟩

theorem checkStmts_eq_ok_iff {config : Config} {returnTy : Ty} (body : List (Stmt τ)) :
    scope.checkStmts config returnTy body = .ok () ↔
      Stmt.ThroughoutAll (scope.StmtRule config returnTy) body ∧
        Stmt.EveryOf scope.ExprRule body := by
  match body with
  | [] => exact ⟨fun _ => ⟨trivial, trivial⟩, fun _ => rfl⟩
  | first :: rest =>
    simp only [checkStmts, Stmt.ThroughoutAll, Stmt.EveryOf, except_bind_eq_ok_iff,
      checkStmt_eq_ok_iff first, checkStmts_eq_ok_iff rest]
    constructor
    · rintro ⟨_, ⟨firstRules, firstKept⟩, restRules, restKept⟩
      exact ⟨⟨firstRules, restRules⟩, firstKept, restKept⟩
    · rintro ⟨⟨firstRules, restRules⟩, firstKept, restKept⟩
      exact ⟨(), ⟨firstRules, firstKept⟩, restRules, restKept⟩

end

end Scope

/-- Whether a statement is a `giveBack` itself. -/
def Stmt.IsGiveBack (stmt : Stmt τ) : Prop :=
  ∃ value span, stmt = .giveBack value span

/-- The places where a function may give back values: nowhere, at any depth, if it is
`void`; else among its own statements at most once, at the end, and once unless it is
`main`. -/
structure Function.ReturnsPlaced (function : Function τ) : Prop where
  ofVoid : function.returnTy = .void → Stmt.ThroughoutAll (¬ ·.IsGiveBack) function.body
  onlyLast : function.returnTy ≠ .void → ∀ stmt ∈ function.body.dropLast, ¬ stmt.IsGiveBack
  present : function.returnTy ≠ .void → function.name.name ≠ Program.mainName →
    ∃ stmt ∈ function.body, stmt.IsGiveBack

mutual

theorem Stmt.firstReturn?_eq_none_iff (stmt : Stmt τ) :
    stmt.firstReturn? = none ↔ stmt.Throughout (¬ ·.IsGiveBack) := by
  match stmt with
  | .skip | .assign _ _ | .call _ _ _ =>
    simp [Stmt.firstReturn?, Stmt.Throughout, Stmt.IsGiveBack]
  | .block body =>
    simp [Stmt.firstReturn?, Stmt.Throughout, Stmt.IsGiveBack,
      Stmt.firstReturnOf?_eq_none_iff body]
  | .conditional _ thenBranch elseBranch =>
    simp [Stmt.firstReturn?, Stmt.Throughout, Stmt.IsGiveBack,
      Stmt.firstReturn?_eq_none_iff thenBranch,
      Stmt.firstReturn?_eq_none_iff elseBranch]
  | .loop _ body =>
    simp [Stmt.firstReturn?, Stmt.Throughout, Stmt.IsGiveBack,
      Stmt.firstReturn?_eq_none_iff body]
  | .giveBack _ _ => simp [Stmt.firstReturn?, Stmt.Throughout, Stmt.IsGiveBack]

theorem Stmt.firstReturnOf?_eq_none_iff (body : List (Stmt τ)) :
    Stmt.firstReturnOf? body = none ↔ Stmt.ThroughoutAll (¬ ·.IsGiveBack) body := by
  match body with
  | [] => simp [Stmt.firstReturnOf?, Stmt.ThroughoutAll]
  | first :: rest =>
    simp [Stmt.firstReturnOf?, Stmt.ThroughoutAll,
      Stmt.firstReturn?_eq_none_iff first,
      Stmt.firstReturnOf?_eq_none_iff rest]

end

theorem Stmt.returnSpan?_eq_none_iff {stmt : Stmt τ} :
    stmt.returnSpan? = none ↔ ¬ stmt.IsGiveBack := by
  cases stmt <;> simp [Stmt.returnSpan?, Stmt.IsGiveBack]

theorem Stmt.filterMap_returnSpan?_eq_nil_iff {body : List (Stmt τ)} :
    body.filterMap Stmt.returnSpan? = [] ↔ ∀ stmt ∈ body, ¬ stmt.IsGiveBack := by
  simp only [List.filterMap_eq_nil_iff, Stmt.returnSpan?_eq_none_iff]

theorem filterMap_eq_dropLast_append {α β : Type} (f : α → Option β) (items : List α) :
    items.filterMap f = items.dropLast.filterMap f ++ (items.getLast?.bind f).toList := by
  rcases List.eq_nil_or_concat items with rfl | ⟨init, final, rfl⟩
  · rfl
  · cases found : f final <;> simp [List.concat_eq_append, found]

namespace Function

variable {function : Function τ}

theorem checkReturns_of_void (isVoid : function.returnTy = .void) :
    function.checkReturns = .ok () ↔ Stmt.ThroughoutAll (¬ ·.IsGiveBack) function.body := by
  rw [checkReturns, if_pos isVoid, ← Stmt.firstReturnOf?_eq_none_iff]
  cases Stmt.firstReturnOf? function.body <;> simp

/-- A function that is not `void` is accepted if only its last statement gives back a value,
and that one does unless the function is `main`. -/
theorem checkReturns_of_not_void (notVoid : function.returnTy ≠ .void) :
    function.checkReturns = .ok () ↔
      (∀ stmt ∈ function.body.dropLast, ¬ stmt.IsGiveBack) ∧
        (function.name.name ≠ Program.mainName → ∃ stmt ∈ function.body, stmt.IsGiveBack) := by
  have present : (∃ stmt ∈ function.body, stmt.IsGiveBack) ↔
      function.body.filterMap Stmt.returnSpan? ≠ [] := by
    rw [Ne, Stmt.filterMap_returnSpan?_eq_nil_iff]
    simp
  -- Both sides speak of the places before the last statement and of the last one.
  rw [checkReturns, if_neg notVoid, present, ← Stmt.filterMap_returnSpan?_eq_nil_iff,
    filterMap_eq_dropLast_append]
  generalize function.body.dropLast.filterMap Stmt.returnSpan? = before,
    function.body.getLast?.bind Stmt.returnSpan? = last
  cases last with
  | none => rcases before with _ | ⟨first, _ | ⟨second, rest⟩⟩ <;> simp
  | some span => rcases before with _ | ⟨first, _ | ⟨second, rest⟩⟩ <;> simp

theorem checkReturns_eq_ok_iff : function.checkReturns = .ok () ↔ function.ReturnsPlaced := by
  by_cases isVoid : function.returnTy = .void
  · rw [checkReturns_of_void isVoid]
    exact ⟨fun placed => ⟨fun _ => placed, absurd isVoid, absurd isVoid⟩,
      fun placed => placed.ofVoid isVoid⟩
  · rw [checkReturns_of_not_void isVoid]
    exact ⟨fun ⟨onlyLast, present⟩ => ⟨(absurd · isVoid), fun _ => onlyLast, fun _ => present⟩,
      fun placed => ⟨placed.onlyLast isVoid, placed.present isVoid⟩⟩

/-- A function keeps the rules of its program: its places of `giveBack`, the rule of every
statement in it, and the rule of every expression in it. -/
structure KeepsRules (config : Config) (program : Program τ) (function : Function τ) : Prop where
  returns : function.ReturnsPlaced
  statements : Stmt.ThroughoutAll
    ((Scope.inFunction program function).StmtRule config function.returnTy) function.body
  expressions : Stmt.EveryOf (Scope.inFunction program function).ExprRule function.body

end Function

/-- A program keeps the rules: it has a main function without parameters, and all its
functions keep the rules. -/
structure Program.KeepsRules (config : Config) (program : Program τ) : Prop where
  main : ∃ main, program.main? = some main ∧ main.params.toList = []
  functions : ∀ function ∈ program.functions.toList, function.KeepsRules config program

/-- Whatever the configuration, the check accepts exactly the programs that keep the rules. -/
theorem Program.check_eq_ok_iff_keepsRules (config : Config) (program : Program τ) :
    (program.check config).outcome = .ok () ↔ program.KeepsRules config := by
  rw [check_eq_ok_iff]
  simp only [Function.checkReturns_eq_ok_iff, Scope.checkStmts_eq_ok_iff, Definitions.isEmpty,
    List.isEmpty_iff]
  constructor
  · rintro ⟨main, functions⟩
    refine ⟨main, fun function member => ?_⟩
    obtain ⟨returns, statements, expressions⟩ := functions function member
    exact ⟨returns, statements, expressions⟩
  · rintro ⟨main, functions⟩
    refine ⟨main, fun function member => ?_⟩
    obtain ⟨returns, statements, expressions⟩ := functions function member
    exact ⟨returns, statements, expressions⟩

end TypedImp
