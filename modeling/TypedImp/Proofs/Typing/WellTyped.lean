import TypedImp.Proofs.Compilation

/-!
# Well-typed specialized programs

The typing rules of specialized syntax: the operands of an operator have the type of its
tag, and no conversion is left.  What elaboration gives is well typed.
-/

namespace TypedImp

mutual

/-- A specialized expression has a type, which is not `void`. -/
inductive HasType (scope : Scope Ty) : Expr Ty → Ty → Prop where
  | literal {value : Value} {span : Span} : HasType scope (.literal value span) value.ty
  | var {name : Ident} {span : Span} {ty : Ty}
      (declared : scope.types.get? name.name = some ty) : HasType scope (.var name span) ty
  | binary {op : BinaryOperator} {tag : Ty} {lhs rhs : Expr Ty} {span : Span}
      (first : HasType scope lhs tag) (second : HasType scope rhs tag)
      (accepted : op.accepts tag tag = true) :
      HasType scope (.binary op tag lhs rhs span) (op.resultType tag tag)
  | unary {op : UnaryOperator} {tag : Ty} {operand : Expr Ty} {span : Span}
      (first : HasType scope operand tag) (accepted : op.accepts tag = true) :
      HasType scope (.unary op tag operand span) (op.resultType tag)
  | call {callee : Ident} {function : Function Ty} {arguments : List (Expr Ty)}
      {callSpan span : Span} (found : scope.functions.get? callee.name = some function)
      (notVoid : function.returnTy ≠ .void)
      (passed : HaveTypes scope arguments function.params.toList) :
      HasType scope (.call callee arguments callSpan span) function.returnTy

/-- Specialized arguments have the types of the parameters in the same places. -/
inductive HaveTypes (scope : Scope Ty) : List (Expr Ty) → List Declaration → Prop where
  | nil : HaveTypes scope [] []
  | cons {argument : Expr Ty} {param : Declaration} {arguments : List (Expr Ty)}
      {params : List Declaration} (first : HasType scope argument param.ty)
      (rest : HaveTypes scope arguments params) :
      HaveTypes scope (argument :: arguments) (param :: params)

end

mutual

/-- A specialized statement of a function that gives `returnTy` is well typed. -/
inductive StmtTyped (scope : Scope Ty) (returnTy : Ty) : Stmt Ty → Prop where
  | skip : StmtTyped scope returnTy .skip
  | block {body : List (Stmt Ty)} (typed : StmtsTyped scope returnTy body) :
      StmtTyped scope returnTy (.block body)
  | assign {target : Ident} {value : Expr Ty} {ty : Ty}
      (declared : scope.types.get? target.name = some ty) (typed : HasType scope value ty) :
      StmtTyped scope returnTy (.assign target value)
  | conditional {test : Expr Ty} {thenBranch elseBranch : Stmt Ty}
      (tested : HasType scope test .bool) (chosen : StmtTyped scope returnTy thenBranch)
      (rejected : StmtTyped scope returnTy elseBranch) :
      StmtTyped scope returnTy (.conditional test thenBranch elseBranch)
  | loop {test : Expr Ty} {body : Stmt Ty} (tested : HasType scope test .bool)
      (repeated : StmtTyped scope returnTy body) : StmtTyped scope returnTy (.loop test body)
  | call {callee : Ident} {function : Function Ty} {arguments : List (Expr Ty)} {span : Span}
      (found : scope.functions.get? callee.name = some function)
      (passed : HaveTypes scope arguments function.params.toList) :
      StmtTyped scope returnTy (.call callee arguments span)
  | giveBack {value : Expr Ty} {span : Span} (given : HasType scope value returnTy) :
      StmtTyped scope returnTy (.giveBack value span)

/-- Specialized statements are well typed. -/
inductive StmtsTyped (scope : Scope Ty) (returnTy : Ty) : List (Stmt Ty) → Prop where
  | nil : StmtsTyped scope returnTy []
  | cons {first : Stmt Ty} {rest : List (Stmt Ty)} (head : StmtTyped scope returnTy first)
      (following : StmtsTyped scope returnTy rest) : StmtsTyped scope returnTy (first :: rest)

end

/-- A specialized program is well typed, and no function has a local variable with the
name of a parameter. -/
structure ProgramTyped (program : Program Ty) : Prop where
  body : ∀ function ∈ program.functions.toList,
    StmtsTyped (.inFunction program function) function.returnTy function.body
  disjoint : ∀ function ∈ program.functions.toList, ∀ name,
    function.params.get? name = none ∨ function.locals.get? name = none

namespace BinaryOperator

/-- The type that an operator works on is accepted on both sides, and it decides the type
of the result. -/
theorem accepts_operandType {op : BinaryOperator} {lhs rhs : Ty}
    (accepted : op.accepts lhs rhs = true) :
    op.accepts (operandType lhs rhs) (operandType lhs rhs) = true ∧
      op.resultType (operandType lhs rhs) (operandType lhs rhs) = op.resultType lhs rhs := by
  rcases types_of_accepts accepted with rfl | ⟨rfl, rfl⟩ | ⟨rfl, rfl⟩
  · simpa [operandType] using accepted
  · cases op <;> simp_all [operandType, resultType, accepts, comparable, Ty.isNumeric,
      isArithmetic, isRelational]
  · cases op <;> simp_all [operandType, resultType, accepts, comparable, Ty.isNumeric,
      isArithmetic, isRelational]

theorem not_void_of_accepts {op : BinaryOperator} {lhs rhs : Ty}
    (accepted : op.accepts lhs rhs = true) : lhs ≠ .void ∧ rhs ≠ .void := by
  unfold accepts comparable at accepted
  cases lhs <;> cases rhs <;> simp [Ty.isNumeric] at accepted ⊢

end BinaryOperator

theorem UnaryOperator.not_void_of_accepts {op : UnaryOperator} {ty : Ty}
    (accepted : op.accepts ty = true) : ty ≠ .void := by
  rintro rfl
  cases op <;> simp [accepts, Ty.isNumeric] at accepted

theorem Conversion.accepts {source target : Ty} {op : UnaryOperator}
    (conversion : Conversion source target op) :
    op.accepts source = true ∧ op.resultType source = target := by
  cases conversion <;> exact ⟨rfl, rfl⟩

theorem hasType_of_converts {scope : Scope Ty} {plain converted : Expr Ty} {source target : Ty}
    (converts : Converts plain source converted target) (typed : HasType scope plain source) :
    HasType scope converted target := by
  cases converts with
  | plain => exact typed
  | cast conversion =>
    obtain ⟨accepted, rfl⟩ := conversion.accepts
    exact .unary typed accepted

theorem not_void_of_converts {plain converted : Expr Ty} {source target : Ty}
    (converts : Converts plain source converted target) (notVoid : target ≠ .void) :
    source ≠ .void := by
  cases converts with
  | plain => exact notVoid
  | cast conversion => cases conversion <;> simp

/-- A scope of specialized functions stands for one of functions as they were read, in
which no variable is `void`. -/
structure Scope.Specializes (specialized : Scope Ty) (scope : Scope Unit) : Prop where
  types : specialized.types = scope.types
  typesNotVoid : ∀ name ty, scope.types.get? name = some ty → ty ≠ .void
  functions : ∀ name function, scope.functions.get? name = some function →
    ∃ body, specialized.functions.get? name = some (function.withBody body)
  paramsNotVoid : ∀ name function, scope.functions.get? name = some function →
    ∀ param ∈ function.params.toList, param.ty ≠ .void

section Elaborated

variable {specialized : Scope Ty} {scope : Scope Unit}

mutual

theorem hasType_of_elaborates (specializes : specialized.Specializes scope)
    {expr : Expr Unit} {target : Expr Ty} {ty : Ty}
    (elaborates : Elaborates scope expr target ty) (notVoid : ty ≠ .void) :
    HasType specialized target ty := by
  match elaborates with
  | .literal => exact .literal
  | .var declared => exact .var (specializes.types ▸ declared)
  | .binary first second accepted firstConverts secondConverts =>
    obtain ⟨leftNotVoid, rightNotVoid⟩ := BinaryOperator.not_void_of_accepts accepted
    have left := hasType_of_elaborates specializes first leftNotVoid
    have right := hasType_of_elaborates specializes second rightNotVoid
    obtain ⟨tagAccepted, result⟩ := BinaryOperator.accepts_operandType accepted
    rw [← result]
    exact .binary (hasType_of_converts firstConverts left)
      (hasType_of_converts secondConverts right) tagAccepted
  | .unary first accepted =>
    have operand :=
      hasType_of_elaborates specializes first (UnaryOperator.not_void_of_accepts accepted)
    exact .unary operand accepted
  | .call found passed =>
    have arguments :=
      haveTypes_of_elaboratesAll specializes passed (specializes.paramsNotVoid _ _ found)
    obtain ⟨body, specializedFound⟩ := specializes.functions _ _ found
    exact .call specializedFound notVoid arguments

theorem haveTypes_of_elaboratesAll (specializes : specialized.Specializes scope)
    {arguments : List (Expr Unit)} {targets : List (Expr Ty)} {params : List Declaration}
    (elaborates : ElaboratesAll scope arguments targets params)
    (notVoid : ∀ param ∈ params, param.ty ≠ .void) : HaveTypes specialized targets params := by
  match elaborates with
  | .nil => exact .nil
  | .cons first rest =>
    obtain ⟨firstNotVoid, restNotVoid⟩ := List.forall_mem_cons.mp notVoid
    exact .cons (hasType_of_elaborates specializes first firstNotVoid)
      (haveTypes_of_elaboratesAll specializes rest restNotVoid)

end

mutual

theorem stmtTyped_of_elaborates (specializes : specialized.Specializes scope)
    {returnTy : Ty} {stmt : Stmt Unit} {target : Stmt Ty}
    (elaborates : StmtElaborates scope returnTy stmt target)
    (returns : returnTy = .void → stmt.firstReturn? = none) :
    StmtTyped specialized returnTy target := by
  match elaborates with
  | .skip => exact .skip
  | .block elaborated => exact .block (stmtsTyped_of_elaborate specializes elaborated returns)
  | .assign isDeclared elaborated converts =>
    have notVoid := not_void_of_converts converts (specializes.typesNotVoid _ _ isDeclared)
    exact .assign (specializes.types ▸ isDeclared)
      (hasType_of_converts converts (hasType_of_elaborates specializes elaborated notVoid))
  | .conditional tested chosen rejected =>
    have noReturn isVoid := Option.or_eq_none_iff.mp (returns isVoid)
    exact .conditional (hasType_of_elaborates specializes tested (by simp))
      (stmtTyped_of_elaborates specializes chosen fun isVoid => (noReturn isVoid).1)
      (stmtTyped_of_elaborates specializes rejected fun isVoid => (noReturn isVoid).2)
  | .loop tested repeated =>
    exact .loop (hasType_of_elaborates specializes tested (by simp))
      (stmtTyped_of_elaborates specializes repeated returns)
  | .call found passed =>
    have arguments :=
      haveTypes_of_elaboratesAll specializes passed (specializes.paramsNotVoid _ _ found)
    obtain ⟨body, specializedFound⟩ := specializes.functions _ _ found
    exact .call specializedFound arguments
  | .giveBack given =>
    have notVoid : returnTy ≠ .void := by
      intro isVoid
      simpa [Stmt.firstReturn?] using returns isVoid
    exact .giveBack (hasType_of_elaborates specializes given notVoid)

theorem stmtsTyped_of_elaborate (specializes : specialized.Specializes scope)
    {returnTy : Ty} {body : List (Stmt Unit)} {target : List (Stmt Ty)}
    (elaborates : StmtsElaborate scope returnTy body target)
    (returns : returnTy = .void → Stmt.firstReturnOf? body = none) :
    StmtsTyped specialized returnTy target := by
  match elaborates with
  | .nil => exact .nil
  | .cons head following =>
    have noReturn isVoid := Option.or_eq_none_iff.mp (returns isVoid)
    exact .cons (stmtTyped_of_elaborates specializes head fun isVoid => (noReturn isVoid).1)
      (stmtsTyped_of_elaborate specializes following fun isVoid => (noReturn isVoid).2)

end

end Elaborated

/-- The functions of the two programs correspond under each name. -/
theorem ProgramElaborates.get? {program : Program Unit} {specialized : Program Ty}
    (elaborates : ProgramElaborates program specialized) (name : String) :
    Option.Rel (FunctionElaborates program) (program.functions.get? name)
      (specialized.functions.get? name) := by
  have related := elaborates.functions
  unfold Definitions.get?
  generalize program.functions.toList = functions, specialized.functions.toList = others
    at related
  induction related with
  | nil => exact .none
  | @cons function other functions others first _ ih =>
    have sameName : Named.ident other = Named.ident function := by
      rw [first.withBody]
      rfl
    rw [List.find?_cons, List.find?_cons, sameName]
    cases decide ((Named.ident function).name = name) with
    | true => exact .some first
    | false => exact ih

theorem ProgramElaborates.exists_specialized {program : Program Unit}
    {specialized : Program Ty} (elaborates : ProgramElaborates program specialized)
    {name : String} {function : Function Unit}
    (found : program.functions.get? name = some function) :
    ∃ body, specialized.functions.get? name = some (function.withBody body) ∧
      FunctionElaborates program function (function.withBody body) := by
  have related := elaborates.get? name
  rw [found] at related
  generalize specialized.functions.get? name = found' at related
  cases related with
  | @some _ function' related =>
    have sameFunction := related.withBody
    rw [sameFunction] at related
    exact ⟨function'.body, congrArg some sameFunction, related⟩

theorem ProgramElaborates.exists_source {program : Program Unit} {specialized : Program Ty}
    (elaborates : ProgramElaborates program specialized) {name : String}
    {function' : Function Ty} (found : specialized.functions.get? name = some function') :
    ∃ function, program.functions.get? name = some function ∧
      FunctionElaborates program function function' := by
  have related := elaborates.get? name
  rw [found] at related
  generalize program.functions.get? name = source at related
  cases related with
  | some related => exact ⟨_, rfl, related⟩

theorem get?_inFunction {τ : Type} (program : Program τ) (function : Function τ)
    (name : String) :
    (Scope.inFunction program function).types.get? name =
      ((function.locals.get? name).map Declaration.ty).or
        (((function.params.get? name).map Declaration.ty).or
          ((program.globals.get? name).map Declaration.ty)) := by
  simp [Scope.inFunction, TypeMap.inFunction, TypeMap.ofDeclarations]

theorem Grammar.ScopeAdmissible.not_void {scope : Definitions Declaration}
    (admissible : ScopeAdmissible scope.toList) {name : String} {ty : Ty}
    (found : (scope.get? name).map Declaration.ty = some ty) : ty ≠ .void := by
  obtain ⟨declaration, isDeclared, rfl⟩ := Option.map_eq_some_iff.mp found
  exact admissible.typed declaration (Definitions.mem_of_get? isDeclared)

/-- A specialized program has the global variables of the program that was read and, under
each name, its function with some body. -/
structure Program.SameSignatures (specialized : Program Ty) (program : Program Unit) : Prop where
  globals : specialized.globals = program.globals
  functions : ∀ name function, program.functions.get? name = some function →
    ∃ body, specialized.functions.get? name = some (function.withBody body)

theorem ProgramElaborates.sameSignatures {program : Program Unit} {specialized : Program Ty}
    (elaborates : ProgramElaborates program specialized) : specialized.SameSignatures program := by
  refine ⟨elaborates.globals, fun name function found => ?_⟩
  obtain ⟨body, found', _⟩ := elaborates.exists_specialized found
  exact ⟨body, found'⟩

theorem specializes_inFunction {program : Program Unit} {specialized : Program Ty}
    (admissible : program.tree.Admissible) (same : specialized.SameSignatures program)
    {function : Function Unit} (member : function ∈ program.functions.toList)
    (body : List (Stmt Ty)) :
    (Scope.inFunction specialized (function.withBody body)).Specializes
      (.inFunction program function) := by
  have functionAdmissible {other : Function Unit} (member : other ∈ program.functions.toList) :
      other.tree.Admissible :=
    admissible.functions other.tree (List.mem_map_of_mem member)
  refine ⟨?_, ?_, ?_, ?_⟩
  · simp only [Scope.inFunction, same.globals]
    rfl
  · intro name ty isDeclared
    rw [get?_inFunction, Option.or_eq_some_iff, Option.or_eq_some_iff] at isDeclared
    rcases isDeclared with isLocal | ⟨_, isParam | ⟨_, isGlobal⟩⟩
    · exact (functionAdmissible member).locals.not_void isLocal
    · exact (functionAdmissible member).params.not_void isParam
    · exact admissible.globals.not_void isGlobal
  · exact same.functions
  · intro name callee found
    exact (functionAdmissible (Definitions.mem_of_get? found)).params.typed

theorem Function.firstReturn_of_checkReturns {τ : Type} {function : Function τ}
    (checked : function.checkReturns = .ok ()) (isVoid : function.returnTy = .void) :
    Stmt.firstReturnOf? function.body = none := by
  rw [checkReturns, if_pos isVoid] at checked
  cases found : Stmt.firstReturnOf? function.body with
  | none => rfl
  | some span =>
    rw [found] at checked
    cases checked

theorem FunctionElaborates.typed {program : Program Unit} {specialized : Program Ty}
    {function : Function Unit} {function' : Function Ty}
    (elaborated : FunctionElaborates program function function')
    (admissible : program.tree.Admissible) (same : specialized.SameSignatures program)
    (member : function ∈ program.functions.toList) :
    StmtsTyped (.inFunction specialized function') function'.returnTy function'.body := by
  have specializes := specializes_inFunction admissible same member function'.body
  have noReturn := Function.firstReturn_of_checkReturns elaborated.returns
  rw [elaborated.withBody]
  exact stmtsTyped_of_elaborate specializes elaborated.body noReturn

theorem disjoint_of_admissible {program : Program Unit} (admissible : program.tree.Admissible)
    {function : Function Unit} (member : function ∈ program.functions.toList) (name : String) :
    function.params.get? name = none ∨ function.locals.get? name = none := by
  have disjoint := (admissible.functions function.tree (List.mem_map_of_mem member)).disjoint
  cases isParam : function.params.get? name with
  | none => exact .inl rfl
  | some param =>
    obtain ⟨paramMember, paramNamed⟩ := Definitions.get?_eq_some_iff.mp isParam
    refine .inr (Definitions.get?_eq_none_iff.mpr ?_)
    intro declaration declarationMember named
    exact disjoint param paramMember declaration declarationMember (paramNamed.trans named.symm)

theorem ProgramElaborates.source_of_mem {program : Program Unit} {specialized : Program Ty}
    (elaborates : ProgramElaborates program specialized) {function' : Function Ty}
    (member : function' ∈ specialized.functions.toList) :
    ∃ function ∈ program.functions.toList, FunctionElaborates program function function' := by
  obtain ⟨function, found, related⟩ :=
    elaborates.exists_source (Definitions.get?_eq_some_iff.mpr ⟨member, rfl⟩)
  exact ⟨function, Definitions.mem_of_get? found, related⟩

/-- What a program elaborates to is well typed. -/
theorem typed_of_programElaborates {program : Program Unit} {specialized : Program Ty}
    (admissible : program.tree.Admissible)
    (elaborates : ProgramElaborates program specialized) : ProgramTyped specialized := by
  constructor
  · intro function' member
    obtain ⟨function, functionMember, elaborated⟩ := elaborates.source_of_mem member
    exact elaborated.typed admissible elaborates.sameSignatures functionMember
  · intro function' member name
    obtain ⟨function, functionMember, elaborated⟩ := elaborates.source_of_mem member
    rw [elaborated.withBody]
    exact disjoint_of_admissible admissible functionMember name

end TypedImp
