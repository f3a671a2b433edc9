import TypedImp.Proofs.Evaluation.Keeps
import TypedImp.Proofs.Typing.Rules
import TypedImp.Proofs.Typing.WellTyped

/-!
# Explicit types

In a specialized program all types can be read off: the tag of an operator is the type of
each of its operands, an assigned value has the type of its variable, and an argument that of
its parameter.  `BinaryOperator.mem_tags_iff` and `UnaryOperator.mem_tags_iff` say that the
tags which an operator can have are those which its evaluation supports.
-/

namespace TypedImp

/-- A value with content, if there is one of the type. -/
def Value.sample : Ty → Value
  | .int => .int 0
  | .bool => .bool false
  | .char => .char 'a'
  | .float => .float 0
  | .void => .undefined .void

theorem Value.ty_sample (ty : Ty) : (sample ty).ty = ty := by
  cases ty <;> rfl

namespace BinaryOperator

/-- The tags that a binary operator can have. -/
def tags : BinaryOperator → List Ty
  | .add | .sub | .mul | .div => [.int, .float]
  | .eq | .ne => [.int, .float, .char, .bool]
  | .lt | .le | .gt | .ge => [.int, .float, .char]
  | .and | .or => [.bool]

/-- On operands of the type of a tag, the evaluation does not refuse the tag. -/
def Supports (op : BinaryOperator) (tag : Ty) : Prop :=
  ∀ lhs rhs : Value, lhs.ty = tag → rhs.ty = tag →
    op.apply tag lhs rhs ≠ .error (.unsupportedBinary op tag)

theorem accepts_self_iff {op : BinaryOperator} {tag : Ty} :
    op.accepts tag tag = true ↔ tag ∈ op.tags := by
  cases op <;> cases tag <;> decide

/-- An operator can have exactly the tags that its evaluation supports. -/
theorem mem_tags_iff {op : BinaryOperator} {tag : Ty} : tag ∈ op.tags ↔ op.Supports tag := by
  constructor
  · intro member lhs rhs lhsTy rhsTy refused
    have delivers := delivers_apply (accepts_self_iff.mpr member) lhsTy rhsTy
    rw [refused] at delivers
    cases delivers
  · intro supports
    by_contra notMember
    have refused : op.apply tag (Value.sample tag) (Value.sample tag) =
        .error (.unsupportedBinary op tag) := by
      cases op <;> cases tag <;> first | rfl | exact absurd (by decide) notMember
    exact supports _ _ (Value.ty_sample tag) (Value.ty_sample tag) refused

/-- A tag that an operator can have, that its evaluation supports, and that is not `void`. -/
structure Works (op : BinaryOperator) (tag : Ty) : Prop where
  listed : tag ∈ op.tags
  supported : op.Supports tag
  notVoid : tag ≠ .void

theorem works_of_accepts {op : BinaryOperator} {tag : Ty}
    (accepted : op.accepts tag tag = true) : op.Works tag :=
  ⟨accepts_self_iff.mp accepted, mem_tags_iff.mp (accepts_self_iff.mp accepted),
    (not_void_of_accepts accepted).1⟩

end BinaryOperator

namespace UnaryOperator

/-- The tags that a unary operator can have; that of a cast is the type that it casts from. -/
def tags : UnaryOperator → List Ty
  | .not => [.bool]
  | .neg => [.int, .float]
  | .floatCast | .charCast => [.int]
  | .intCast => [.float, .char]

/-- On an operand of the type of a tag, the evaluation does not refuse the tag. -/
def Supports (op : UnaryOperator) (tag : Ty) : Prop :=
  ∀ operand : Value, operand.ty = tag → op.apply tag operand ≠ .error (.unsupportedUnary op tag)

theorem accepts_iff {op : UnaryOperator} {tag : Ty} : op.accepts tag = true ↔ tag ∈ op.tags := by
  cases op <;> cases tag <;> decide

/-- An operator can have exactly the tags that its evaluation supports. -/
theorem mem_tags_iff {op : UnaryOperator} {tag : Ty} : tag ∈ op.tags ↔ op.Supports tag := by
  constructor
  · intro member operand operandTy refused
    have delivers := delivers_apply (accepts_iff.mpr member) operandTy
    rw [refused] at delivers
    cases delivers
  · intro supports
    by_contra notMember
    have refused : op.apply tag (Value.sample tag) = .error (.unsupportedUnary op tag) := by
      cases op <;> cases tag <;> first | rfl | exact absurd (by decide) notMember
    exact supports _ (Value.ty_sample tag) refused

/-- A tag that an operator can have, that its evaluation supports, and that is not `void`. -/
structure Works (op : UnaryOperator) (tag : Ty) : Prop where
  listed : tag ∈ op.tags
  supported : op.Supports tag
  notVoid : tag ≠ .void

theorem works_of_accepts {op : UnaryOperator} {tag : Ty} (accepted : op.accepts tag = true) :
    op.Works tag :=
  ⟨accepts_iff.mp accepted, mem_tags_iff.mp (accepts_iff.mp accepted),
    not_void_of_accepts accepted⟩

end UnaryOperator

namespace Scope

variable {scope : Scope Ty}

/-- The direct parts of an expression have the types that its tag or its callee asks for, and
the operator works on its tag. -/
def ExprExplicit (scope : Scope Ty) : Expr Ty → Prop
  | .literal _ _ => True
  | .var name _ => ∃ ty, scope.types.get? name.name = some ty
  | .binary op tag lhs rhs _ =>
    scope.typeOf lhs = .ok tag ∧ scope.typeOf rhs = .ok tag ∧ op.Works tag
  | .unary op tag operand _ => scope.typeOf operand = .ok tag ∧ op.Works tag
  | .call callee arguments _ _ => scope.CallRule callee arguments

/-- The direct parts of a statement of a function that gives `returnTy` have the types that it
asks for, with no conversion left. -/
def StmtExplicit (scope : Scope Ty) (returnTy : Ty) : Stmt Ty → Prop
  | .skip | .block _ => True
  | .assign target value =>
    ∃ declared, scope.types.get? target.name = some declared ∧ scope.typeOf value = .ok declared
  | .conditional test _ _ | .loop test _ => scope.typeOf test = .ok .bool
  | .call callee arguments _ => scope.CallRule callee arguments
  | .giveBack value _ => scope.typeOf value = .ok returnTy

end Scope

section Typed

variable {scope : Scope Ty}

/-- The type of a well-typed expression is the one that is computed for it. -/
theorem HasType.typeOf {expr : Expr Ty} {ty : Ty} (typed : HasType scope expr ty) :
    scope.typeOf expr = .ok ty := by
  cases typed with
  | literal => rfl
  | var declared =>
    rw [Scope.typeOf, Scope.variableType_eq_ok_iff]
    exact declared
  | binary first second _ =>
    rw [Scope.typeOf, first.typeOf, second.typeOf]
    rfl
  | unary first _ =>
    rw [Scope.typeOf, first.typeOf]
    rfl
  | call found _ _ =>
    rw [Scope.typeOf, Scope.callee_eq_ok_iff.mpr found]
    rfl

theorem HaveTypes.typeOf {arguments : List (Expr Ty)} {params : List Declaration}
    (typed : HaveTypes scope arguments params) :
    List.Forall₂ (fun argument param => scope.typeOf argument = .ok param.ty) arguments params := by
  induction arguments generalizing params with
  | nil =>
    cases typed
    exact .nil
  | cons argument rest ih =>
    cases typed with
    | cons first following => exact .cons first.typeOf (ih following)

mutual

/-- All expressions in a well-typed expression are explicit. -/
theorem HasType.explicit {expr : Expr Ty} {ty : Ty} (typed : HasType scope expr ty) :
    expr.Every scope.ExprExplicit := by
  match typed with
  | .literal => trivial
  | .var declared => exact ⟨_, declared⟩
  | .binary first second accepted =>
    exact ⟨first.explicit, second.explicit, first.typeOf, second.typeOf,
      BinaryOperator.works_of_accepts accepted⟩
  | .unary first accepted =>
    exact ⟨first.explicit, first.typeOf, UnaryOperator.works_of_accepts accepted⟩
  | .call found _ passed => exact ⟨passed.explicit, _, found, passed.typeOf⟩

theorem HaveTypes.explicit {arguments : List (Expr Ty)} {params : List Declaration}
    (typed : HaveTypes scope arguments params) :
    Expr.EveryOf scope.ExprExplicit arguments := by
  match typed with
  | .nil => trivial
  | .cons first rest => exact ⟨first.explicit, rest.explicit⟩

end

mutual

/-- All expressions and all statements in a well-typed statement are explicit. -/
theorem StmtTyped.explicit {returnTy : Ty} {stmt : Stmt Ty}
    (typed : StmtTyped scope returnTy stmt) :
    stmt.Every scope.ExprExplicit ∧ stmt.Throughout (scope.StmtExplicit returnTy) := by
  match typed with
  | .skip => exact ⟨trivial, trivial⟩
  | .block bodyTyped =>
    obtain ⟨expressions, statements⟩ := bodyTyped.explicit
    exact ⟨expressions, statements, trivial⟩
  | .assign declared valueTyped => exact ⟨valueTyped.explicit, _, declared, valueTyped.typeOf⟩
  | .conditional tested chosen rejected =>
    obtain ⟨thenExpressions, thenStatements⟩ := chosen.explicit
    obtain ⟨elseExpressions, elseStatements⟩ := rejected.explicit
    exact ⟨⟨tested.explicit, thenExpressions, elseExpressions⟩, thenStatements, elseStatements,
      tested.typeOf⟩
  | .loop tested repeated =>
    obtain ⟨expressions, statements⟩ := repeated.explicit
    exact ⟨⟨tested.explicit, expressions⟩, statements, tested.typeOf⟩
  | .call found passed => exact ⟨passed.explicit, _, found, passed.typeOf⟩
  | .giveBack given => exact ⟨given.explicit, given.typeOf⟩

theorem StmtsTyped.explicit {returnTy : Ty} {body : List (Stmt Ty)}
    (typed : StmtsTyped scope returnTy body) :
    Stmt.EveryOf scope.ExprExplicit body ∧
      Stmt.ThroughoutAll (scope.StmtExplicit returnTy) body := by
  match typed with
  | .nil => exact ⟨trivial, trivial⟩
  | .cons head following =>
    obtain ⟨headExpressions, headStatements⟩ := head.explicit
    obtain ⟨restExpressions, restStatements⟩ := following.explicit
    exact ⟨⟨headExpressions, restExpressions⟩, headStatements, restStatements⟩

end

end Typed

/-- In each function of a specialized program, with the types of its own scope, all expressions
and all statements are explicit. -/
structure Program.Explicit (program : Program Ty) : Prop where
  expressions : ∀ function ∈ program.functions.toList,
    Stmt.EveryOf (Scope.inFunction program function).ExprExplicit function.body
  statements : ∀ function ∈ program.functions.toList,
    Stmt.ThroughoutAll ((Scope.inFunction program function).StmtExplicit function.returnTy)
      function.body

/-- Whatever the configuration, all types of a compiled program are explicit. -/
theorem explicit_specialized {config : Config} {source : String} {compiled : Compiled}
    (done : (compile config source).outcome = .ok compiled) : compiled.specialized.Explicit := by
  obtain ⟨_, admissible, elaborates⟩ := elaborates_of_compile done
  have typed := typed_of_programElaborates admissible elaborates
  exact ⟨fun function member => (typed.body function member).explicit.1,
    fun function member => (typed.body function member).explicit.2⟩

/-- A program in which an operand is widened and an assigned value narrowed. -/
theorem explicit_specialized_of_conversions :
    ∃ compiled,
      (compile .standard
        "int n; float f(int k) \x7b return k / 2.0; \x7d int main() \x7b n = f(n); \x7d").outcome =
          .ok compiled ∧
      compiled.specialized.Explicit := by
  have tested : (compile .standard
      "int n; float f(int k) \x7b return k / 2.0; \x7d int main() \x7b n = f(n); \x7d"
      ).outcome.toOption.any (fun _ => true) = true := by
    decide +kernel
  obtain ⟨compiled, done, _⟩ := exists_compiled tested
  exact ⟨compiled, done, explicit_specialized done⟩

end TypedImp
