import TypedImp.Proofs.Compilation
import TypedImp.Proofs.Grammar.Spans

/-!
# Erasure

The specialized program without its tags and without the casts that were inserted.  An
inserted cast has the span of its operand, and no cast of the source has, so erasing gives
back exactly the program that was read.
-/

namespace TypedImp

mutual

/-- Drop the tags of an expression, and the casts to integer and float that have the span
of their operand. -/
def Expr.erase : Expr Ty → Expr Unit
  | .literal value span => .literal value span
  | .var name span => .var name span
  | .binary op _ lhs rhs span => .binary op () lhs.erase rhs.erase span
  | .unary op _ operand span =>
    if (op = .intCast ∨ op = .floatCast) ∧ span = operand.span then operand.erase
    else .unary op () operand.erase span
  | .call callee arguments callSpan span =>
    .call callee (Expr.eraseAll arguments) callSpan span

def Expr.eraseAll : List (Expr Ty) → List (Expr Unit)
  | [] => []
  | first :: rest => first.erase :: Expr.eraseAll rest

end

mutual

/-- Erase the expressions of a statement. -/
def Stmt.erase : Stmt Ty → Stmt Unit
  | .skip => .skip
  | .block body => .block (Stmt.eraseAll body)
  | .assign target value => .assign target value.erase
  | .conditional test thenBranch elseBranch =>
    .conditional test.erase thenBranch.erase elseBranch.erase
  | .loop test body => .loop test.erase body.erase
  | .call callee arguments span => .call callee (Expr.eraseAll arguments) span
  | .giveBack value span => .giveBack value.erase span

def Stmt.eraseAll : List (Stmt Ty) → List (Stmt Unit)
  | [] => []
  | first :: rest => first.erase :: Stmt.eraseAll rest

end

/-- Erase the body of a function. -/
def Function.erase (function : Function Ty) : Function Unit :=
  function.withBody (Stmt.eraseAll function.body)

/-- Erase the functions of a program. -/
def Program.erase (program : Program Ty) : Program Unit :=
  ⟨program.globals, program.functions.map Function.erase fun _ => rfl⟩

/-- An inserted cast leaves no trace. -/
theorem erase_of_converts {plain converted : Expr Ty} {source target : Ty}
    (converts : Converts plain source converted target) :
    converted.erase = plain.erase ∧ converted.span = plain.span := by
  cases converts with
  | plain => exact ⟨rfl, rfl⟩
  | cast conversion =>
    cases conversion with
    | intToFloat | charToInt | floatToInt => simp [Expr.erase, Expr.span]

mutual

theorem erase_of_elaborates {scope : Scope Unit} {expr : Expr Unit} {specialized : Expr Ty}
    {ty : Ty} (elaborates : Elaborates scope expr specialized ty)
    (enclosing : expr.Every Expr.CastEncloses) :
    specialized.erase = expr ∧ specialized.span = expr.span := by
  match elaborates with
  | .literal => exact ⟨rfl, rfl⟩
  | .var _ => exact ⟨rfl, rfl⟩
  | .binary first second _ firstConverts secondConverts =>
    obtain ⟨leftErased, _⟩ := erase_of_elaborates first enclosing.1
    obtain ⟨rightErased, _⟩ := erase_of_elaborates second enclosing.2.1
    refine ⟨?_, rfl⟩
    rw [Expr.erase, (erase_of_converts firstConverts).1, (erase_of_converts secondConverts).1,
      leftErased, rightErased]
  | .unary first _ =>
    obtain ⟨erased, sameSpan⟩ := erase_of_elaborates first enclosing.1
    refine ⟨?_, rfl⟩
    rw [Expr.erase, if_neg, erased]
    rintro ⟨isCast, spanEq⟩
    have encloses := enclosing.2 (by rcases isCast with rfl | rfl <;> rfl)
    rw [spanEq, sameSpan] at encloses
    exact Nat.lt_irrefl _ encloses.begins
  | .call _ passed =>
    refine ⟨?_, rfl⟩
    rw [Expr.erase, eraseAll_of_elaboratesAll passed enclosing.1]

theorem eraseAll_of_elaboratesAll {scope : Scope Unit} {arguments : List (Expr Unit)}
    {specialized : List (Expr Ty)} {params : List Declaration}
    (elaborates : ElaboratesAll scope arguments specialized params)
    (enclosing : Expr.EveryOf Expr.CastEncloses arguments) :
    Expr.eraseAll specialized = arguments := by
  match elaborates with
  | .nil => rfl
  | .cons first rest =>
    rw [Expr.eraseAll, (erase_of_elaborates first enclosing.1).1,
      eraseAll_of_elaboratesAll rest enclosing.2]

end

mutual

theorem erase_of_stmtElaborates {scope : Scope Unit} {returnTy : Ty} {stmt : Stmt Unit}
    {specialized : Stmt Ty} (elaborates : StmtElaborates scope returnTy stmt specialized)
    (enclosing : stmt.Every Expr.CastEncloses) : specialized.erase = stmt := by
  match elaborates with
  | .skip => rfl
  | .block elaborated => rw [Stmt.erase, eraseAll_of_stmtsElaborate elaborated enclosing]
  | .assign _ elaborated converts =>
    rw [Stmt.erase, (erase_of_converts converts).1, (erase_of_elaborates elaborated enclosing).1]
  | .conditional tested chosen rejected =>
    rw [Stmt.erase, (erase_of_elaborates tested enclosing.1).1,
      erase_of_stmtElaborates chosen enclosing.2.1, erase_of_stmtElaborates rejected enclosing.2.2]
  | .loop tested repeated =>
    rw [Stmt.erase, (erase_of_elaborates tested enclosing.1).1,
      erase_of_stmtElaborates repeated enclosing.2]
  | .call _ passed => rw [Stmt.erase, eraseAll_of_elaboratesAll passed enclosing]
  | .giveBack given => rw [Stmt.erase, (erase_of_elaborates given enclosing).1]

theorem eraseAll_of_stmtsElaborate {scope : Scope Unit} {returnTy : Ty}
    {body : List (Stmt Unit)} {specialized : List (Stmt Ty)}
    (elaborates : StmtsElaborate scope returnTy body specialized)
    (enclosing : Stmt.EveryOf Expr.CastEncloses body) : Stmt.eraseAll specialized = body := by
  match elaborates with
  | .nil => rfl
  | .cons head following =>
    rw [Stmt.eraseAll, erase_of_stmtElaborates head enclosing.1,
      eraseAll_of_stmtsElaborate following enclosing.2]

end

/-- Where casts enclose their operands, erasing undoes the specialization. -/
theorem erase_of_programElaborates {program : Program Unit} {specialized : Program Ty}
    (elaborates : ProgramElaborates program specialized)
    (enclosing : program.Every Expr.CastEncloses) : specialized.erase = program := by
  have erased : ∀ {functions : List (Function Unit)} {specialized : List (Function Ty)},
      List.Forall₂ (FunctionElaborates program) functions specialized →
      (∀ function ∈ functions, Stmt.EveryOf Expr.CastEncloses function.body) →
      specialized.map Function.erase = functions := by
    intro functions specialized related enclosing
    induction related with
    | nil => rfl
    | cons first _ ih =>
      obtain ⟨firstEnclosing, restEnclosing⟩ := List.forall_mem_cons.mp enclosing
      rw [List.map_cons, ih restEnclosing, Function.erase,
        eraseAll_of_stmtsElaborate first.body firstEnclosing, first.withBody]
      rfl
  obtain ⟨globals, functions⟩ := program
  rw [Program.erase, elaborates.globals]
  exact congrArg _ (Definitions.ext_toList (erased elaborates.functions enclosing))

theorem castEncloses_of_compile {config : Config} {source : String} {compiled : Compiled}
    (done : (compile config source).outcome = .ok compiled) :
    compiled.program.Every Expr.CastEncloses := by
  obtain ⟨sentence, _, _⟩ := elaborates_of_compile done
  intro function member
  exact Grammar.every_of_sentence
    (fun derived among => (Grammar.liesIn_of_expression derived among.inOrder).2) sentence
    ⟨inOrder_ofScanner _, List.Subset.refl _⟩ function.tree (List.mem_map_of_mem member)

/-- The specialization only adds: erasing it gives back the program that was read, in which
no cast has the span of its operand. -/
theorem erase_specialized {config : Config} {source : String} {compiled : Compiled}
    (done : (compile config source).outcome = .ok compiled) :
    compiled.specialized.erase = compiled.program ∧
      compiled.program.Every Expr.CastEncloses := by
  have enclosing := castEncloses_of_compile done
  obtain ⟨_, _, elaborates⟩ := elaborates_of_compile done
  exact ⟨erase_of_programElaborates elaborates enclosing, enclosing⟩

/-- A program with a cast that is written beside one that is inserted. -/
theorem erase_specialized_of_mixed_sum :
    ∃ compiled,
      (compile .standard "int main() \x7b float x; x = int('a') + 1.5; \x7d").outcome =
        .ok compiled ∧
      compiled.specialized.erase = compiled.program ∧
      compiled.program.Every Expr.CastEncloses := by
  have accepted :
      (compile .standard "int main() \x7b float x; x = int('a') + 1.5; \x7d").outcome.isOk = true := by
    decide +kernel
  cases done : (compile .standard "int main() \x7b float x; x = int('a') + 1.5; \x7d").outcome with
  | error failure =>
    rw [done] at accepted
    cases accepted
  | ok compiled => exact ⟨compiled, rfl, erase_specialized done⟩

end TypedImp
