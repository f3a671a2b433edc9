import TypedImp.Proofs.Program.Names
import TypedImp.Proofs.Specialization.Elaboration

/-!
# The specialization invents no names

The names in a specialized program are those of the program that was checked: an inserted cast
calls nothing and reads no variable.
-/

namespace TypedImp

variable {allowed : String → Prop} {scope : Scope Unit} {returnTy : Ty}

theorem Converts.namesIn {plain converted : Expr Ty} {source target : Ty}
    (converts : Converts plain source converted target) (names : plain.NamesIn allowed) :
    converted.NamesIn allowed := by
  cases converts with
  | plain => exact names
  | cast => exact names

mutual

theorem Elaborates.namesIn {expr : Expr Unit} {specialized : Expr Ty} {ty : Ty}
    (elaborates : Elaborates scope expr specialized ty) (names : expr.NamesIn allowed) :
    specialized.NamesIn allowed := by
  match elaborates with
  | .literal => trivial
  | .var _ => exact names
  | .binary first second _ firstConverts secondConverts =>
    exact ⟨firstConverts.namesIn (first.namesIn names.1),
      secondConverts.namesIn (second.namesIn names.2)⟩
  | .unary first _ => exact first.namesIn names
  | .call _ passed => exact ⟨names.1, passed.namesIn names.2⟩

theorem ElaboratesAll.namesIn {arguments : List (Expr Unit)} {specialized : List (Expr Ty)}
    {params : List Declaration} (elaborates : ElaboratesAll scope arguments specialized params)
    (names : Expr.AllNamesIn allowed arguments) : Expr.AllNamesIn allowed specialized := by
  match elaborates with
  | .nil => trivial
  | .cons first rest => exact ⟨first.namesIn names.1, rest.namesIn names.2⟩

end

mutual

theorem StmtElaborates.namesIn {stmt : Stmt Unit} {specialized : Stmt Ty}
    (elaborates : StmtElaborates scope returnTy stmt specialized) (names : stmt.NamesIn allowed) :
    specialized.NamesIn allowed := by
  match elaborates with
  | .skip => trivial
  | .block elaborated => exact elaborated.namesIn names
  | .assign _ elaborated converts =>
    exact ⟨names.1, converts.namesIn (elaborated.namesIn names.2)⟩
  | .conditional tested chosen rejected =>
    exact ⟨tested.namesIn names.1, chosen.namesIn names.2.1, rejected.namesIn names.2.2⟩
  | .loop tested repeated => exact ⟨tested.namesIn names.1, repeated.namesIn names.2⟩
  | .call _ passed => exact ⟨names.1, passed.namesIn names.2⟩
  | .giveBack given => exact given.namesIn names

theorem StmtsElaborate.namesIn {body : List (Stmt Unit)} {specialized : List (Stmt Ty)}
    (elaborates : StmtsElaborate scope returnTy body specialized)
    (names : Stmt.AllNamesIn allowed body) : Stmt.AllNamesIn allowed specialized := by
  match elaborates with
  | .nil => trivial
  | .cons head following => exact ⟨head.namesIn names.1, following.namesIn names.2⟩

end

theorem FunctionElaborates.namesIn {program : Program Unit} {function : Function Unit}
    {specialized : Function Ty} (elaborates : FunctionElaborates program function specialized)
    (names : function.NamesIn allowed) : specialized.NamesIn allowed := by
  rw [elaborates.withBody]
  exact ⟨names.name, names.params, names.locals, elaborates.body.namesIn names.body⟩

theorem namesIn_of_functionsElaborate {program : Program Unit} {functions : List (Function Unit)}
    {specialized : List (Function Ty)}
    (elaborate : List.Forall₂ (FunctionElaborates program) functions specialized)
    (names : ∀ function ∈ functions, function.NamesIn allowed) :
    ∀ function ∈ specialized, function.NamesIn allowed := by
  induction elaborate with
  | nil => nofun
  | cons first _ ih =>
    obtain ⟨firstNames, restNames⟩ := List.forall_mem_cons.mp names
    exact List.forall_mem_cons.mpr ⟨first.namesIn firstNames, ih restNames⟩

theorem ProgramElaborates.namesIn {program : Program Unit} {specialized : Program Ty}
    (elaborates : ProgramElaborates program specialized) (names : program.NamesIn allowed) :
    specialized.NamesIn allowed where
  globals := elaborates.globals ▸ names.globals
  functions := namesIn_of_functionsElaborate elaborates.functions names.functions

end TypedImp
