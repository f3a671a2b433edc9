import TypedImp.NameMap.Lemmas
import TypedImp.Program.Basic

/-!
# Type maps

A type map gives each visible variable its type.  In a function the local variables hide
the parameters, and both hide the global variables.
-/

namespace TypedImp

/-- The types of variables. -/
abbrev TypeMap :=
  NameMap Ty

namespace TypeMap

/-- Lay declarations on top of a type map. -/
def overlay (types : TypeMap) (declarations : Definitions Declaration) : TypeMap :=
  declarations.toList.foldl (fun map declaration => map.insert declaration.name.name declaration.ty)
    types

/-- The type map of declarations. -/
def ofDeclarations (declarations : Definitions Declaration) : TypeMap :=
  overlay NameMap.empty declarations

/-- The types that are visible in a function. -/
def inFunction {τ : Type} (globals : TypeMap) (function : Function τ) : TypeMap :=
  (globals.overlay function.params).overlay function.locals

/-- Write one line for each variable. -/
def text (types : TypeMap) : String :=
  NameMap.textWith Ty.name types

/-- A declared name has its declared type, and any other name the type it had. -/
@[simp]
theorem get?_overlay (types : TypeMap) (declarations : Definitions Declaration)
    (name : String) :
    (overlay types declarations).get? name =
      ((declarations.get? name).map Declaration.ty).or (types.get? name) := by
  obtain ⟨entries, distinct⟩ := declarations
  simp only [overlay, Definitions.get?]
  induction entries generalizing types with
  | nil => simp
  | cons head rest ih =>
    obtain ⟨headDiffers, restDistinct⟩ := List.pairwise_cons.mp distinct
    rw [List.foldl_cons, ih _ restDistinct, NameMap.get?_insert]
    by_cases same : head.name.name = name
    · have absent : rest.find? (fun later => later.name.name = name) = none := by
        simp only [List.find?_eq_none, decide_eq_true_eq]
        exact fun later member equal => headDiffers later member (same.trans equal.symm)
      simp [absent, same, Named.ident]
    · simp [same, Ne.symm same, Named.ident]

end TypeMap

end TypedImp
