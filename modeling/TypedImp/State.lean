import TypedImp.TypeMap
import TypedImp.Value

/-!
# States

The values of the variables of a scope.  `get?_undefined` and `Function.get?_frame` say
what the variables of a scope hold before anything is assigned.
-/

namespace TypedImp

/-- The values of variables. -/
abbrev State :=
  NameMap Value

namespace State

/-- Declared variables that have not been assigned. -/
def undefined (declarations : Definitions Declaration) : State :=
  (TypeMap.ofDeclarations declarations).map Value.undefined

/-- Write one line for each variable. -/
def text (state : State) : String :=
  NameMap.textWith Value.text state

/-- A declared variable is there and has no content. -/
@[simp]
theorem get?_undefined (declarations : Definitions Declaration) (name : String) :
    (undefined declarations).get? name =
      (declarations.get? name).map fun declaration => .undefined declaration.ty := by
  simp [undefined, TypeMap.ofDeclarations, Function.comp_def]

end State

namespace Function

variable {τ : Type}

/-- The variables of a call: the local ones are undefined, and the parameters, on top of
them, have the given values. -/
def frame (function : Function τ) (values : List Value) : State :=
  (function.params.toList.zip values).foldl
    (fun state (param, value) => state.insert param.name.name value)
    (State.undefined function.locals)

/-- The value that is passed for a parameter. -/
def argument? (function : Function τ) (values : List Value) (name : String) : Option Value :=
  ((function.params.toList.zip values).find? fun (param, _) => param.name.name = name).map
    Prod.snd

/-- In a frame a parameter has the value that was passed for it, and any other name is
that of an undefined local variable or of none. -/
@[simp]
theorem get?_frame (function : Function τ) (values : List Value) (name : String) :
    (function.frame values).get? name =
      (function.argument? values name).or ((State.undefined function.locals).get? name) := by
  simp only [frame, argument?]
  generalize State.undefined function.locals = state
  obtain ⟨params, distinct⟩ := function.params
  induction params generalizing values state with
  | nil => simp
  | cons head rest ih =>
    obtain ⟨headDiffers, restDistinct⟩ := List.pairwise_cons.mp distinct
    cases values with
    | nil => simp
    | cons value values =>
      rw [List.zip_cons_cons, List.foldl_cons, ih values _ restDistinct, NameMap.get?_insert]
      by_cases same : head.name.name = name
      · have absent : (rest.zip values).find? (fun later => later.1.name.name = name) = none := by
          simp only [List.find?_eq_none, decide_eq_true_eq]
          exact fun later member equal =>
            headDiffers later.1 (List.of_mem_zip member).1 (same.trans equal.symm)
        simp [absent, same]
      · simp [same, Ne.symm same]

end Function

end TypedImp
