import TypedImp.Proofs.NameMap.Showing
import TypedImp.Proofs.Text.Values
import TypedImp.State

/-!
# Maps and what was done to them

States and type maps are built by operations.  The values that an operation writes to names are read
off the operation and what was written before it, and a lookup gives what was written last.  So the
text of a map depends on that alone, and not on the operations and their order: `canonical_maps`.
-/

namespace TypedImp

namespace NameMap

variable {α Operation : Type}

/-- The value that was written last to a name. -/
def lastWritten (written : List (String × α)) (name : String) : Option α :=
  written.reverse.lookup name

theorem ofList_append (written more : List (String × α)) :
    ofList (written ++ more) = more.foldl (fun map entry => map.insert entry.1 entry.2)
      (ofList written) :=
  List.foldl_append

theorem get?_eq_lastWritten (written : List (String × α)) (name : String) :
    (ofList written).get? name = lastWritten written name :=
  get?_ofList written name

/-- Replacing a value that is bound is binding it again. -/
theorem replace_eq_insert {map : NameMap α} {name : String} (bound : map.contains name = true)
    (value : α) : map.replace name value = map.insert name value := by
  refine ext_get? fun other => ?_
  obtain ⟨old, found⟩ := Option.isSome_iff_exists.mp bound
  rw [get?_replace, get?_insert]
  by_cases same : other = name
  · rw [if_pos same, if_pos same, same, found]
    rfl
  · rw [if_neg same, if_neg same]

/-- Nothing is replaced that is not bound. -/
theorem replace_eq_self {map : NameMap α} {name : String} (unbound : map.contains name = false)
    (value : α) : map.replace name value = map := by
  refine ext_get? fun other => ?_
  rw [get?_replace]
  split
  case isTrue same =>
    subst same
    rw [Option.isSome_eq_false_iff.mp unbound |> Option.isNone_iff_eq_none.mp]
    rfl
  case isFalse => rfl

theorem merge_assoc (first second third : NameMap α) :
    (first.merge second).merge third = first.merge (second.merge third) := by
  refine ext_get? fun name => ?_
  rw [get?_merge, get?_merge, get?_merge, get?_merge, Option.or_assoc]

/-- If every operation acts on a map as it acts on what has been written, then so do all of them in
a row. -/
theorem foldl_ofList {apply : NameMap α → Operation → NameMap α}
    {record : List (String × α) → Operation → List (String × α)}
    (step : ∀ written operation,
      apply (ofList written) operation = ofList (record written operation))
    (written : List (String × α)) (operations : List Operation) :
    operations.foldl apply (ofList written) = ofList (operations.foldl record written) := by
  induction operations generalizing written with
  | nil => rfl
  | cons operation rest ih => rw [List.foldl_cons, step, ih, List.foldl_cons]

/-- What is known of the maps that operations build, from the values that these write to names: a
lookup gives the value that was written last; maps that show the same for every name have one size
and one text; a text has a line for each name that is bound, by the names; and it gives back what
lookups give, if the names are identifiers. -/
structure Canonical (write : α → String) (text : NameMap α → String)
    (after : List Operation → NameMap α) (writes : List Operation → List (String × α)) : Prop where
  get?_eq : ∀ operations name, (after operations).get? name = lastWritten (writes operations) name
  text_eq : ∀ operations others,
    (∀ name, ((after operations).get? name).map write = ((after others).get? name).map write) →
    (after operations).size = (after others).size ∧
      text (after operations) = text (after others)
  shownBy : ∀ operations, ∃ entries,
    ShownBy (after operations) write entries (text (after operations))
  get?_eq_of_text_eq : ∀ operations others,
    (∀ name, (after operations).contains name = true → TokenText .identifier name.toList) →
    (∀ name, (after others).contains name = true → TokenText .identifier name.toList) →
    text (after operations) = text (after others) →
    ∀ name, (after operations).get? name = (after others).get? name

theorem canonical_of_ofList {write : α → String} {after : List Operation → NameMap α}
    {writes : List Operation → List (String × α)}
    (built : ∀ operations, after operations = ofList (writes operations))
    (injective : Function.Injective write) (oneLine : ∀ value, '\n' ∉ (write value).toList) :
    Canonical write (textWith write) after writes where
  get?_eq operations name := by rw [built, get?_eq_lastWritten]
  text_eq _ _ same := textWith_eq_of_shown same
  shownBy operations := ⟨_, shownBy_textWith oneLine (after operations)⟩
  get?_eq_of_text_eq _ _ identifiers identifiers' same _ := by
    rw [eq_of_textWith_eq injective oneLine identifiers identifiers' same]

end NameMap

/-- What is done to a state: a variable is bound to a value, another state is laid on top, or a
variable that is bound gets another value. -/
inductive State.Operation where
  | bind (name : Ident) (value : Value)
  | merge (other : State)
  | set (name : Ident) (value : Value)

namespace State

/-- Do something to a state. -/
def apply (state : State) : Operation → State
  | .bind name value => state.insert name.name value
  | .merge other => NameMap.merge state other
  | .set name value => state.replace name.name value

/-- The state after some operations, from the empty one on. -/
def after (operations : List Operation) : State :=
  operations.foldl apply NameMap.empty

/-- What has been written when one operation more has been done. -/
def write (written : List (String × Value)) : Operation → List (String × Value)
  | .bind name value => written ++ [(name.name, value)]
  | .merge other => written ++ other.entries
  | .set name value =>
    if (NameMap.lastWritten written name.name).isSome then written ++ [(name.name, value)]
    else written

/-- All values that some operations write to names, in their order. -/
def writes (operations : List Operation) : List (String × Value) :=
  operations.foldl write []

theorem apply_ofList (written : List (String × Value)) (operation : Operation) :
    apply (NameMap.ofList written) operation = NameMap.ofList (write written operation) := by
  cases operation with
  | bind name value => exact (NameMap.ofList_append written [(name.name, value)]).symm
  | merge other => exact (NameMap.ofList_append written other.entries).symm
  | set name value =>
    rw [apply, write, ← NameMap.get?_eq_lastWritten]
    split
    case isTrue bound =>
      rw [NameMap.replace_eq_insert bound]
      exact (NameMap.ofList_append written [(name.name, value)]).symm
    case isFalse unbound =>
      exact NameMap.replace_eq_self (by simpa [NameMap.contains] using unbound) value

theorem canonical : NameMap.Canonical Value.text text after writes :=
  NameMap.canonical_of_ofList (NameMap.foldl_ofList apply_ofList [])
    (fun _ _ => Value.eq_of_text_eq) Value.newline_notMem_text

end State

/-- What is done to a type map: a variable is bound to a type, declarations are laid on top, or the
map of declarations is made anew. -/
inductive TypeMap.Operation where
  | bind (name : Ident) (ty : Ty)
  | overlay (declarations : Definitions Declaration)
  | restart (declarations : Definitions Declaration)

namespace TypeMap

/-- Do something to a type map. -/
def apply (types : TypeMap) : Operation → TypeMap
  | .bind name ty => types.insert name.name ty
  | .overlay declarations => overlay types declarations
  | .restart declarations => ofDeclarations declarations

/-- The type map after some operations, from the empty one on. -/
def after (operations : List Operation) : TypeMap :=
  operations.foldl apply NameMap.empty

/-- The declared names with their types. -/
def declared (declarations : Definitions Declaration) : List (String × Ty) :=
  declarations.toList.map fun declaration => (declaration.name.name, declaration.ty)

/-- What has been written when one operation more has been done. -/
def write (written : List (String × Ty)) : Operation → List (String × Ty)
  | .bind name ty => written ++ [(name.name, ty)]
  | .overlay declarations => written ++ declared declarations
  | .restart declarations => declared declarations

/-- All types that some operations write to names, in their order. -/
def writes (operations : List Operation) : List (String × Ty) :=
  operations.foldl write []

theorem overlay_ofList (written : List (String × Ty)) (declarations : Definitions Declaration) :
    overlay (NameMap.ofList written) declarations =
      NameMap.ofList (written ++ declared declarations) := by
  rw [NameMap.ofList_append, declared, List.foldl_map, overlay]

theorem apply_ofList (written : List (String × Ty)) (operation : Operation) :
    apply (NameMap.ofList written) operation = NameMap.ofList (write written operation) := by
  cases operation with
  | bind name ty => exact (NameMap.ofList_append written [(name.name, ty)]).symm
  | overlay declarations => exact overlay_ofList written declarations
  | restart declarations => exact overlay_ofList [] declarations

theorem canonical : NameMap.Canonical Ty.name text after writes :=
  NameMap.canonical_of_ofList (NameMap.foldl_ofList apply_ofList [])
    (fun _ _ => Ty.name_injective) Ty.newline_notMem_name

end TypeMap

/-- States and type maps depend on what was written to names alone.  Setting a variable changes what
it is bound to if it is bound, and no more; laying a state or declarations on top gives their entry
where they have one; and states may be laid on top of each other in either order of steps. -/
theorem canonical_maps :
    NameMap.Canonical Value.text State.text State.after State.writes ∧
    NameMap.Canonical Ty.name TypeMap.text TypeMap.after TypeMap.writes ∧
    (∀ (state : State) (name : Ident) (value : Value),
      (state.contains name.name = false → state.apply (.set name value) = state) ∧
      ∀ other, (state.apply (.set name value)).get? other =
        if other = name.name then (state.get? other).map fun _ => value else state.get? other) ∧
    (∀ (lower upper : State) (name : String),
      (lower.apply (.merge upper)).get? name = (upper.get? name).or (lower.get? name)) ∧
    (∀ first second third : State,
      (first.apply (.merge second)).apply (.merge third) =
        first.apply (.merge (second.apply (.merge third)))) ∧
    ∀ (types : TypeMap) (declarations : Definitions Declaration) (name : String),
      (types.apply (.overlay declarations)).get? name =
        ((declarations.get? name).map Declaration.ty).or (types.get? name) :=
  ⟨State.canonical, TypeMap.canonical,
    fun state name value => ⟨fun unbound => NameMap.replace_eq_self unbound value,
      fun other => NameMap.get?_replace state name.name other value⟩,
    NameMap.get?_merge, NameMap.merge_assoc, TypeMap.get?_overlay⟩

/-- Two variables that are bound in one order or in the other are shown alike, and what they are
bound to can be told from the text.  The operations on a third variable, which is not bound, and on
one that is bound already are seen too. -/
theorem canonical_maps_of_two_orders :
    let x : Ident := ⟨"x", Span.emptyAt 0⟩
    let y : Ident := ⟨"y", Span.emptyAt 0⟩
    let z : Ident := ⟨"z", Span.emptyAt 0⟩
    let state := State.after [.bind y (.int 1), .set z (.bool true), .bind x (.undefined .float)]
    let other := State.after [.bind x (.undefined .float), .bind y (.int 0), .set y (.int 1)]
    state.text = other.text ∧ state.text = "x: undef float\ny: 1\n" ∧
      (∀ name, state.get? name = other.get? name) ∧
      state.apply (.set z (.bool true)) = state := by
  intro x y z state other
  obtain ⟨states, -, sets, -⟩ := canonical_maps
  have stateLookup (name : String) : state.get? name =
      if name = "x" then some (.undefined .float)
      else if name = "y" then some (.int 1) else none := by
    rw [states.get?_eq, show State.writes _ = [("y", .int 1), ("x", .undefined .float)] by decide]
    simp [NameMap.lastWritten, NameMap.lookup_cons_eq_ite]
  have otherLookup (name : String) : other.get? name =
      if name = "y" then some (.int 1)
      else if name = "x" then some (.undefined .float) else none := by
    rw [states.get?_eq, show State.writes _ =
      [("x", .undefined .float), ("y", .int 0), ("y", .int 1)] by decide]
    simp only [NameMap.lastWritten, List.reverse_cons, List.reverse_nil, List.nil_append,
      List.cons_append, NameMap.lookup_cons_eq_ite, List.lookup_nil]
    split <;> rfl
  have sameText : state.text = other.text := (states.text_eq _ _ fun name => by
    rw [stateLookup, otherLookup]
    grind).2
  have identifiers {map : State}
      (names : ∀ name, map.contains name = true → name = "x" ∨ name = "y")
      (name : String) (bound : map.contains name = true) : TokenText .identifier name.toList := by
    rcases names name bound with rfl | rfl <;> exact (TokenText.iff_of_letter rfl).mpr ⟨nofun, rfl⟩
  refine ⟨sameText, by decide +kernel, states.get?_eq_of_text_eq _ _
    (identifiers fun name bound => ?_) (identifiers fun name bound => ?_) sameText,
    (sets state z (.bool true)).1 ?_⟩
  · rw [NameMap.contains, stateLookup] at bound
    grind
  · rw [NameMap.contains, otherLookup] at bound
    grind
  · rw [NameMap.contains, stateLookup]
    rfl

end TypedImp
