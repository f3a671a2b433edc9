import TypedImp.Recorded
import TypedImp.Source.Span

/-!
# Names and their definitions

The definitions of one scope stand in the order in which they were written, and no name
is defined twice.  A second definition of a name is refused and the first one given back.

`toList_insert` and `insert_eq_error_iff` say what an insertion does; `get?_eq_some_iff`
that a lookup finds the definition with a name.
-/

namespace TypedImp

/-- A name at a place of the source. -/
structure Ident where
  name : String
  span : Span
  deriving DecidableEq, Inhabited

/-- The types whose members define a name. -/
class Named (α : Type) where
  ident : α → Ident

/-- The definitions of one scope in their order, with distinct names. -/
structure Definitions (α : Type) [Named α] where
  toList : List α
  distinct : toList.Pairwise fun first second =>
    (Named.ident first).name ≠ (Named.ident second).name

namespace Definitions

variable {α β : Type} [Named α] [Named β]

/-- No definitions. -/
def empty : Definitions α :=
  ⟨[], .nil⟩

instance : Inhabited (Definitions α) :=
  ⟨empty⟩

/-- The definition of a name. -/
def get? (definitions : Definitions α) (name : String) : Option α :=
  definitions.toList.find? fun definition => (Named.ident definition).name = name

theorem name_of_get? {definitions : Definitions α} {name : String} {definition : α}
    (found : definitions.get? name = some definition) :
    (Named.ident definition).name = name := by
  simpa using List.find?_some found

theorem get?_eq_none_iff {definitions : Definitions α} {name : String} :
    definitions.get? name = none ↔
      ∀ definition ∈ definitions.toList, (Named.ident definition).name ≠ name := by
  simp [get?]

/-- Add a definition behind the others, or give back the earlier one of its name. -/
def insert (definitions : Definitions α) (definition : α) :
    Except α (Definitions α) :=
  match absent : definitions.get? (Named.ident definition).name with
  | some earlier => .error earlier
  | none =>
    .ok ⟨definitions.toList ++ [definition], by
      refine List.pairwise_append.mpr ⟨definitions.distinct, by simp, ?_⟩
      intro earlier member added addedMember
      rw [List.mem_singleton.mp addedMember]
      exact get?_eq_none_iff.mp absent earlier member⟩

/-- The number of definitions. -/
def size (definitions : Definitions α) : Nat :=
  definitions.toList.length

/-- Whether there are no definitions. -/
def isEmpty (definitions : Definitions α) : Bool :=
  definitions.toList.isEmpty

/-- Change every definition and keep its name. -/
def map (definitions : Definitions α) (f : α → β)
    (keepsName : ∀ definition, Named.ident (f definition) = Named.ident definition) :
    Definitions β :=
  ⟨definitions.toList.map f,
    List.pairwise_map.mpr (definitions.distinct.imp fun {first second} different => by
      rw [keepsName, keepsName]
      exact different)⟩

/-- Compute something for each item in its order, and put it into the item. -/
def traverseList {ω ε γ : Type} (compute : α → Recorded ω ε γ) (rebuild : α → γ → β) :
    List α → Recorded ω ε (List β)
  | [] => return []
  | first :: rest => do
    let part ← compute first
    let following ← traverseList compute rebuild rest
    return rebuild first part :: following

theorem map_ident_traverseList {ω ε γ : Type} {compute : α → Recorded ω ε γ}
    {rebuild : α → γ → β}
    (keepsName : ∀ item part, Named.ident (rebuild item part) = Named.ident item)
    {items : List α} {rebuilt : List β}
    (done : (traverseList compute rebuild items).outcome = .ok rebuilt) :
    rebuilt.map Named.ident = items.map Named.ident := by
  induction items generalizing rebuilt with
  | nil =>
    cases done
    rfl
  | cons first rest ih =>
    obtain ⟨part, _, remaining⟩ := Recorded.bind_outcome_eq_ok_iff.mp done
    obtain ⟨following, followingDone, final⟩ := Recorded.bind_outcome_eq_ok_iff.mp remaining
    cases final
    simp [keepsName, ih followingDone]

theorem distinct_of_map_ident {items : List α} {rebuilt : List β}
    (same : rebuilt.map Named.ident = items.map Named.ident)
    (distinct : items.Pairwise fun first second =>
      (Named.ident first).name ≠ (Named.ident second).name) :
    rebuilt.Pairwise fun first second =>
      (Named.ident first).name ≠ (Named.ident second).name := by
  have names : (items.map Named.ident).Pairwise fun first second =>
      first.name ≠ second.name := List.pairwise_map.mpr distinct
  rw [← same] at names
  simpa only [List.pairwise_map] using names

/-- Compute something for each definition in its order, and put it into the definition,
which keeps its name. -/
def traverse {ω ε γ : Type} (definitions : Definitions α) (compute : α → Recorded ω ε γ)
    (rebuild : α → γ → β)
    (keepsName : ∀ item part, Named.ident (rebuild item part) = Named.ident item) :
    Recorded ω ε (Definitions β) :=
  let result := traverseList compute rebuild definitions.toList
  ⟨result.events,
    match done : result.outcome with
    | .ok rebuilt =>
      .ok ⟨rebuilt, distinct_of_map_ident (map_ident_traverseList keepsName done)
        definitions.distinct⟩
    | .error error => .error error⟩

/-- An insertion that succeeds adds the definition at the end. -/
theorem toList_insert {definitions extended : Definitions α} {definition : α}
    (inserted : definitions.insert definition = .ok extended) :
    extended.toList = definitions.toList ++ [definition] := by
  unfold insert at inserted
  split at inserted
  · cases inserted
  · cases inserted
    rfl

/-- An insertion is refused exactly if the name is defined, with its definition. -/
theorem insert_eq_error_iff {definitions : Definitions α} {definition earlier : α} :
    definitions.insert definition = .error earlier ↔
      definitions.get? (Named.ident definition).name = some earlier := by
  unfold insert
  split
  case _ found => simp [found]
  case _ absent => simp [absent]

/-- A lookup finds a definition exactly if it is there under its name. -/
theorem get?_eq_some_iff {definitions : Definitions α} {name : String} {definition : α} :
    definitions.get? name = some definition ↔
      definition ∈ definitions.toList ∧ (Named.ident definition).name = name := by
  refine ⟨fun found => ⟨List.mem_of_find?_eq_some found, name_of_get? found⟩, ?_⟩
  obtain ⟨entries, distinct⟩ := definitions
  simp only [get?]
  induction entries with
  | nil => simp
  | cons head rest ih =>
    obtain ⟨headDiffers, restDistinct⟩ := List.pairwise_cons.mp distinct
    rintro ⟨member, named⟩
    rcases List.mem_cons.mp member with same | inRest
    · subst same
      simp [named]
    · have different : (Named.ident head).name ≠ name := named ▸ headDiffers _ inRest
      simpa [different] using ih restDistinct ⟨inRest, named⟩

theorem mem_of_get? {definitions : Definitions α} {name : String} {definition : α}
    (found : definitions.get? name = some definition) : definition ∈ definitions.toList :=
  (get?_eq_some_iff.mp found).1

theorem get?_of_isEmpty {definitions : Definitions α} (isEmpty : definitions.isEmpty = true)
    (name : String) : definitions.get? name = none := by
  rw [get?, List.isEmpty_iff.mp isEmpty]
  rfl

/-- A change that keeps the names is seen by every lookup. -/
theorem get?_map (definitions : Definitions α) (f : α → β)
    (keepsName : ∀ definition, Named.ident (f definition) = Named.ident definition)
    (name : String) :
    (definitions.map f keepsName).get? name = (definitions.get? name).map f := by
  simp only [get?, map, List.find?_map]
  congr 2
  funext definition
  simp [keepsName]

theorem ext_toList {first second : Definitions α} (same : first.toList = second.toList) :
    first = second := by
  cases first
  cases second
  simpa using same

end Definitions

end TypedImp
