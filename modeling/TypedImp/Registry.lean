import TypedImp.Definitions
import TypedImp.NameMap.Basic

/-!
# Registries

A registry holds definitions in the order in which they were registered, and beside them an index
from names to places.  Names are looked up in the index alone, and a registry that is changed item
by item keeps the index that it has.  Nothing in the type ties the index to the definitions; an
answer says so if the index leads nowhere.
-/

namespace TypedImp

/-- Definitions in their order, and the places of names among them. -/
structure Registry (α : Type) where
  list : List α
  index : NameMap Nat

namespace Registry

variable {α β : Type}

/-- What a registry answers to a definition: that its name is new, or where the name was defined
earlier. -/
inductive Answer where
  | added
  | taken (earlier : Ident)
  | misplaced
  deriving DecidableEq

/-- Nothing is registered. -/
def empty : Registry α :=
  ⟨[], .empty⟩

/-- The definition at the place that the index knows for a name. -/
def get? (registry : Registry α) (name : String) : Option (Option α) :=
  (registry.index.get? name).map fun place => registry.list[place]?

/-- Register a definition behind the others, unless the index knows its name. -/
def insert [Named α] (registry : Registry α) (definition : α) :
    Answer × Registry α :=
  let name := (Named.ident definition).name
  match registry.get? name with
  | some (some earlier) => (.taken (Named.ident earlier), registry)
  | some none => (.misplaced, registry)
  | none =>
    (.added, ⟨registry.list ++ [definition], registry.index.insert name registry.list.length⟩)

/-- Change the definitions one after the other, up to the first failure. -/
def tryMap {ω ε : Type} (registry : Registry α) (f : α → Recorded ω ε β) :
    Recorded ω ε (Registry β) := do
  let list ← registry.list.mapM f
  return ⟨list, registry.index⟩

/-- The number of registered definitions. -/
def size (registry : Registry α) : Nat :=
  registry.list.length

/-- Whether nothing is registered. -/
def isEmpty (registry : Registry α) : Bool :=
  registry.list.isEmpty

end Registry

end TypedImp
