/-!
# Maps from names

A map from names is the list of its entries in increasing order of their names, so that
two maps with the same entries are the same map, whatever was done to build them.
Strings are ordered by code points, which is the order of their UTF-8 forms too.
-/

namespace TypedImp

/-- A finite map from names, as its entries in increasing order. -/
structure NameMap (α : Type) where
  entries : List (String × α)
  increasing : entries.Pairwise fun first second => first.1 < second.1

namespace NameMap

variable {α β : Type}

instance [DecidableEq α] : DecidableEq (NameMap α) := fun first second =>
  decidable_of_iff (first.entries = second.entries) <| by
    cases first
    cases second
    simp

/-- The map without entries. -/
def empty : NameMap α :=
  ⟨[], .nil⟩

instance : Inhabited (NameMap α) :=
  ⟨empty⟩

/-- Put an entry at its place, instead of an earlier one with its name. -/
def insertEntry (name : String) (value : α) : List (String × α) → List (String × α)
  | [] => [(name, value)]
  | (key, old) :: rest =>
    if name < key then (name, value) :: (key, old) :: rest
    else if name = key then (name, value) :: rest
    else (key, old) :: insertEntry name value rest

theorem mem_insertEntry {name : String} {value : α} {entries : List (String × α)}
    {entry : String × α} (member : entry ∈ insertEntry name value entries) :
    entry = (name, value) ∨ entry ∈ entries := by
  induction entries with
  | nil => simpa [insertEntry] using member
  | cons head rest ih =>
    obtain ⟨key, old⟩ := head
    simp only [insertEntry] at member
    split at member
    · simpa using member
    split at member
    · rcases List.mem_cons.mp member with same | inRest
      · exact .inl same
      · exact .inr (List.mem_cons_of_mem _ inRest)
    · rcases List.mem_cons.mp member with same | inRest
      · exact .inr (by simp [same])
      · rcases ih inRest with same | inRest
        · exact .inl same
        · exact .inr (List.mem_cons_of_mem _ inRest)

theorem increasing_insertEntry (name : String) (value : α) {entries : List (String × α)}
    (increasing : entries.Pairwise fun first second => first.1 < second.1) :
    (insertEntry name value entries).Pairwise fun first second => first.1 < second.1 := by
  induction entries with
  | nil => simp [insertEntry]
  | cons head rest ih =>
    obtain ⟨key, old⟩ := head
    obtain ⟨headLess, restIncreasing⟩ := List.pairwise_cons.mp increasing
    simp only [insertEntry]
    split
    case _ less =>
      refine List.pairwise_cons.mpr ⟨fun entry member => ?_, increasing⟩
      rcases List.mem_cons.mp member with same | inRest
      · simpa [same] using less
      · exact String.lt_trans less (headLess entry inRest)
    case _ notLess =>
      split
      case _ same =>
        subst same
        exact List.pairwise_cons.mpr ⟨headLess, restIncreasing⟩
      case _ different =>
        refine List.pairwise_cons.mpr ⟨fun entry member => ?_, ih restIncreasing⟩
        rcases mem_insertEntry member with same | inRest
        · subst same
          have atMost := String.not_lt.mp notLess
          exact Decidable.byContradiction fun notGreater =>
            different (String.le_antisymm (String.not_lt.mp notGreater) atMost)
        · exact headLess entry inRest

/-- Bind a name to a value, instead of what it was bound to. -/
def insert (map : NameMap α) (name : String) (value : α) : NameMap α :=
  ⟨insertEntry name value map.entries, increasing_insertEntry name value map.increasing⟩

/-- The value that a name is bound to. -/
def get? (map : NameMap α) (name : String) : Option α :=
  map.entries.lookup name

/-- Whether a name is bound. -/
def contains (map : NameMap α) (name : String) : Bool :=
  (map.get? name).isSome

/-- Bind a name to another value if it is bound. -/
def replace (map : NameMap α) (name : String) (value : α) : NameMap α :=
  ⟨map.entries.map fun entry => if entry.1 = name then (entry.1, value) else entry, by
    refine List.pairwise_map.mpr (map.increasing.imp fun {first second} less => ?_)
    split <;> split <;> exact less⟩

/-- Change what every name is bound to. -/
def map (bindings : NameMap α) (f : α → β) : NameMap β :=
  ⟨bindings.entries.map fun entry => (entry.1, f entry.2),
    List.pairwise_map.mpr bindings.increasing⟩

/-- Lay the entries of another map on top. -/
def merge (map other : NameMap α) : NameMap α :=
  other.entries.foldl (fun merged entry => merged.insert entry.1 entry.2) map

/-- The map of a list of entries, of which the last with a name counts. -/
def ofList (entries : List (String × α)) : NameMap α :=
  entries.foldl (fun map entry => map.insert entry.1 entry.2) empty

/-- The number of names that are bound. -/
def size (map : NameMap α) : Nat :=
  map.entries.length

/-- Whether no name is bound. -/
def isEmpty (map : NameMap α) : Bool :=
  map.entries.isEmpty

/-- Write one line for each entry. -/
def textWith (write : α → String) (map : NameMap α) : String :=
  String.join (map.entries.map fun (name, value) => s!"{name}: {write value}\n")

end NameMap

end TypedImp
