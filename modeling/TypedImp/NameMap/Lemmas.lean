import TypedImp.NameMap.Basic

/-!
# Looking names up

What each operation does to the lookup of a name.  `ext_get?` says that the lookups
determine a map.
-/

namespace TypedImp.NameMap

variable {α β : Type}

@[simp]
theorem get?_empty (name : String) : (empty : NameMap α).get? name = none :=
  rfl

theorem lookup_cons_eq_ite (entry : String × α) (rest : List (String × α)) (name : String) :
    (entry :: rest).lookup name = if name = entry.1 then some entry.2 else rest.lookup name := by
  obtain ⟨key, value⟩ := entry
  by_cases same : name = key
  · simp [same]
  · have different : (name == key) = false := by simpa using same
    simp only [List.lookup_cons, different, same, if_false]

theorem lookup_eq_none_of_less {entries : List (String × α)} {name : String}
    (less : ∀ entry ∈ entries, name < entry.1) : entries.lookup name = none := by
  induction entries with
  | nil => rfl
  | cons head rest ih =>
    have headLess := less head (by simp)
    have different : name ≠ head.1 := fun same => String.lt_irrefl name (same ▸ headLess)
    rw [lookup_cons_eq_ite, if_neg different]
    exact ih fun entry member => less entry (by simp [member])

theorem lookup_insertEntry (name other : String) (value : α) (entries : List (String × α)) :
    (insertEntry name value entries).lookup other =
      if other = name then some value else entries.lookup other := by
  induction entries with
  | nil => simp [insertEntry, lookup_cons_eq_ite]
  | cons head rest ih =>
    obtain ⟨key, old⟩ := head
    simp only [insertEntry]
    split
    · simp [lookup_cons_eq_ite]
    split
    case _ same =>
      subst same
      by_cases atName : other = name <;> simp [lookup_cons_eq_ite, atName]
    case _ different =>
      by_cases atKey : other = key
      · subst atKey
        simp [Ne.symm different]
      · simp [lookup_cons_eq_ite, atKey, ih]

/-- An insertion is seen by lookups of its own name only. -/
@[simp]
theorem get?_insert (map : NameMap α) (name other : String) (value : α) :
    (map.insert name value).get? other =
      if other = name then some value else map.get? other :=
  lookup_insertEntry name other value map.entries

/-- A replacement is seen by lookups of its own name only, and only if that is bound. -/
@[simp]
theorem get?_replace (map : NameMap α) (name other : String) (value : α) :
    (map.replace name value).get? other =
      if other = name then (map.get? other).map fun _ => value else map.get? other := by
  simp only [get?, replace]
  induction map.entries with
  | nil => simp
  | cons head rest ih =>
    obtain ⟨key, old⟩ := head
    rw [List.map_cons, lookup_cons_eq_ite, lookup_cons_eq_ite]
    by_cases atKey : key = name
    · subst atKey
      by_cases same : other = key
      · simp [same]
      · simpa [same] using ih
    · by_cases same : other = key
      · subst same
        simp [atKey]
      · simpa [atKey, same] using ih

/-- Changing what names are bound to changes what lookups give. -/
@[simp]
theorem get?_map (bindings : NameMap α) (f : α → β) (name : String) :
    (bindings.map f).get? name = (bindings.get? name).map f := by
  simp only [get?, map]
  induction bindings.entries with
  | nil => rfl
  | cons head rest ih =>
    rw [List.map_cons, lookup_cons_eq_ite, lookup_cons_eq_ite, ih]
    by_cases same : name = head.1 <;> simp [same]

theorem get?_foldl_insert (map : NameMap α) (entries : List (String × α)) (name : String) :
    (entries.foldl (fun merged entry => merged.insert entry.1 entry.2) map).get? name =
      (entries.reverse.lookup name).or (map.get? name) := by
  induction entries generalizing map with
  | nil => simp
  | cons head rest ih =>
    rw [List.foldl_cons, ih, get?_insert, List.reverse_cons, List.lookup_append]
    rw [lookup_cons_eq_ite, Option.or_assoc]
    by_cases same : name = head.1 <;> simp [same]

theorem mem_of_lookup {entries : List (String × α)} {name : String} {value : α}
    (found : entries.lookup name = some value) : (name, value) ∈ entries := by
  induction entries with
  | nil => simp at found
  | cons head rest ih =>
    rw [lookup_cons_eq_ite] at found
    split at found
    case _ same =>
      cases found
      simp [same]
    · exact List.mem_cons_of_mem _ (ih found)

theorem lookup_eq_some_iff {entries : List (String × α)} {name : String} {value : α}
    (increasing : entries.Pairwise fun first second => first.1 < second.1) :
    entries.lookup name = some value ↔ (name, value) ∈ entries := by
  refine ⟨mem_of_lookup, fun member => ?_⟩
  induction entries with
  | nil => simp at member
  | cons head rest ih =>
    obtain ⟨headLess, restIncreasing⟩ := List.pairwise_cons.mp increasing
    rw [lookup_cons_eq_ite]
    rcases List.mem_cons.mp member with same | inRest
    · simp [← same]
    · have less : head.1 < name := headLess _ inRest
      have different : name ≠ head.1 := fun same => String.lt_irrefl name (same ▸ less)
      rw [if_neg different]
      exact ih restIncreasing inRest

/-- A name is bound to a value exactly if the two are an entry. -/
theorem get?_eq_some_iff (map : NameMap α) (name : String) (value : α) :
    map.get? name = some value ↔ (name, value) ∈ map.entries :=
  lookup_eq_some_iff map.increasing

theorem lookup_reverse {entries : List (String × α)} (name : String)
    (increasing : entries.Pairwise fun first second => first.1 < second.1) :
    entries.reverse.lookup name = entries.lookup name := by
  induction entries with
  | nil => rfl
  | cons head rest ih =>
    obtain ⟨headLess, restIncreasing⟩ := List.pairwise_cons.mp increasing
    rw [List.reverse_cons, List.lookup_append, ih restIncreasing]
    rw [lookup_cons_eq_ite, lookup_cons_eq_ite]
    by_cases same : name = head.1
    · rw [same, lookup_eq_none_of_less headLess]
      simp
    · simp [same]

/-- A merged map gives what the upper map gives, and else what the lower one gives. -/
@[simp]
theorem get?_merge (map other : NameMap α) (name : String) :
    (map.merge other).get? name = (other.get? name).or (map.get? name) := by
  rw [merge, get?_foldl_insert, lookup_reverse name other.increasing]
  rfl

/-- The last entry of a list with a name is what the map of the list gives. -/
theorem get?_ofList (entries : List (String × α)) (name : String) :
    (ofList entries).get? name = entries.reverse.lookup name := by
  simp [ofList, get?_foldl_insert]

theorem entries_eq_of_mem_iff {first second : List (String × α)}
    (firstIncreasing : first.Pairwise fun left right => left.1 < right.1)
    (secondIncreasing : second.Pairwise fun left right => left.1 < right.1)
    (same : ∀ entry, entry ∈ first ↔ entry ∈ second) : first = second := by
  induction first generalizing second with
  | nil =>
    cases second with
    | nil => rfl
    | cons head rest => simpa using (same head).mpr (by simp)
  | cons head rest ih =>
    cases second with
    | nil => simpa using (same head).mp (by simp)
    | cons other others =>
      obtain ⟨headLess, restIncreasing⟩ := List.pairwise_cons.mp firstIncreasing
      obtain ⟨otherLess, othersIncreasing⟩ := List.pairwise_cons.mp secondIncreasing
      have headSame : head = other := by
        rcases List.mem_cons.mp ((same head).mp (by simp)) with equal | headLater
        · exact equal
        rcases List.mem_cons.mp ((same other).mpr (by simp)) with equal | otherLater
        · exact equal.symm
        exact absurd (headLess other otherLater) (String.lt_asymm (otherLess head headLater))
      subst headSame
      refine congrArg (head :: ·) (ih restIncreasing othersIncreasing fun entry => ?_)
      have notFirst : entry ∈ rest → entry ≠ head := fun member equal =>
        String.lt_irrefl head.1 (by simpa [equal] using headLess entry member)
      have notSecond : entry ∈ others → entry ≠ head := fun member equal =>
        String.lt_irrefl head.1 (by simpa [equal] using otherLess entry member)
      have whole := same entry
      simp only [List.mem_cons] at whole
      by_cases equal : entry = head
      · exact ⟨fun member => absurd equal (notFirst member),
          fun member => absurd equal (notSecond member)⟩
      · simpa [equal] using whole

/-- The lookups determine a map. -/
theorem ext_get? {first second : NameMap α}
    (same : ∀ name, first.get? name = second.get? name) : first = second := by
  have entriesSame : first.entries = second.entries :=
    entries_eq_of_mem_iff first.increasing second.increasing fun (name, value) => by
      rw [← get?_eq_some_iff, ← get?_eq_some_iff, same]
  cases first
  cases second
  simpa using entriesSame

end TypedImp.NameMap
