import TypedImp.NameMap.Lemmas
import TypedImp.Proofs.Text.Bytes
import TypedImp.Proofs.Text.Cutting
import TypedImp.Proofs.Text.Outlines
import TypedImp.Proofs.Token.TokenText

/-!
# Texts of maps

A map is shown with one line for each name that is bound, in the order of the names.  The text
depends only on what lookups give, and it gives the lookups back if the names are identifiers and
values are known from their texts.
-/

namespace TypedImp.NameMap

variable {α : Type} {write : α → String}

/-- A map is shown with some entries of names and written values: they are those that lookups give,
each of them once, in increasing order of the bytes of their names, and each of them has a line of
its own. -/
structure ShownBy (map : NameMap α) (write : α → String) (entries : List (String × String))
    (text : String) : Prop where
  text_eq : text = String.join (entries.map fun entry => entry.1 ++ ": " ++ entry.2 ++ "\n")
  length_eq : entries.length = map.size
  mem_iff : ∀ name value, (name, value) ∈ entries ↔ (map.get? name).map write = some value
  increasing : entries.Pairwise fun first second => Text.bytes first.1 < Text.bytes second.1
  lines_eq : (∀ entry ∈ entries, '\n' ∉ entry.1.toList) →
    Source.lines text.toList =
      (entries.map fun entry => (entry.1 ++ ": " ++ entry.2).toList) ++ [[]]

theorem toList_join_lines (entries : List (String × String)) :
    (String.join (entries.map fun entry => entry.1 ++ ": " ++ entry.2 ++ "\n")).toList =
      Source.ofLines (entries.map fun entry => (entry.1 ++ ": " ++ entry.2).toList) := by
  simp [String.toList_join, Source.ofLines, List.flatMap_map]

theorem textWith_eq_join (map : NameMap α) :
    textWith write map = String.join
      ((map.map write).entries.map fun entry => entry.1 ++ ": " ++ entry.2 ++ "\n") := by
  rw [textWith, NameMap.map, List.map_map]
  rfl

theorem shownBy_textWith (oneLine : ∀ value, '\n' ∉ (write value).toList) (map : NameMap α) :
    ShownBy map write (map.map write).entries (textWith write map) where
  text_eq := textWith_eq_join map
  length_eq := List.length_map _
  mem_iff name value := by rw [← get?_eq_some_iff, get?_map]
  increasing := (map.map write).increasing.imp Text.bytes_lt
  lines_eq names := by
    rw [textWith_eq_join, toList_join_lines]
    refine Text.Outline.lines_ofLines (List.forall_mem_map.mpr fun entry member => ?_)
    obtain ⟨original, _, rfl⟩ := List.mem_map.mp member
    simpa [names _ member] using oneLine original.2

/-- What lookups show determines the text. -/
theorem textWith_eq_of_shown {first second : NameMap α}
    (same : ∀ name, (first.get? name).map write = (second.get? name).map write) :
    first.size = second.size ∧ textWith write first = textWith write second := by
  have shown : first.map write = second.map write := ext_get? fun name => by
    rw [get?_map, get?_map, same]
  constructor
  · simpa [NameMap.map, size] using congrArg size shown
  · rw [textWith_eq_join, textWith_eq_join, shown]

/-- Nothing but letters and digits is in an identifier. -/
theorem isAlphanum_of_identifier {name : List Char} (isIdentifier : TokenText .identifier name) :
    ∀ c ∈ name, c.isAlphanum = true := by
  cases isIdentifier with
  | spelled spelling => cases spelling
  | identifier letter word =>
    refine List.forall_mem_cons.mpr ⟨?_, word⟩
    simp [Char.isAlphanum, letter]

/-- A line gives back an identifier and what is written behind it. -/
theorem line_injective {entry other : String × String}
    (isIdentifier : TokenText .identifier entry.1.toList)
    (isIdentifier' : TokenText .identifier other.1.toList)
    (same : (entry.1 ++ ": " ++ entry.2).toList = (other.1 ++ ": " ++ other.2).toList) :
    entry = other := by
  have noColon {name : List Char} (isIdentifier : TokenText .identifier name) :
      ∀ c ∈ name, c ≠ ':' := by
    rintro c member rfl
    exact absurd (isAlphanum_of_identifier isIdentifier _ member) (by decide)
  simp only [String.toList_append, List.append_assoc] at same
  obtain ⟨names, behind⟩ := Text.append_inj_of_stop (noColon isIdentifier) (noColon isIdentifier')
    (by simp) (by simp) same
  exact Prod.ext (String.toList_inj.mp names)
    (String.toList_inj.mp (List.append_cancel_left behind))

/-- Lines give back the entries that they are written for. -/
theorem eq_of_lines_eq {entries others : List (String × String)}
    (identifiers : ∀ entry ∈ entries, TokenText .identifier entry.1.toList)
    (identifiers' : ∀ entry ∈ others, TokenText .identifier entry.1.toList)
    (same : (entries.map fun entry => (entry.1 ++ ": " ++ entry.2).toList) =
      others.map fun entry => (entry.1 ++ ": " ++ entry.2).toList) : entries = others := by
  induction entries generalizing others with
  | nil => exact (List.map_eq_nil_iff.mp same.symm).symm
  | cons entry entries ih =>
    obtain ⟨other, rest, rfl, sameLine, sameRest⟩ := List.map_eq_cons_iff.mp same.symm
    rw [List.forall_mem_cons] at identifiers identifiers'
    rw [line_injective identifiers'.1 identifiers.1 sameLine,
      ih identifiers.2 identifiers'.2 sameRest.symm]

/-- The text determines a map, if the names are identifiers. -/
theorem eq_of_textWith_eq (injective : Function.Injective write)
    (oneLine : ∀ value, '\n' ∉ (write value).toList) {first second : NameMap α}
    (identifiers : ∀ name, first.contains name = true → TokenText .identifier name.toList)
    (identifiers' : ∀ name, second.contains name = true → TokenText .identifier name.toList)
    (same : textWith write first = textWith write second) : first = second := by
  have ofEntries {map : NameMap α}
      (all : ∀ name, map.contains name = true → TokenText .identifier name.toList) :
      ∀ entry ∈ (map.map write).entries, TokenText .identifier entry.1.toList := by
    rintro ⟨name, shown⟩ member
    have bound := ((shownBy_textWith oneLine map).mem_iff name shown).mp member
    refine all name ?_
    rw [contains, ← Option.isSome_map (f := write), bound]
    rfl
  have oneLineNames {map : NameMap α}
      (all : ∀ entry ∈ (map.map write).entries, TokenText .identifier entry.1.toList) :
      ∀ entry ∈ (map.map write).entries, '\n' ∉ entry.1.toList := fun entry member newline =>
    absurd (isAlphanum_of_identifier (all entry member) _ newline) (by decide)
  have lines := congrArg (fun text => Source.lines text.toList) same
  rw [(shownBy_textWith oneLine first).lines_eq (oneLineNames (ofEntries identifiers)),
    (shownBy_textWith oneLine second).lines_eq (oneLineNames (ofEntries identifiers')),
    List.append_left_inj] at lines
  have entries := eq_of_lines_eq (ofEntries identifiers) (ofEntries identifiers') lines
  refine ext_get? fun name => Option.map_injective injective ?_
  rw [← get?_map, ← get?_map, get?, get?, entries]

end TypedImp.NameMap
