import TypedImp.Proofs.Source.Lines
import TypedImp.Proofs.Text.Cutting
import TypedImp.Text.Outline

/-!
# What an outline is written from

The lines of a written outline give back the items.  The spaces of a line say how deep an item is,
and the items below it are the deeper ones that follow, up to the next one that is not deeper:
`write_injective`.
-/

namespace TypedImp.Text.Outline

/-- A label that is told from the spaces before it and from the lines around it. -/
structure IsLabel (label : String) : Prop where
  noSpace : ∀ c ∈ label.toList.head?, c ≠ ' '
  oneLine : '\n' ∉ label.toList

mutual

/-- An item and all items below it have such labels. -/
def Labelled : Outline → Prop
  | item label below => IsLabel label ∧ AllLabelled below

/-- Some items and all items below them have such labels. -/
def AllLabelled : List Outline → Prop
  | [] => True
  | first :: rest => Labelled first ∧ AllLabelled rest

end

theorem allLabelled_iff {items : List Outline} :
    AllLabelled items ↔ ∀ item ∈ items, Labelled item := by
  induction items with
  | nil => simp [AllLabelled]
  | cons first rest ih => rw [AllLabelled, ih, List.forall_mem_cons]

theorem toList_line (depth : Nat) (label : String) :
    (line depth label).toList = List.replicate (2 * depth) ' ' ++ label.toList := by
  simp [line]

theorem line_injective {depth depth' : Nat} {label label' : String} (isLabel : IsLabel label)
    (isLabel' : IsLabel label') (same : line depth label = line depth' label') :
    depth = depth' ∧ label = label' := by
  have characters := congrArg String.toList same
  rw [toList_line, toList_line] at characters
  obtain ⟨spaces, labels⟩ := append_inj_of_stop (fun _ => List.eq_of_mem_replicate)
    (fun _ => List.eq_of_mem_replicate) isLabel.noSpace isLabel'.noSpace characters
  have twice := congrArg List.length spaces
  rw [List.length_replicate, List.length_replicate] at twice
  exact ⟨by omega, String.toList_inj.mp labels⟩

/-- Lines of which the first one is less deep than given, if there is one. -/
def Shallower (depth : Nat) (lines : List String) : Prop :=
  ∀ first ∈ lines.head?, ∃ outer label, outer < depth ∧ IsLabel label ∧ first = line outer label

theorem Shallower.not_item {depth : Nat} {lines behind : List String} {label : String}
    (shallower : Shallower depth lines) (isLabel : IsLabel label) :
    lines ≠ line depth label :: behind := by
  rintro rfl
  obtain ⟨outer, other, less, isOther, same⟩ := shallower _ rfl
  obtain ⟨rfl, _⟩ := line_injective isLabel isOther same
  exact Nat.lt_irrefl _ less

theorem Shallower.append {depth : Nat} {tail : List String} (shallower : Shallower depth tail)
    {items : List Outline} (labelled : AllLabelled items) :
    Shallower (depth + 1) (linesOfAll depth items ++ tail) := by
  match items with
  | [] =>
    intro first isFirst
    obtain ⟨outer, label, less, isLabel, same⟩ := shallower first isFirst
    exact ⟨outer, label, Nat.lt_succ_of_lt less, isLabel, same⟩
  | .item label below :: rest =>
    rintro first isFirst
    cases isFirst
    exact ⟨depth, label, Nat.lt_succ_self depth, labelled.1.1, rfl⟩

/-- Items and what follows them are known from the lines, if what follows is less deep. -/
theorem eq_of_linesOfAll_append {depth : Nat} {items others : List Outline}
    {tail tail' : List String} (labelled : AllLabelled items) (labelled' : AllLabelled others)
    (shallower : Shallower depth tail) (shallower' : Shallower depth tail')
    (same : linesOfAll depth items ++ tail = linesOfAll depth others ++ tail') :
    items = others ∧ tail = tail' := by
  match items, others with
  | [], [] => exact ⟨rfl, same⟩
  | [], .item label below :: rest => exact (shallower.not_item labelled'.1.1 same).elim
  | .item label below :: rest, [] => exact (shallower'.not_item labelled.1.1 same.symm).elim
  | .item label below :: rest, .item label' below' :: rest' =>
    simp only [linesOfAll, lines, List.cons_append, List.append_assoc] at same
    obtain ⟨head, following⟩ := List.cons.inj same
    obtain ⟨_, rfl⟩ := line_injective labelled.1.1 labelled'.1.1 head
    -- The items below end where a line is no deeper than this one.
    obtain ⟨rfl, behind⟩ := eq_of_linesOfAll_append labelled.1.2 labelled'.1.2
      (shallower.append labelled.2) (shallower'.append labelled'.2) following
    obtain ⟨rfl, rest⟩ :=
      eq_of_linesOfAll_append labelled.2 labelled'.2 shallower shallower' behind
    exact ⟨rfl, rest⟩
termination_by sizeOf items

mutual

theorem oneLine_of_lines {depth : Nat} {item : Outline} (labelled : Labelled item) :
    ∀ line ∈ lines depth item, '\n' ∉ line.toList := by
  match item with
  | .item label below =>
    refine List.forall_mem_cons.mpr ⟨?_, oneLine_of_linesOfAll labelled.2⟩
    rw [toList_line]
    simp [labelled.1.oneLine]

theorem oneLine_of_linesOfAll {depth : Nat} {items : List Outline}
    (labelled : AllLabelled items) : ∀ line ∈ linesOfAll depth items, '\n' ∉ line.toList := by
  match items with
  | [] => nofun
  | first :: rest =>
    exact List.forall_mem_append.mpr
      ⟨oneLine_of_lines labelled.1, oneLine_of_linesOfAll labelled.2⟩

end

theorem toList_write (items : List Outline) :
    (write items).toList = Source.ofLines ((linesOfAll 0 items).map String.toList) := by
  simp [write, Source.ofLines, String.toList_join, List.flatMap_map]

theorem lines_ofLines {lines : List (List Char)} (oneLine : ∀ line ∈ lines, '\n' ∉ line) :
    Source.lines (Source.ofLines lines) = lines ++ [[]] := by
  induction lines with
  | nil => rfl
  | cons line rest ih =>
    rw [List.forall_mem_cons] at oneLine
    have cut := Source.lines_cons oneLine.1 (Source.ofLines rest)
    rw [ih oneLine.2] at cut
    simpa [Source.ofLines] using cut

/-- Items with labels of one line that begin with no space are known from their written form. -/
theorem write_injective {items others : List Outline} (labelled : AllLabelled items)
    (labelled' : AllLabelled others) (same : write items = write others) : items = others := by
  have lines := congrArg (Source.lines ∘ String.toList) same
  simp only [Function.comp_apply, toList_write] at lines
  rw [lines_ofLines (List.forall_mem_map.mpr (oneLine_of_linesOfAll labelled)),
    lines_ofLines (List.forall_mem_map.mpr (oneLine_of_linesOfAll labelled')),
    List.append_left_inj] at lines
  have sameLines := List.map_injective_iff.mpr (fun _ _ => String.toList_injective) lines
  have nothing : Shallower 0 [] := nofun
  refine (eq_of_linesOfAll_append labelled labelled' nothing nothing ?_).1
  rw [sameLines]

end TypedImp.Text.Outline
