import TypedImp.Proofs.Source.Lines
import TypedImp.Proofs.Source.Regions

/-!
# Positions are places

Positions are ordered by their lines and within a line by their columns.  A longer part of a text
ends at a later position, so that positions are ordered like the offsets that they belong to, and
the lines of a text give an offset back from its position: `position_order`.
-/

namespace TypedImp

namespace Position

/-- A position is before another one if it is in an earlier line, or in the same line at an earlier
column. -/
def Before (first second : Position) : Prop :=
  first.line < second.line ∨ first.line = second.line ∧ first.column < second.column

instance (first second : Position) : Decidable (first.Before second) :=
  inferInstanceAs (Decidable (_ ∨ _))

theorem Before.trans {first second third : Position} (earlier : first.Before second)
    (later : second.Before third) : first.Before third := by
  rcases earlier with line | ⟨line, column⟩ <;> rcases later with line' | ⟨line', column'⟩
  · exact .inl (Nat.lt_trans line line')
  · exact .inl (line' ▸ line)
  · exact .inl (line ▸ line')
  · exact .inr ⟨line.trans line', Nat.lt_trans column column'⟩

theorem Before.irrefl (position : Position) : ¬ position.Before position := by
  rintro (line | ⟨_, column⟩)
  · exact Nat.lt_irrefl _ line
  · exact Nat.lt_irrefl _ column

/-- One character more is a later position. -/
theorem before_advance (position : Position) (c : Char) : position.Before (position.advance c) := by
  rw [advance]
  split
  · exact .inl (Nat.lt_succ_self _)
  · exact .inr ⟨rfl, Nat.lt_succ_self _⟩

/-- Any number of characters more is a later position. -/
theorem before_foldl_advance (position : Position) (c : Char) (text : List Char) :
    position.Before ((c :: text).foldl advance position) := by
  induction text generalizing position c with
  | nil => exact before_advance position c
  | cons next text ih => exact (before_advance position c).trans (ih (position.advance c) next)

/-- A position stands for an offset of a text: its line is one of the text, its column goes at most
one character beyond that line, and the offset is that of the begin of the line and the bytes of the
characters before the column.  Lines and columns are counted from one. -/
def StandsFor (position : Position) (text : List Char) (offset : Nat) : Prop :=
  1 ≤ position.line ∧ 1 ≤ position.column ∧
    ∃ line, (Source.lines text)[position.line - 1]? = some line ∧
      position.column - 1 ≤ line.length ∧
      offset = Source.byteLength (Source.ofLines ((Source.lines text).take (position.line - 1))) +
        Source.byteLength (line.take (position.column - 1))

/-- A position stands for one offset. -/
theorem StandsFor.eq {position : Position} {text : List Char} {first second : Nat}
    (stands : position.StandsFor text first) (stands' : position.StandsFor text second) :
    first = second := by
  obtain ⟨_, _, line, isLine, _, offset⟩ := stands
  obtain ⟨_, _, line', isLine', _, offset'⟩ := stands'
  obtain rfl : line = line' := Option.some.inj (isLine.symm.trans isLine')
  exact offset.trans offset'.symm

end Position

namespace Source

/-- What comes before an offset begins with what comes before an earlier one. -/
theorem exists_before_append {first second : Nat} (le : first ≤ second) (text : List Char) :
    ∃ between, before second text = before first text ++ between := by
  induction text generalizing first second with
  | nil => exact ⟨[], rfl⟩
  | cons c text ih =>
    by_cases fits : c.utf8Size ≤ first
    · obtain ⟨between, split⟩ := ih (Nat.sub_le_sub_right le c.utf8Size)
      exact ⟨between, by simp [before, fits, Nat.le_trans fits le, split]⟩
    · exact ⟨before second (c :: text), by simp [before, fits]⟩

end Source

namespace Position

variable {text : List Char} {offset first second : Nat}

/-- The position of an offset stands for it. -/
theorem standsFor_ofOffset (boundary : Source.isBoundary offset text = true) :
    (ofOffset offset text).StandsFor text offset := by
  obtain ⟨earlier, later, lines, count, whole⟩ :=
    Source.exists_lines_append (Source.before offset text) (Source.after offset text)
  rw [Source.before_append_after] at lines
  have bytes := congrArg Source.byteLength whole
  rw [Source.byteLength_append, eq_of_beq boundary] at bytes
  rw [ofOffset, behind_eq]
  refine ⟨Nat.le_add_left _ _, Nat.le_add_left _ _,
    Source.lastLine (Source.before offset text) ++ Source.firstLine (Source.after offset text),
    ?_, ?_, ?_⟩
  · simp [lines, ← count]
  · simp
  · simp [lines, ← count, bytes]

/-- A later offset has a later position. -/
theorem before_ofOffset (boundary : Source.isBoundary first text = true)
    (boundary' : Source.isBoundary second text = true) (less : first < second) :
    (ofOffset first text).Before (ofOffset second text) := by
  obtain ⟨between, split⟩ := Source.exists_before_append (Nat.le_of_lt less) text
  cases between with
  | nil =>
    rw [List.append_nil] at split
    rw [Source.isBoundary, split, eq_of_beq boundary] at boundary'
    exact absurd (eq_of_beq boundary') (Nat.ne_of_lt less)
  | cons c between =>
    rw [ofOffset, ofOffset, split, behind, behind, List.foldl_append]
    exact before_foldl_advance _ c between

/-- Of two offsets that cut no character the smaller one has the earlier position, and each of them
is the one that its position stands for.  So no position belongs to both. -/
theorem position_order (boundary : Source.isBoundary first text = true)
    (boundary' : Source.isBoundary second text = true) :
    ((ofOffset first text).Before (ofOffset second text) ↔ first < second) ∧
      (∀ offset, (ofOffset first text).StandsFor text offset ↔ offset = first) ∧
      (ofOffset first text = ofOffset second text ↔ first = second) := by
  have stands := standsFor_ofOffset boundary
  have stands' := standsFor_ofOffset boundary'
  refine ⟨⟨fun earlier => ?_, before_ofOffset boundary boundary'⟩, fun offset => ⟨?_, ?_⟩, ?_, ?_⟩
  · rcases Nat.lt_trichotomy first second with less | rfl | greater
    · exact less
    · exact (Before.irrefl _ earlier).elim
    · exact (Before.irrefl _ (earlier.trans (before_ofOffset boundary' boundary greater))).elim
  · exact fun other => other.eq stands
  · rintro rfl
    exact stands
  · intro same
    rw [← same] at stands'
    exact stands.eq stands'
  · rintro rfl
    rfl

/-- A newline behind a character of two bytes, and the end of a text behind an empty line, a
character of three bytes and a last newline. -/
theorem position_order_of_empty_line :
    Source.isBoundary 3 "a½\n\n€b\n".toList = true ∧
      Source.isBoundary 10 "a½\n\n€b\n".toList = true ∧
      ofOffset 3 "a½\n\n€b\n".toList = ⟨1, 3⟩ ∧ ofOffset 10 "a½\n\n€b\n".toList = ⟨4, 1⟩ ∧
      (⟨1, 3⟩ : Position).Before ⟨4, 1⟩ ∧
      (∀ offset, (⟨1, 3⟩ : Position).StandsFor "a½\n\n€b\n".toList offset ↔ offset = 3) := by
  have newline : Source.isBoundary 3 "a½\n\n€b\n".toList = true := by decide +kernel
  have textEnd : Source.isBoundary 10 "a½\n\n€b\n".toList = true := by decide +kernel
  obtain ⟨earlier, stands, _⟩ := position_order newline textEnd
  have first : ofOffset 3 "a½\n\n€b\n".toList = ⟨1, 3⟩ := by decide +kernel
  have last : ofOffset 10 "a½\n\n€b\n".toList = ⟨4, 1⟩ := by decide +kernel
  rw [first, last] at earlier
  rw [first] at stands
  exact ⟨newline, textEnd, first, last, earlier.mpr (by decide), stands⟩

end Position

end TypedImp
