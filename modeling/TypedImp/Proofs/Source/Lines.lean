import Mathlib.Data.List.DropRight
import TypedImp.Source.Position

/-!
# Lines of a text

The lines of a text are what stands between its newlines.  Over every place of a text goes one
of them: the last line before the place and the first one behind it make it up.
`exists_lines_append` says so, and that the lines before it are those of the text before the place.
`Position.behind_eq` says that a position counts the newlines and what follows the last one.
-/

namespace TypedImp

namespace Source

/-- The lines of a text, without the newlines between them. -/
def lines (text : List Char) : List (List Char) :=
  text.splitOn '\n'

/-- The text of some lines, with a newline behind each of them. -/
def ofLines (lines : List (List Char)) : List Char :=
  lines.flatMap fun line => line ++ ['\n']

/-- A text without newlines is one line. -/
theorem lines_of_notMem {text : List Char} (oneLine : '\n' ∉ text) : lines text = [text] :=
  List.splitOn_eq_singleton oneLine

theorem lines_append_newline (first second : List Char) :
    lines (first ++ '\n' :: second) = lines first ++ lines second :=
  List.splitOn_append_cons_self first second

theorem lines_cons {line : List Char} (oneLine : '\n' ∉ line) (rest : List Char) :
    lines (line ++ '\n' :: rest) = line :: lines rest :=
  List.splitOn_append_cons_self_of_not_mem oneLine rest

theorem newline_notMem_firstLine (text : List Char) : '\n' ∉ firstLine text := by
  intro member
  simpa using List.mem_takeWhile_imp member

theorem newline_notMem_lastLine (text : List Char) : '\n' ∉ lastLine text := by
  rw [lastLine, List.mem_reverse]
  exact newline_notMem_firstLine text.reverse

/-- A text is its first line, or goes on with a newline behind it. -/
theorem eq_firstLine_or (text : List Char) :
    text = firstLine text ∨ ∃ rest, text = firstLine text ++ '\n' :: rest := by
  have whole := List.takeWhile_append_dropWhile (p := (· != '\n')) (l := text)
  cases behind : text.dropWhile (· != '\n') with
  | nil =>
    rw [behind, List.append_nil] at whole
    exact .inl whole.symm
  | cons c rest =>
    have isNewline := List.head?_dropWhile_not (· != '\n') text
    rw [behind] at isNewline
    obtain rfl : c = '\n' := by simpa using isNewline
    rw [behind] at whole
    exact .inr ⟨rest, whole.symm⟩

/-- A text is its last line, or begins with others and a newline before it. -/
theorem eq_lastLine_or (text : List Char) :
    text = lastLine text ∨ ∃ earlier, text = earlier ++ '\n' :: lastLine text := by
  rcases eq_firstLine_or text.reverse with whole | ⟨rest, whole⟩
  · exact .inl (List.reverse_eq_iff.mp whole)
  · refine .inr ⟨rest.reverse, ?_⟩
    simpa [firstLine, lastLine] using congrArg List.reverse whole

/-- A newline ends an empty line, and any other character begins the line behind it. -/
theorem lines_cons_char (c : Char) (text : List Char) :
    lines (c :: text) =
      if c = '\n' then [] :: lines text else (lines text).modifyHead (List.cons c) := by
  rw [lines, List.splitOn_cons_eq_if_modifyHead]
  simp only [beq_iff_eq]
  rfl

/-- A text has one line more than newlines. -/
theorem length_lines (text : List Char) : (lines text).length = text.count '\n' + 1 := by
  induction text with
  | nil => rfl
  | cons c text ih =>
    rw [lines_cons_char]
    split
    case isTrue isNewline =>
      subst isNewline
      rw [List.length_cons, List.count_cons_self, ih]
    case isFalse noNewline =>
      rw [List.length_modifyHead, List.count_cons_of_ne noNewline, ih]

/-- The lines of a text make it up, with one newline more. -/
theorem ofLines_lines (text : List Char) : ofLines (lines text) = text ++ ['\n'] := by
  induction text with
  | nil => rfl
  | cons c text ih =>
    rw [lines_cons_char, List.cons_append, ← ih]
    split
    case isTrue isNewline =>
      subst isNewline
      rfl
    case isFalse =>
      obtain ⟨first, rest, split⟩ := List.exists_cons_of_ne_nil (List.splitOn_ne_nil '\n' text)
      rw [lines, split]
      rfl

/-- The characters before the first newline belong to the line that has begun. -/
theorem exists_lines_cons {line : List Char} (oneLine : '\n' ∉ line) (text : List Char) :
    ∃ later, lines (line ++ text) = (line ++ firstLine text) :: later := by
  have joined : '\n' ∉ line ++ firstLine text := by
    simp [oneLine, newline_notMem_firstLine]
  rcases eq_firstLine_or text with whole | ⟨rest, whole⟩
  · rw [← whole] at joined ⊢
    exact ⟨[], lines_of_notMem joined⟩
  · have parts : line ++ text = line ++ firstLine text ++ '\n' :: rest := by
      rw [List.append_assoc, ← whole]
    exact ⟨lines rest, by rw [parts, lines_cons joined]⟩

/-- Over a place of a text goes the line that the last line before it and the first line behind
it make up. -/
theorem exists_lines_append (front back : List Char) :
    ∃ earlier later,
      lines (front ++ back) = earlier ++ (lastLine front ++ firstLine back) :: later ∧
      earlier.length = front.count '\n' ∧ ofLines earlier ++ lastLine front = front := by
  have oneLine := newline_notMem_lastLine front
  obtain ⟨later, behind⟩ := exists_lines_cons oneLine back
  rcases eq_lastLine_or front with whole | ⟨earlier, whole⟩
  · rw [← whole] at oneLine behind ⊢
    exact ⟨[], later, behind, (List.count_eq_zero_of_not_mem oneLine).symm, rfl⟩
  · generalize lastLine front = line at oneLine behind whole ⊢
    subst whole
    refine ⟨lines earlier, later, ?_, ?_, ?_⟩
    · rw [List.append_assoc, List.cons_append, lines_append_newline, behind]
    · rw [length_lines, List.count_append, List.count_cons_self,
        List.count_eq_zero_of_not_mem oneLine]
    · rw [ofLines_lines, List.append_assoc]
      rfl

theorem lastLine_concat (text : List Char) (c : Char) :
    lastLine (text ++ [c]) = if c = '\n' then [] else lastLine text ++ [c] := by
  by_cases isNewline : c = '\n' <;> simp [lastLine, isNewline]

end Source

/-- The position behind a text. -/
theorem Position.behind_eq (text : List Char) :
    Position.behind text = ⟨text.count '\n' + 1, (Source.lastLine text).length + 1⟩ := by
  induction text using List.reverseRecOn with
  | nil => rfl
  | append_singleton text c ih =>
    rw [Position.behind, List.foldl_append, ← Position.behind, ih, Source.lastLine_concat]
    by_cases isNewline : c = '\n' <;> simp [Position.advance, isNewline]

end TypedImp
