import TypedImp.Token.Lexer

/-!
# Trivia before a token

Blanks and comments by rules of their own.  A comment runs to the next newline or to the
end, so whether a text is a comment depends on the text that follows it.

`splitTrivia_eq_iff` says that the scanner skips all trivia, and that there is only one way
to do so.
-/

namespace TypedImp

namespace Lexer

/-- The characters that are blank. -/
def blanks : List Char :=
  [' ', '\t', '\n', '\x0c', '\r']

/-- A text before which a comment ends. -/
def EndsLine (text : List Char) : Prop :=
  text = [] ∨ text.head? = some '\n'

/-- A text is trivia if `following` comes behind it. -/
inductive Trivia (following : List Char) : List Char → Prop
  | none : Trivia following []
  | blank {c : Char} {trivia : List Char} (isBlank : c ∈ blanks)
      (rest : Trivia following trivia) : Trivia following (c :: trivia)
  | comment {body trivia : List Char} (oneLine : ∀ c ∈ body, c ≠ '\n')
      (ends : EndsLine (trivia ++ following)) (rest : Trivia following trivia) :
      Trivia following ('/' :: '/' :: (body ++ trivia))

/-- A text is trivia followed by a rest that starts with none. -/
structure SkipsTrivia (text trivia rest : List Char) : Prop where
  splits : text = trivia ++ rest
  isTrivia : Trivia rest trivia
  isAll : ∀ more further, rest = more ++ further → Trivia further more → more = []

theorem isBlank_iff {c : Char} : isBlank c = true ↔ c ∈ blanks := by
  simp [isBlank, blanks, or_assoc]

theorem exists_comment_body (text : List Char) :
    ∃ body rest, text = body ++ rest ∧ (∀ c ∈ body, c ≠ '\n') ∧ EndsLine rest := by
  induction text with
  | nil => exact ⟨[], [], rfl, nofun, .inl rfl⟩
  | cons c text ih =>
    by_cases newline : c = '\n'
    · exact ⟨[], c :: text, rfl, nofun, .inr (congrArg some newline)⟩
    · obtain ⟨body, rest, rfl, oneLine, ends⟩ := ih
      exact ⟨c :: body, rest, rfl, List.forall_mem_cons.mpr ⟨newline, oneLine⟩, ends⟩

section Skipping

theorem splitTrivia_blank {c : Char} (isBlank : c ∈ blanks) (text : List Char) :
    splitTrivia false (c :: text) =
      (c :: (splitTrivia false text).1, (splitTrivia false text).2) := by
  have notSlash : c ≠ '/' := by
    rintro rfl
    revert isBlank
    decide
  rw [splitTrivia, if_pos (isBlank_iff.mpr isBlank)]
  exact fun _ slash _ => notSlash slash

/-- A newline that ends a comment is a blank. -/
theorem splitTrivia_of_endsLine {text : List Char} (ends : EndsLine text) :
    splitTrivia true text = splitTrivia false text := by
  cases text with
  | nil => rfl
  | cons c text =>
    obtain rfl : c = '\n' := by simpa [EndsLine] using ends
    rw [splitTrivia_blank (by decide)]
    rfl

theorem splitTrivia_comment {body text : List Char} (oneLine : ∀ c ∈ body, c ≠ '\n')
    (ends : EndsLine text) :
    splitTrivia true (body ++ text) =
      (body ++ (splitTrivia false text).1, (splitTrivia false text).2) := by
  induction body with
  | nil => exact splitTrivia_of_endsLine ends
  | cons c body ih =>
    obtain ⟨notNewline, restOneLine⟩ := List.forall_mem_cons.mp oneLine
    have stays : (c != '\n') = true := by simpa using notNewline
    rw [List.cons_append, splitTrivia, stays, ih restOneLine]
    rfl

/-- The scanner skips everything that is trivia. -/
theorem splitTrivia_append_of_trivia {trivia following : List Char}
    (isTrivia : Trivia following trivia) :
    splitTrivia false (trivia ++ following) =
      (trivia ++ (splitTrivia false following).1, (splitTrivia false following).2) := by
  induction isTrivia with
  | none => rfl
  | blank isBlank _ ih => rw [List.cons_append, splitTrivia_blank isBlank, ih]; rfl
  | comment oneLine ends _ ih =>
    rw [List.cons_append, List.cons_append, List.append_assoc, splitTrivia,
      splitTrivia_comment oneLine ends, ih]
    simp

/-- The scanner skips nothing where no trivia starts. -/
theorem splitTrivia_of_isAll {text : List Char}
    (isAll : ∀ more further, text = more ++ further → Trivia further more → more = []) :
    splitTrivia false text = ([], text) := by
  unfold splitTrivia
  split
  case h_1 => rfl
  case h_2 inSource => cases inSource
  case h_3 text _ =>
    obtain ⟨body, rest, rfl, oneLine, ends⟩ := exists_comment_body text
    have skipped := isAll ('/' :: '/' :: (body ++ [])) rest (by simp) (.comment oneLine ends .none)
    cases skipped
  case h_4 c text _ _ =>
    rw [if_neg]
    intro isBlank
    have skipped := isAll [c] text rfl (.blank (isBlank_iff.mp isBlank) .none)
    cases skipped

end Skipping

theorem Trivia.append {first second rest : List Char} (firstTrivia : Trivia (second ++ rest) first)
    (secondTrivia : Trivia rest second) : Trivia rest (first ++ second) := by
  induction firstTrivia with
  | none => exact secondTrivia
  | blank isBlank _ ih => exact .blank isBlank ih
  | comment oneLine ends _ ih =>
    rw [List.cons_append, List.cons_append, List.append_assoc]
    exact .comment oneLine (by rwa [List.append_assoc]) ih

/-- All trivia can be skipped from every text. -/
theorem exists_skipsTrivia (text : List Char) :
    ∃ trivia rest, SkipsTrivia text trivia rest := by
  by_cases isAll : ∀ more further, text = more ++ further → Trivia further more → more = []
  · exact ⟨[], text, rfl, .none, isAll⟩
  · simp only [Classical.not_forall] at isAll
    -- One piece of trivia is skipped, and the rest of it from the shorter text behind.
    obtain ⟨more, further, splits, isTrivia, nonempty⟩ := isAll
    have shorter : further.length < text.length := by
      have := List.length_pos_iff.mpr nonempty
      rw [splits, List.length_append]
      omega
    obtain ⟨trivia, rest, skips⟩ := exists_skipsTrivia further
    refine ⟨more ++ trivia, rest, ?_, ?_, skips.isAll⟩
    · rw [splits, skips.splits, List.append_assoc]
    · exact Trivia.append (skips.splits ▸ isTrivia) skips.isTrivia
termination_by text.length

theorem splitTrivia_eq_iff {text trivia rest : List Char} :
    splitTrivia false text = (trivia, rest) ↔ SkipsTrivia text trivia rest := by
  have found : ∀ {trivia rest}, SkipsTrivia text trivia rest →
      splitTrivia false text = (trivia, rest) := by
    intro trivia rest skips
    rw [skips.splits, splitTrivia_append_of_trivia skips.isTrivia,
      splitTrivia_of_isAll skips.isAll, List.append_nil]
  refine ⟨fun split => ?_, found⟩
  obtain ⟨trivia', rest', skips⟩ := exists_skipsTrivia text
  cases (found skips).symm.trans split
  exact skips

end Lexer

end TypedImp
