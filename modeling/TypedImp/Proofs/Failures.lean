import TypedImp.Proofs.Alignment.Compiling
import TypedImp.Proofs.Token.Results

/-!
# Failures of a source

Whatever stage fails, its failure lies in a region of the source and is said in one line.  For the
place, a source is compared with itself, where each span that covers a region corresponds to itself.
-/

namespace TypedImp

variable {config : Config} {source : String} {failure : Failure}

namespace Lexed

theorem tokens_subset_all (lexed : Lexed) : lexed.tokens ⊆ lexed.all := by
  unfold all
  split
  · exact List.subset_append_left _ _
  · exact List.Subset.refl _

/-- No token of a source has a newline, and the error that ends them is said in one line. -/
theorem isOneLine_ofSource (source : String) :
    (∀ token ∈ (ofSource source).all, '\n' ∉ token.text.toList) ∧
      ∀ error, (ofSource source).ending = .error error → '\n' ∉ error.content.message.toList :=
  forall_ofScanner Scanner.IsOneLine (fun _ _ goesOn => Scanner.isOneLine_next goesOn)
    (.ofSource source) ⟨[], rfl, rfl⟩ rfl

end Lexed

section Places

/-- Each span that covers a region of a text corresponds to itself. -/
def Alignment.covering (text : List Char) : Alignment where
  spans first second := first = second ∧ first.Covers text
  cover := by
    rintro first _ second _ ⟨rfl, covers⟩ ⟨rfl, others⟩
    exact ⟨rfl, covers.cover others⟩

theorem Alignment.SameFailure.covers {text : List Char}
    (same : (Alignment.covering text).SameFailure failure failure) : failure.span.Covers text := by
  cases same with
  | parsing same => exact same.span.2
  | specialization same => exact same.span.2
  | running same => exact same.span.2
  | typing same =>
    cases same with
    | broken same => exact same.span.2
    | missingMain => exact .emptyAt (isBoundary_byteLength [] text)

end Places

section Messages

/-- What a source is read into, or why it is refused, has no newline in it. -/
theorem keepsNames_ofSource (source : String) :
    KeepsNames (fun name => '\n' ∉ name.toList)
      (Program.NamesIn fun name => '\n' ∉ name.toList)
      (Program.ofLexed (.ofSource source)).outcome := by
  obtain ⟨tokens, error⟩ := Lexed.isOneLine_ofSource source
  cases ending : (Lexed.ofSource source).ending with
  | error lexical =>
    rw [Program.ofLexed, ending]
    rintro _ ⟨⟩
    exact error lexical ending
  | ok stop =>
    exact Parser.keepsNames_ofLexed
      (fun token member _ => tokens token (Lexed.tokens_subset_all _ member)) ending

end Messages

end TypedImp
