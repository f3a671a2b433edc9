import TypedImp.Proofs.Messages
import TypedImp.Proofs.Source.Regions
import TypedImp.Proofs.Token.Joining
import TypedImp.Proofs.Token.Tiling

/-!
# What is scanned from a text

What holds of each result of a scanner in a text holds of all tokens and of the error that the text
is scanned into.  So their spans cover regions of the text, and no name and no message of the
scanner has a newline.
-/

namespace TypedImp

namespace Lexed

open Lexer Scanner

theorem all_cons (token : Token) (lexed : Lexed) :
    Lexed.all { lexed with tokens := token :: lexed.tokens } = token :: lexed.all := by
  unfold all
  cases lexed.ending <;> rfl

/-- What holds of each result of a scanner in a text holds of all that the text is scanned into. -/
theorem forall_ofScanner {text : List Char} (holds : Except (Spanned LexError) Token → Prop)
    (each : ∀ scanner : Scanner, scanner.StandsIn text → scanner.finished = false →
      holds scanner.next.1)
    (scanner : Scanner) (stands : scanner.StandsIn text) (goesOn : scanner.finished = false) :
    (∀ token ∈ (ofScanner scanner).all, holds (.ok token)) ∧
      ∀ error, (ofScanner scanner).ending = .error error → holds (.error error) := by
  have here := each scanner stands goesOn
  have standsBehind := stands.next goesOn
  obtain ⟨trivia, rest, skips⟩ := exists_skipsTrivia scanner.rest
  cases rest with
  | nil =>
    have step := next_of_nil goesOn skips
    rw [step] at here
    rw [ofScanner_of_end step rfl]
    exact ⟨List.forall_mem_singleton.mpr here, nofun⟩
  | cons c following =>
    obtain ⟨result, isPiece, _, step⟩ := exists_piece goesOn skips
    rw [step] at here standsBehind
    match result with
    | .error error =>
      -- An error ends the tokens, so it is the only result from here on.
      rw [ofScanner_of_error step]
      refine ⟨List.forall_mem_nil _, ?_⟩
      rintro _ ⟨⟩
      exact here
    | .ok token =>
      have shorter := length_rest_next_lt step isPiece
      obtain ⟨tokens, error⟩ := forall_ofScanner holds each _ standsBehind rfl
      rw [ofScanner_of_ok step isPiece, all_cons]
      exact ⟨List.forall_mem_cons.mpr ⟨here, tokens⟩, error⟩
termination_by scanner.rest.length

end Lexed

namespace Scanner

open Lexer

variable {text : List Char} {scanner : Scanner}

/-- Only two operators are known to be incomplete. -/
theorem eq_of_incompleteOperator {c operator : Char} {following : List Char}
    (failed : (scan c following).outcome = .error (.incompleteOperator operator)) :
    operator = '&' ∨ operator = '|' := by
  unfold scan scanWord scanNumber scanCharacter scanSymbol scanSingle at failed
  repeat' split at failed
  all_goals
    cases failed
    try assumption

/-- Where no token starts, it is said in one line. -/
theorem newline_notMem_message_of_scan {c : Char} {following : List Char} {error : LexError}
    (failed : (scan c following).outcome = .error error) : '\n' ∉ error.message.toList := by
  unfold LexError.message
  cases error with
  | incompleteOperator operator => rcases eq_of_incompleteOperator failed with rfl | rfl <;> simp
  | _ => simp

/-- Neither the text of a token nor the message of an error has a newline. -/
def IsOneLine : Except (Spanned LexError) Token → Prop
  | .ok token => '\n' ∉ token.text.toList
  | .error error => '\n' ∉ error.content.message.toList

theorem isOneLine_next (goesOn : scanner.finished = false) : IsOneLine scanner.next.1 := by
  obtain ⟨trivia, rest, skips⟩ := exists_skipsTrivia scanner.rest
  cases rest with
  | nil =>
    rw [next_of_nil goesOn skips]
    exact List.not_mem_nil
  | cons c following =>
    have munches := munches_scan c following
    cases outcome : (scan c following).outcome with
    | ok kind =>
      have longest : LongestToken (c :: following) kind (scan c following).text := by
        simpa only [Lexeme.Munches, outcome] using munches
      rw [next_of_ok goesOn skips outcome, IsOneLine, String.toList_ofList]
      intro member
      refine longest.isToken.newline_notMem ?_
      rw [← Source.before_append_after _ (scan c following).text]
      exact List.mem_append_left _ member
    | error error =>
      rw [next_of_error goesOn skips outcome]
      exact newline_notMem_message_of_scan outcome

end Scanner

end TypedImp
