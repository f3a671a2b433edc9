import TypedImp.Proofs.Alignment.ProgramReading
import TypedImp.Proofs.Compilation
import TypedImp.Proofs.Grammar.Clashes
import TypedImp.Proofs.Token.Joining

/-!
# Programs one behind the other

Two sources that are read, with a newline between them, are read as one program with the
definitions of both if no name is defined twice.  Else the first name of the second source that the
first one defines is refused: `merges_at_newline`.
-/

namespace TypedImp

namespace Alignment

/-- Every span corresponds to the one that starts later by a distance. -/
def shifted (distance : Nat) : Alignment where
  spans first second := second = first.shift distance
  cover := by
    rintro first _ second _ rfl rfl
    exact Span.cover_shift distance first second

theorem sameTokens_shifted (distance : Nat) (tokens : List Token) :
    (shifted distance).SameTokens tokens (tokens.map (Token.shift distance)) := by
  induction tokens with
  | nil => exact .nil
  | cons token rest ih => exact .cons (.mk token.kind token.text rfl) ih

/-- A source that is read is read alike behind another one. -/
theorem exists_moved {lexed : Lexed} {program : Program Unit} (distance : Nat)
    (read : (Program.ofLexed lexed).outcome = .ok program) :
    ∃ moved, (shifted distance).SameProgram program moved ∧
      (Program.ofLexed (lexed.shift distance)).outcome = .ok moved := by
  obtain ⟨⟨stop, ending⟩, _⟩ := Grammar.ofLexed_eq_ok_iff.mp read
  have endingShifted : (lexed.shift distance).ending = .ok (stop + distance) := by
    simp only [Lexed.shift, ending]
  have stops : (shifted distance).spans (.emptyAt stop) (.emptyAt (stop + distance)) := rfl
  have alike := (alike_ofLexed stops ending endingShifted
    (sameTokens_shifted distance lexed.tokens)).outcome
  rw [read] at alike
  generalize shiftedRead : (Program.ofLexed (lexed.shift distance)).outcome = outcome at alike
  cases alike with
  | @ok _ moved same => exact ⟨moved, same, rfl⟩

end Alignment

/-- Tokens of a source that is scanned to its end stand in order. -/
theorem Grammar.ordered_ofScanner (scanner : Scanner) {stop : Nat}
    (ending : (Lexed.ofScanner scanner).ending = .ok stop) :
    Ordered (Lexed.ofScanner scanner).tokens := by
  have later := pairwise_lt_all_ofScanner scanner ending
  rw [Lexed.all, ending] at later
  exact List.pairwise_map.mpr ((List.pairwise_append.mp later).1.imp And.left)

/-- The names that are defined, in their order. -/
def Definitions.names {α : Type} [Named α] (definitions : Definitions α) : List String :=
  definitions.toList.map fun definition => (Named.ident definition).name

theorem Definitions.get?_eq_none_of_disjoint {α : Type} [Named α] {first second : Definitions α}
    (apart : first.names.Disjoint second.names) {definition : α}
    (member : definition ∈ second.toList) :
    first.get? (Named.ident definition).name = none :=
  get?_eq_none_iff.mpr fun _ defined same =>
    apart (List.mem_map_of_mem defined) (same ▸ List.mem_map_of_mem member)

namespace Program

/-- No variable and no function of the second program has the name of one of the first. -/
structure NamesApart (first second : Program Unit) : Prop where
  globals : first.globals.names.Disjoint second.globals.names
  functions : first.functions.names.Disjoint second.functions.names

/-- The definitions of one program, and behind them those of another one. -/
structure Merges (first second merged : Program Unit) : Prop where
  globals : merged.globals.toList = first.globals.toList ++ second.globals.toList
  functions : merged.functions.toList = first.functions.toList ++ second.functions.toList

variable {first second moved : Program Unit}

theorem NamesApart.exists_merged (apart : first.NamesApart second) :
    ∃ merged, first.Merges second merged := by
  obtain ⟨globals, globalsList⟩ := first.globals.exists_append second.globals.distinct
    fun _ member => Definitions.get?_eq_none_of_disjoint apart.globals member
  obtain ⟨functions, functionsList⟩ := first.functions.exists_append second.functions.distinct
    fun _ member => Definitions.get?_eq_none_of_disjoint apart.functions member
  exact ⟨⟨globals, functions⟩, globalsList, functionsList⟩

/-- Names that are not apart clash. -/
theorem exists_clash_of_not_namesApart (notApart : ¬ first.NamesApart second) :
    ∃ error, Grammar.Clash first second.tree error := by
  by_contra noClash
  refine notApart ⟨fun name inFirst inSecond => ?_, fun name inFirst inSecond => ?_⟩
  · obtain ⟨earlier, defined, rfl⟩ := List.mem_map.mp inFirst
    obtain ⟨later, isNew, same⟩ := List.mem_map.mp inSecond
    exact noClash ⟨_, .global isNew (Definitions.get?_eq_some_iff.mpr ⟨defined, same.symm⟩)⟩
  · obtain ⟨earlier, defined, rfl⟩ := List.mem_map.mp inFirst
    obtain ⟨later, isNew, same⟩ := List.mem_map.mp inSecond
    exact noClash ⟨_, .function (List.mem_map_of_mem isNew)
      (Definitions.get?_eq_some_iff.mpr ⟨defined, same.symm⟩)⟩

/-- Definitions at other places have the same names. -/
theorem namesApart_iff_of_same {alignment : Alignment}
    (same : alignment.SameProgram second moved) :
    first.NamesApart second ↔ first.NamesApart moved := by
  have globals : second.globals.names = moved.globals.names :=
    Alignment.map_eq_of_forall₂ same.globals fun _ _ declarations => declarations.name.name
  have functions : second.functions.names = moved.functions.names :=
    Alignment.map_eq_of_forall₂ same.functions fun _ _ listings => listings.name.name
  constructor
  · rintro ⟨globalsApart, functionsApart⟩
    exact ⟨globals ▸ globalsApart, functions ▸ functionsApart⟩
  · rintro ⟨globalsApart, functionsApart⟩
    exact ⟨globals ▸ globalsApart, functions ▸ functionsApart⟩

end Program

open Grammar

/-- Behind a source that is read and a newline, the definitions of the second source are read at
later places and added to those of the first. -/
theorem outcome_joined {first second : String} {program : Program Unit} {stop : Nat}
    (read : (Program.ofLexed (.ofSource first)).outcome = .ok program)
    (ending : ((Lexed.ofSource second).shift (Source.byteLength first.toList + 1)).ending =
      .ok stop) :
    (Program.ofLexed (.ofSource (first ++ "\n" ++ second))).outcome =
      (Parser.parseDefinitions stop program
        ((Lexed.ofSource second).shift (Source.byteLength first.toList + 1)).tokens).outcome := by
  obtain ⟨⟨firstStop, firstEnding⟩, sentence, fits, admissible⟩ := ofLexed_eq_ok_iff.mp read
  rw [(Lexed.scans_joined firstEnding second).2, Program.ofLexed]
  simp only [Lexed.join, ending]
  exact parseDefinitions_append_of_sentence sentence fits
    ⟨rfl, rfl, admissible.globals.typed, admissible.functions⟩ _

/-- Two sources that are read, with a newline between them.  If their names are apart, the
definitions of the first one are read and behind them those of the second one, which only move by
the bytes before them.  Else the first name of the second source that the first one defines is
refused at its place there, with the place of the earlier definition. -/
theorem merges_at_newline {first second : String} {program other : Program Unit}
    (read : (Program.ofLexed (.ofSource first)).outcome = .ok program)
    (readOther : (Program.ofLexed (.ofSource second)).outcome = .ok other) :
    ∃ moved, (Alignment.shifted (Source.byteLength first.toList + 1)).SameProgram other moved ∧
      (program.NamesApart other → ∃ merged, program.Merges moved merged ∧
        (Program.ofLexed (.ofSource (first ++ "\n" ++ second))).outcome = .ok merged) ∧
      (¬ program.NamesApart other → ∃ clash, FirstClash program moved.tree clash ∧
        (Program.ofLexed (.ofSource (first ++ "\n" ++ second))).outcome = .error clash) := by
  obtain ⟨moved, same, movedRead⟩ :=
    Alignment.exists_moved (Source.byteLength first.toList + 1) readOther
  obtain ⟨⟨stop, ending⟩, sentence, fits, admissible⟩ := ofLexed_eq_ok_iff.mp movedRead
  rw [Program.namesApart_iff_of_same same, outcome_joined read ending]
  refine ⟨moved, same, fun apart => ?_, fun notApart => ?_⟩
  · obtain ⟨merged, merges⟩ := apart.exists_merged
    have functions : merged.functions.toList.map Function.tree =
        program.functions.toList.map Function.tree ++ moved.tree.functions := by
      rw [merges.functions, List.map_append]
      rfl
    exact ⟨merged, merges, parseDefinitions_of_sentence sentence fits
      ⟨merges.globals, functions, admissible.globals.typed, admissible.functions⟩⟩
  · have ordered : Ordered
        ((Lexed.ofSource second).shift (Source.byteLength first.toList + 1)).tokens := by
      rw [Lexed.ofSource, ← Lexed.ofScanner_shift] at ending ⊢
      exact ordered_ofScanner _ ending
    exact exists_firstClash sentence fits ordered admissible
      (Program.exists_clash_of_not_namesApart notApart)

/-- A function of the second source has the name of one of the first, and behind it a variable. -/
theorem merges_at_newline_of_clash :
    ∃ program other moved clash,
      (Program.ofLexed (.ofSource "int n; int main() \x7b n = 1; \x7d")).outcome = .ok program ∧
      (Program.ofLexed (.ofSource "float x; int main() \x7b \x7d int n;")).outcome = .ok other ∧
      (Alignment.shifted (Source.byteLength "int n; int main() \x7b n = 1; \x7d".toList + 1)
        ).SameProgram other moved ∧
      FirstClash program moved.tree clash ∧
      (Program.ofLexed (.ofSource ("int n; int main() \x7b n = 1; \x7d" ++ "\n" ++
        "float x; int main() \x7b \x7d int n;"))).outcome = .error clash := by
  have tested : (Program.ofLexed (.ofSource "int n; int main() \x7b n = 1; \x7d")
      ).outcome.toOption.any (fun program =>
        (Program.ofLexed (.ofSource "float x; int main() \x7b \x7d int n;")
          ).outcome.toOption.any fun other =>
            program.functions.names = ["main"] ∧ other.functions.names = ["main"]) = true := by
    decide +kernel
  obtain ⟨program, read, tested⟩ := exists_of_any tested
  obtain ⟨other, readOther, tested⟩ := exists_of_any tested
  obtain ⟨names, otherNames⟩ := of_decide_eq_true tested
  have notApart : ¬ program.NamesApart other := by
    rintro ⟨_, functions⟩
    rw [names, otherNames] at functions
    exact functions List.mem_cons_self List.mem_cons_self
  obtain ⟨moved, same, _, clashes⟩ := merges_at_newline read readOther
  obtain ⟨clash, isFirst, refused⟩ := clashes notApart
  exact ⟨program, other, moved, clash, read, readOther, same, isFirst, refused⟩

end TypedImp
