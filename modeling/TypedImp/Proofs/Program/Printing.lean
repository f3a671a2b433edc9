import TypedImp.Proofs.Failures
import TypedImp.Proofs.Grammar.ReadingBack
import TypedImp.Proofs.Specialization.Naming
import TypedImp.Proofs.Text.Outlines
import TypedImp.Proofs.Text.Values

/-!
# The program that an outline shows

The label of an item says which construct it stands for and what the construct says besides its
parts, and the items below it are the outlines of the parts.  So the text of a program gives back
the program up to its spans, if no name in it has a newline: `text_eq_iff`.
-/

namespace TypedImp

open Text (Outline append_inj_of_stop)
open Text.Outline (Labelled AllLabelled allLabelled_iff)

section Labels

/-- Tags that are written with letters, each in its own way. -/
class LetterTags (τ : Type) [TagText τ] : Prop where
  letters (tag : τ) : ∀ c ∈ (TagText.tagText tag).toList, c.isAlpha = true
  injective {tag other : τ} : TagText.tagText tag = TagText.tagText other → tag = other

instance : LetterTags Unit where
  letters := by simp [TagText.tagText]
  injective _ := rfl

instance : LetterTags Ty where
  letters tag := by cases tag <;> simp [TagText.tagText, Ty.name]
  injective := Ty.name_injective

theorem symbol_head_of_binary (op : BinaryOperator) :
    ∀ c ∈ op.symbol.toList.head?, ¬ c.isAlpha = true := by
  cases op <;> simp [BinaryOperator.symbol]

theorem symbol_head_of_unary (op : UnaryOperator) :
    ∀ c ∈ op.symbol.toList.head?, ¬ c.isAlpha = true := by
  cases op <;> simp [UnaryOperator.symbol]

theorem BinaryOperator.symbol_injective {first second : BinaryOperator}
    (same : first.symbol = second.symbol) : first = second := by
  cases first <;> cases second <;> simp_all [symbol]

theorem UnaryOperator.symbol_injective {first second : UnaryOperator}
    (same : first.symbol = second.symbol) : first = second := by
  cases first <;> cases second <;> simp_all [symbol]

variable {τ : Type} [TagText τ] [LetterTags τ]

/-- A tag and a symbol that begins with no letter are known from their text. -/
theorem tag_append_injective {tag other : τ} {symbol symbol' : String}
    (head : ∀ c ∈ symbol.toList.head?, ¬ c.isAlpha = true)
    (head' : ∀ c ∈ symbol'.toList.head?, ¬ c.isAlpha = true)
    (same : (TagText.tagText tag).toList ++ symbol.toList =
      (TagText.tagText other).toList ++ symbol'.toList) :
    tag = other ∧ symbol = symbol' := by
  obtain ⟨tags, symbols⟩ := append_inj_of_stop (LetterTags.letters tag) (LetterTags.letters other)
    head head' same
  exact ⟨LetterTags.injective (String.toList_inj.mp tags), String.toList_inj.mp symbols⟩

/-- A type and what stands behind it are known from their text. -/
theorem typed_label_injective {first second : Ty} {behind other : String}
    (same : s!"{first.name} {behind}" = s!"{second.name} {other}") :
    first = second ∧ behind = other := by
  cases first <;> cases second <;> simp_all [Ty.name, ← String.toList_inj]

end Labels

section Outlines

variable {τ : Type} [TagText τ]

/-- A name that stands in one line. -/
def OneLine (name : String) : Prop :=
  '\n' ∉ name.toList

theorem newline_notMem_tagText [LetterTags τ] (tag : τ) :
    '\n' ∉ (TagText.tagText tag).toList := by
  intro member
  cases LetterTags.letters tag _ member

theorem UnaryOperator.newline_notMem_symbol (op : UnaryOperator) : '\n' ∉ op.symbol.toList := by
  cases op <;> decide

mutual

theorem Expr.labelled_outline [LetterTags τ] (expr : Expr τ) (names : expr.NamesIn OneLine) :
    Labelled expr.outline := by
  match expr with
  | .literal value span =>
    refine ⟨⟨?_, ?_⟩, trivial⟩
    · cases value.ty <;> simp [Ty.name]
    · simp [value.newline_notMem_text]
  | .var name span =>
    refine ⟨⟨by simp, ?_⟩, trivial⟩
    have oneLine : '\n' ∉ name.name.toList := names
    simp [oneLine]
  | .binary op tag lhs rhs span =>
    refine ⟨⟨by simp, ?_⟩, lhs.labelled_outline names.1, rhs.labelled_outline names.2, trivial⟩
    simp [newline_notMem_tagText]
  | .unary op tag operand span =>
    refine ⟨⟨by simp, ?_⟩, operand.labelled_outline names, trivial⟩
    simp [newline_notMem_tagText, op.newline_notMem_symbol]
  | .call callee arguments callSpan span =>
    refine ⟨⟨by simp, ?_⟩, Expr.allLabelled_outlines arguments names.2⟩
    have oneLine : '\n' ∉ callee.name.toList := names.1
    simp [oneLine]

theorem Expr.allLabelled_outlines [LetterTags τ] (exprs : List (Expr τ))
    (names : Expr.AllNamesIn OneLine exprs) : AllLabelled (Expr.outlines exprs) := by
  match exprs with
  | [] => trivial
  | first :: rest =>
    exact ⟨first.labelled_outline names.1, Expr.allLabelled_outlines rest names.2⟩

end

mutual

theorem Stmt.labelled_outline [LetterTags τ] (stmt : Stmt τ) (names : stmt.NamesIn OneLine) :
    Labelled stmt.outline := by
  match stmt with
  | .skip => exact ⟨⟨by simp, by simp⟩, trivial⟩
  | .block body => exact ⟨⟨by simp, by simp⟩, Stmt.allLabelled_outlines body names⟩
  | .assign target value =>
    refine ⟨⟨by simp, ?_⟩, value.labelled_outline names.2, trivial⟩
    have oneLine : '\n' ∉ target.name.toList := names.1
    simp [oneLine]
  | .conditional test thenBranch elseBranch =>
    exact ⟨⟨by simp, by simp⟩, test.labelled_outline names.1,
      thenBranch.labelled_outline names.2.1, elseBranch.labelled_outline names.2.2, trivial⟩
  | .loop test body =>
    exact ⟨⟨by simp, by simp⟩, test.labelled_outline names.1, body.labelled_outline names.2,
      trivial⟩
  | .call callee arguments span =>
    refine ⟨⟨by simp, ?_⟩, Expr.allLabelled_outlines arguments names.2⟩
    have oneLine : '\n' ∉ callee.name.toList := names.1
    simp [oneLine]
  | .giveBack value span => exact ⟨⟨by simp, by simp⟩, value.labelled_outline names, trivial⟩

theorem Stmt.allLabelled_outlines [LetterTags τ] (body : List (Stmt τ))
    (names : Stmt.AllNamesIn OneLine body) : AllLabelled (Stmt.outlines body) := by
  match body with
  | [] => trivial
  | first :: rest =>
    exact ⟨first.labelled_outline names.1, Stmt.allLabelled_outlines rest names.2⟩

end

/-- The first word of a label, up to a space. -/
def Text.Outline.word : Outline → List Char
  | .item label _ => label.toList.takeWhile (· ≠ ' ')

/-- The kinds of expressions, as the first words of their outlines name them. -/
inductive Expr.Kind where
  | literal (ty : Ty)
  | var
  | binary
  | unary
  | call

/-- The first word of the outline of an expression. -/
def Expr.Kind.word : Expr.Kind → String
  | literal ty => ty.name
  | var => "var"
  | binary => "binary"
  | unary => "unary"
  | call => "call"

theorem Expr.Kind.word_injective {first second : Expr.Kind} (same : first.word = second.word) :
    first = second := by
  cases first with
  | literal ty => cases second with
    | literal ty' => exact congrArg literal (Ty.name_injective same)
    | _ => cases ty <;> simp [word, Ty.name] at same
  | _ => cases second with
    | literal ty => cases ty <;> simp [word, Ty.name] at same
    | _ => simp_all [word]

/-- The kind of an expression. -/
def Expr.kind : Expr τ → Expr.Kind
  | .literal value _ => .literal value.ty
  | .var _ _ => .var
  | .binary _ _ _ _ _ => .binary
  | .unary _ _ _ _ => .unary
  | .call _ _ _ _ => .call

theorem Expr.word_outline (expr : Expr τ) : expr.outline.word = expr.kind.word.toList := by
  cases expr with
  | literal value span =>
    cases isType : value.ty <;>
      simp [outline, Outline.leaf, Outline.word, kind, Kind.word, isType, Ty.name]
  | var | binary | unary | call => simp [outline, Outline.leaf, Outline.word, kind, Kind.word]

theorem Expr.kind_eq_of_outline {first second : Expr τ} (same : first.outline = second.outline) :
    first.kind = second.kind := by
  have words := congrArg Outline.word same
  rw [Expr.word_outline, Expr.word_outline] at words
  exact Expr.Kind.word_injective (String.toList_inj.mp words)

theorem sameIdent_everywhere {first second : Ident} (same : first.name = second.name) :
    Alignment.everywhere.SameIdent first second := by
  obtain ⟨name, span⟩ := first
  obtain ⟨name', span'⟩ := second
  obtain rfl : name = name' := same
  exact .mk name trivial

mutual

/-- An expression is known from its outline, up to its spans. -/
theorem Expr.same_of_outline [LetterTags τ] {first second : Expr τ}
    (same : first.outline = second.outline) : Alignment.everywhere.SameExpr first second := by
  have kinds := Expr.kind_eq_of_outline same
  match first with
  | .literal value span =>
    cases second with
    | literal value' span' =>
      obtain ⟨types, texts⟩ := typed_label_injective (Outline.item.inj same).1
      obtain rfl := Value.text_injective types texts
      exact .literal value trivial
    | var | binary | unary | call => cases kinds
  | .var name span =>
    cases second with
    | var name' span' =>
      refine .var (sameIdent_everywhere ?_) trivial
      simpa [outline, Outline.leaf, ← String.toList_inj] using same
    | literal | binary | unary | call => cases kinds
  | .binary op tag lhs rhs span =>
    cases second with
    | binary op' tag' lhs' rhs' span' =>
      obtain ⟨label, below⟩ := Outline.item.inj same
      obtain ⟨rfl, symbols⟩ := tag_append_injective (symbol_head_of_binary op)
        (symbol_head_of_binary op') (by simpa [← String.toList_inj] using label)
      obtain rfl := BinaryOperator.symbol_injective symbols
      obtain ⟨left, rest⟩ := List.cons.inj below
      obtain ⟨right, _⟩ := List.cons.inj rest
      exact .binary op tag (Expr.same_of_outline left) (Expr.same_of_outline right) trivial
    | literal | var | unary | call => cases kinds
  | .unary op tag operand span =>
    cases second with
    | unary op' tag' operand' span' =>
      obtain ⟨label, below⟩ := Outline.item.inj same
      obtain ⟨rfl, symbols⟩ := tag_append_injective (symbol_head_of_unary op)
        (symbol_head_of_unary op') (by simpa [← String.toList_inj] using label)
      obtain rfl := UnaryOperator.symbol_injective symbols
      obtain ⟨inner, _⟩ := List.cons.inj below
      exact .unary op tag (Expr.same_of_outline inner) trivial
    | literal | var | binary | call => cases kinds
  | .call callee arguments callSpan span =>
    cases second with
    | call callee' arguments' callSpan' span' =>
      obtain ⟨label, below⟩ := Outline.item.inj same
      refine .call (sameIdent_everywhere ?_) (Expr.sames_of_outlines below) trivial trivial
      simpa [← String.toList_inj] using label
    | literal | var | binary | unary => cases kinds

theorem Expr.sames_of_outlines [LetterTags τ] {firsts seconds : List (Expr τ)}
    (same : Expr.outlines firsts = Expr.outlines seconds) :
    Alignment.everywhere.SameExprs firsts seconds := by
  match firsts, seconds with
  | [], [] => exact .nil
  | [], _ :: _ | _ :: _, [] => cases same
  | first :: rest, second :: others =>
    obtain ⟨head, following⟩ := List.cons.inj same
    exact .cons (Expr.same_of_outline head) (Expr.sames_of_outlines following)

end

/-- The kinds of statements, as the first words of their outlines name them. -/
inductive Stmt.Kind where
  | skip
  | block
  | assign
  | conditional
  | loop
  | call
  | giveBack

/-- The first word of the outline of a statement. -/
def Stmt.Kind.word : Stmt.Kind → String
  | skip => "skip"
  | block => "block"
  | assign => "assign"
  | conditional => "if"
  | loop => "while"
  | call => "call"
  | giveBack => "return"

theorem Stmt.Kind.word_injective {first second : Stmt.Kind} (same : first.word = second.word) :
    first = second := by
  cases first <;> cases second <;> simp_all [word]

/-- The kind of a statement. -/
def Stmt.kind : Stmt τ → Stmt.Kind
  | .skip => .skip
  | .block _ => .block
  | .assign _ _ => .assign
  | .conditional _ _ _ => .conditional
  | .loop _ _ => .loop
  | .call _ _ _ => .call
  | .giveBack _ _ => .giveBack

theorem Stmt.word_outline (stmt : Stmt τ) : stmt.outline.word = stmt.kind.word.toList := by
  cases stmt <;> simp [outline, Outline.leaf, Outline.word, kind, Kind.word]

theorem Stmt.kind_eq_of_outline {first second : Stmt τ} (same : first.outline = second.outline) :
    first.kind = second.kind := by
  have words := congrArg Outline.word same
  rw [Stmt.word_outline, Stmt.word_outline] at words
  exact Stmt.Kind.word_injective (String.toList_inj.mp words)

mutual

/-- A statement is known from its outline, up to its spans. -/
theorem Stmt.same_of_outline [LetterTags τ] {first second : Stmt τ}
    (same : first.outline = second.outline) : Alignment.everywhere.SameStmt first second := by
  have kinds := Stmt.kind_eq_of_outline same
  match first with
  | .skip =>
    cases second with
    | skip => exact .skip
    | block | assign | conditional | loop | call | giveBack => cases kinds
  | .block body =>
    cases second with
    | block body' => exact .block (Stmt.sames_of_outlines (Outline.item.inj same).2)
    | skip | assign | conditional | loop | call | giveBack => cases kinds
  | .assign target value =>
    cases second with
    | assign target' value' =>
      obtain ⟨label, below⟩ := Outline.item.inj same
      obtain ⟨values, _⟩ := List.cons.inj below
      refine .assign (sameIdent_everywhere ?_) (Expr.same_of_outline values)
      simpa [← String.toList_inj] using label
    | skip | block | conditional | loop | call | giveBack => cases kinds
  | .conditional test thenBranch elseBranch =>
    cases second with
    | conditional test' thenBranch' elseBranch' =>
      obtain ⟨tests, branches⟩ := List.cons.inj (Outline.item.inj same).2
      obtain ⟨chosen, rest⟩ := List.cons.inj branches
      obtain ⟨rejected, _⟩ := List.cons.inj rest
      exact .conditional (Expr.same_of_outline tests) (Stmt.same_of_outline chosen)
        (Stmt.same_of_outline rejected)
    | skip | block | assign | loop | call | giveBack => cases kinds
  | .loop test body =>
    cases second with
    | loop test' body' =>
      obtain ⟨tests, rest⟩ := List.cons.inj (Outline.item.inj same).2
      obtain ⟨bodies, _⟩ := List.cons.inj rest
      exact .loop (Expr.same_of_outline tests) (Stmt.same_of_outline bodies)
    | skip | block | assign | conditional | call | giveBack => cases kinds
  | .call callee arguments span =>
    cases second with
    | call callee' arguments' span' =>
      obtain ⟨label, below⟩ := Outline.item.inj same
      refine .call (sameIdent_everywhere ?_) (Expr.sames_of_outlines below) trivial
      simpa [← String.toList_inj] using label
    | skip | block | assign | conditional | loop | giveBack => cases kinds
  | .giveBack value span =>
    cases second with
    | giveBack value' span' =>
      obtain ⟨values, _⟩ := List.cons.inj (Outline.item.inj same).2
      exact .giveBack (Expr.same_of_outline values) trivial
    | skip | block | assign | conditional | loop | call => cases kinds

theorem Stmt.sames_of_outlines [LetterTags τ] {firsts seconds : List (Stmt τ)}
    (same : Stmt.outlines firsts = Stmt.outlines seconds) :
    Alignment.everywhere.SameStmts firsts seconds := by
  match firsts, seconds with
  | [], [] => exact .nil
  | [], _ :: _ | _ :: _, [] => cases same
  | first :: rest, second :: others =>
    obtain ⟨head, following⟩ := List.cons.inj same
    exact .cons (Stmt.same_of_outline head) (Stmt.sames_of_outlines following)

end

end Outlines

section Definitions

/-- The words that say what is declared. -/
def declarationWords : List String :=
  ["global", "param", "local"]

variable {τ : Type} [TagText τ] [LetterTags τ] {word : String}

theorem Declaration.word_outline (isWord : word ∈ declarationWords) (declaration : Declaration) :
    (declaration.outline word).word = word.toList := by
  simp only [declarationWords, List.mem_cons, List.not_mem_nil, or_false] at isWord
  rcases isWord with rfl | rfl | rfl <;> simp [outline, Outline.leaf, Outline.word]

theorem Declaration.labelled_outline (isWord : word ∈ declarationWords) {declaration : Declaration}
    (name : OneLine declaration.name.name) : Labelled (declaration.outline word) := by
  have oneLine : '\n' ∉ declaration.name.name.toList := name
  simp only [declarationWords, List.mem_cons, List.not_mem_nil, or_false] at isWord
  rcases isWord with rfl | rfl | rfl <;> exact ⟨⟨by simp, by simp [oneLine]⟩, trivial⟩

theorem Declaration.same_of_outline {first second : Declaration}
    (same : first.outline word = second.outline word) :
    Alignment.everywhere.SameDeclaration first second := by
  have label : s!"{first.ty.name} {first.name.name}" = s!"{second.ty.name} {second.name.name}" := by
    simpa [← String.toList_inj] using (Outline.item.inj same).1
  obtain ⟨types, names⟩ := typed_label_injective label
  exact ⟨sameIdent_everywhere names, types⟩

/-- Items with equal lists of images are related, if those with equal images are. -/
theorem forall₂_of_map_eq {α β : Type} {related : α → α → Prop} {items others : List α}
    {f : α → β} (same : items.map f = others.map f)
    (images : ∀ first second, f first = f second → related first second) :
    List.Forall₂ related items others := by
  rw [← List.forall₂_eq_eq_eq, List.forall₂_map_left_iff, List.forall₂_map_right_iff] at same
  exact same.imp images

/-- Declarations behind one word are known from their outlines and from what follows them, if no
more of them follow. -/
theorem sameDeclarations_of_outlines (isWord : word ∈ declarationWords)
    {first second : Definitions Declaration} {rest others : List Outline}
    (stops : ∀ item ∈ rest.head?, item.word ≠ word.toList)
    (stops' : ∀ item ∈ others.head?, item.word ≠ word.toList)
    (same : first.toList.map (Declaration.outline word) ++ rest =
      second.toList.map (Declaration.outline word) ++ others) :
    Alignment.everywhere.SameDeclarations first second ∧ rest = others := by
  have isDeclaration (declarations : Definitions Declaration) :
      ∀ item ∈ declarations.toList.map (Declaration.outline word), item.word = word.toList := by
    rw [List.forall_mem_map]
    exact fun declaration _ => declaration.word_outline isWord
  obtain ⟨declarations, following⟩ := append_inj_of_stop (isDeclaration first)
    (isDeclaration second) stops stops' same
  exact ⟨forall₂_of_map_eq declarations fun _ _ => Declaration.same_of_outline, following⟩

/-- A function is known from its outline, up to its spans. -/
theorem Function.same_of_outline {first second : Function τ}
    (same : first.outline = second.outline) :
    Alignment.everywhere.SameListing first second := by
  obtain ⟨labels, below⟩ := Outline.item.inj same
  have label : s!"{first.returnTy.name} {first.name.name}" =
      s!"{second.returnTy.name} {second.name.name}" := by
    simpa [← String.toList_inj] using labels
  obtain ⟨returns, names⟩ := typed_label_injective label
  simp only [List.append_assoc] at below
  -- The first item that is no parameter is a local variable or the body.
  have noParam (function : Function τ) :
      ∀ item ∈ (function.locals.toList.map (Declaration.outline "local") ++
        [Outline.item "block" (Stmt.outlines function.body)]).head?,
        item.word ≠ "param".toList := by
    intro item isFirst
    rcases List.mem_append.mp (List.mem_of_mem_head? isFirst) with isLocal | isBody
    · obtain ⟨declaration, _, rfl⟩ := List.mem_map.mp isLocal
      rw [declaration.word_outline (by simp [declarationWords])]
      decide
    · obtain rfl := List.mem_singleton.mp isBody
      simp [Outline.word]
  have noLocal (function : Function τ) :
      ∀ item ∈ [Outline.item "block" (Stmt.outlines function.body)].head?,
        item.word ≠ "local".toList := by
    rintro item ⟨⟩
    simp [Outline.word]
  obtain ⟨params, behind⟩ := sameDeclarations_of_outlines (by simp [declarationWords])
    (noParam first) (noParam second) below
  obtain ⟨locals, bodies⟩ := sameDeclarations_of_outlines (by simp [declarationWords])
    (noLocal first) (noLocal second) behind
  have body := Stmt.sames_of_outlines (Outline.item.inj (List.cons.inj bodies).1).2
  exact ⟨⟨returns, sameIdent_everywhere names, params,
    Alignment.sameVariables_of_sameDeclarations locals, body⟩, locals⟩

theorem Function.labelled_outline (function : Function τ) (names : function.NamesIn OneLine) :
    Labelled function.outline := by
  have oneLine : '\n' ∉ function.name.name.toList := names.name
  refine ⟨⟨by simp, by simp [oneLine]⟩, allLabelled_iff.mpr ?_⟩
  simp only [List.forall_mem_append, List.forall_mem_map, List.forall_mem_singleton]
  refine ⟨⟨fun declaration member => ?_, fun declaration member => ?_⟩, ?_⟩
  · exact declaration.labelled_outline (by simp [declarationWords]) (names.params _ member)
  · exact declaration.labelled_outline (by simp [declarationWords]) (names.locals _ member)
  · exact ⟨⟨by simp, by simp⟩, Stmt.allLabelled_outlines _ names.body⟩

theorem Program.allLabelled_outline (program : Program τ) (names : program.NamesIn OneLine) :
    AllLabelled program.outline := by
  rw [allLabelled_iff, outline]
  simp only [List.forall_mem_append, List.forall_mem_map]
  refine ⟨fun declaration member => ?_, fun function member => ?_⟩
  · exact declaration.labelled_outline (by simp [declarationWords]) (names.globals _ member)
  · exact function.labelled_outline (names.functions _ member)

/-- A program is known from its outline, up to its spans. -/
theorem Program.same_of_outline {first second : Program τ}
    (same : first.outline = second.outline) :
    Alignment.everywhere.SameProgram first second := by
  have noGlobal (program : Program τ) :
      ∀ item ∈ (program.functions.toList.map Function.outline).head?,
        item.word ≠ "global".toList := by
    intro item isFirst
    obtain ⟨function, _, rfl⟩ := List.mem_map.mp (List.mem_of_mem_head? isFirst)
    simp [Function.outline, Outline.word]
  obtain ⟨globals, behind⟩ := sameDeclarations_of_outlines (by simp [declarationWords])
    (noGlobal first) (noGlobal second) same
  exact ⟨globals, forall₂_of_map_eq behind fun _ _ => Function.same_of_outline⟩

/-- Programs whose names have no newline are written alike if and only if they are one program, up
to the spans. -/
theorem Program.text_eq_iff_same {first second : Program τ} (names : first.NamesIn OneLine)
    (names' : second.NamesIn OneLine) :
    first.text = second.text ↔ Alignment.everywhere.SameProgram first second := by
  refine ⟨fun same => ?_, fun same => same.text⟩
  exact Program.same_of_outline (Outline.write_injective (first.allLabelled_outline names)
    (second.allLabelled_outline names') same)

end Definitions

section Stages

/-- The names of a compiled program have no newline, also in its specialized form. -/
theorem oneLine_of_compile {config : Config} {source : String} {compiled : Compiled}
    (done : (compile config source).outcome = .ok compiled) :
    compiled.program.NamesIn OneLine ∧ compiled.specialized.NamesIn OneLine := by
  obtain ⟨_, read, _⟩ := compile_eq_ok_iff.mp done
  obtain ⟨_, _, elaborates⟩ := elaborates_of_compile done
  have names := keepsNames_ofSource source
  rw [read] at names
  exact ⟨names, elaborates.namesIn names⟩

/-- Two sources that are compiled are printed alike, as they are read or as they are specialized,
if and only if they give one program, up to the spans. -/
theorem texts_eq_iff_of_compile {config config' : Config} {source source' : String}
    {compiled compiled' : Compiled} (done : (compile config source).outcome = .ok compiled)
    (done' : (compile config' source').outcome = .ok compiled') :
    (compiled.program.text = compiled'.program.text ↔
        Alignment.everywhere.SameProgram compiled.program compiled'.program) ∧
      (compiled.specialized.text = compiled'.specialized.text ↔
        Alignment.everywhere.SameProgram compiled.specialized compiled'.specialized) := by
  obtain ⟨names, specializedNames⟩ := oneLine_of_compile done
  obtain ⟨names', specializedNames'⟩ := oneLine_of_compile done'
  exact ⟨Program.text_eq_iff_same names names',
    Program.text_eq_iff_same specializedNames specializedNames'⟩

/-- The text of a program determines the program up to its spans: the same definitions, statements,
expressions, operators, tags and literals in the same order.  That holds of programs as they are
read and of specialized ones, if their names are identifiers or anything else that stands in one
line. -/
theorem text_eq_iff :
    (∀ first second : Program Unit, first.NamesIn OneLine → second.NamesIn OneLine →
        (first.text = second.text ↔ Alignment.everywhere.SameProgram first second)) ∧
      ∀ first second : Program Ty, first.NamesIn OneLine → second.NamesIn OneLine →
        (first.text = second.text ↔ Alignment.everywhere.SameProgram first second) :=
  ⟨fun _ _ => Program.text_eq_iff_same, fun _ _ => Program.text_eq_iff_same⟩

/-- One program in two layouts, with casts that the specialization inserts. -/
theorem text_eq_iff_of_layouts :
    ∃ compiled compiled',
      (compile .standard "float x; int main() \x7b x = -(1); if (x < 2) main(); \x7d").outcome =
          .ok compiled ∧
        (compile .standard
          "float x;\nint main()\n\x7b\n x = -1;\n if (x < (2)) main();\n\x7d").outcome =
            .ok compiled' ∧
        Alignment.everywhere.SameProgram compiled.program compiled'.program ∧
        Alignment.everywhere.SameProgram compiled.specialized compiled'.specialized := by
  have tested : (compile .standard
      "float x; int main() \x7b x = -(1); if (x < 2) main(); \x7d").outcome.toOption.any
        (fun first => (compile .standard
          "float x;\nint main()\n\x7b\n x = -1;\n if (x < (2)) main();\n\x7d").outcome.toOption.any
            fun second => first.program.text == second.program.text &&
              first.specialized.text == second.specialized.text) = true := by
    decide +kernel
  obtain ⟨compiled, done, tested⟩ := exists_compiled tested
  obtain ⟨compiled', done', tested⟩ := exists_compiled tested
  obtain ⟨plain, specialized⟩ := Bool.and_eq_true_iff.mp tested
  obtain ⟨names, specializedNames⟩ := oneLine_of_compile done
  obtain ⟨names', specializedNames'⟩ := oneLine_of_compile done'
  exact ⟨compiled, compiled', done, done',
    (text_eq_iff.1 _ _ names names').mp (beq_iff_eq.mp plain),
    (text_eq_iff.2 _ _ specializedNames specializedNames').mp (beq_iff_eq.mp specialized)⟩

end Stages

end TypedImp
