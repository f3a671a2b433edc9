import TypedImp.Program.Parser.Statement
import TypedImp.Proofs.Grammar.ExpressionReading
import TypedImp.Proofs.Grammar.Program

/-!
# Reading statements by the grammar

The parser takes an `else` whenever one follows a branch, so an `if` that it leaves
without one is followed by something else.  An open statement of the grammar is read
exactly in front of such a rest.
-/

namespace TypedImp.Grammar

open TypedImp.Parser

section Parts

variable {stop : Nat}

/-- In front of a token that cannot continue it, an expression is read by the grammar. -/
theorem reads_parseExpr_iff {close : Token} {rest tokens : List Token} {expr : Expr Unit}
    (noCall : close.kind ≠ .leftParen) (noOperator : binaryOperator? close.kind = none) :
    Reads (parseExpr stop tokens) expr (close :: rest) ↔
      Spells (Expression .expression · expr) tokens (close :: rest) := by
  constructor
  · exact (readsSoundly stop tokens).expression
  · rintro ⟨spelled, rfl, fits, derived⟩
    exact reads_of_expression stop derived fits _ (ends_of_kind noCall noOperator)

theorem reads_parseArguments_iff {close : Token} {rest tokens : List Token}
    {arguments : List (Expr Unit)} :
    Reads (parseArguments stop tokens) (arguments, close) rest ↔
      close.kind = .rightParen ∧ Spells (Arguments · arguments) tokens (close :: rest) := by
  constructor
  · exact (readsSoundly stop tokens).arguments
  · rintro ⟨closes, spelled, rfl, fits, derived⟩
    exact reads_of_arguments stop derived fits rest closes

/-- An expression up to a closing token of a given kind. -/
theorem reads_parseExpr_expect_iff (kind : TokenKind) {tokens rest : List Token}
    {expr : Expr Unit} (noCall : kind ≠ .leftParen)
    (noOperator : binaryOperator? kind = none) :
    (∃ middle, ∃ _ : middle.length < tokens.length,
      Reads (parseExpr stop tokens) expr middle ∧
        ∃ close, middle = close :: rest ∧ close.kind = kind) ↔
      ∃ close : Token, close.kind = kind ∧
        Spells (Expression .expression · expr) tokens (close :: rest) := by
  constructor
  · rintro ⟨_, _, reads, close, rfl, rfl⟩
    exact ⟨close, rfl, (reads_parseExpr_iff noCall noOperator).mp reads⟩
  · rintro ⟨close, rfl, spells⟩
    have reads : Reads (parseExpr stop tokens) expr (close :: rest) :=
      (reads_parseExpr_iff noCall noOperator).mpr spells
    exact ⟨_, reads.within, reads, close, rfl, rfl⟩

theorem reads_parseTest_iff {tokens rest : List Token} {test : Expr Unit} :
    Reads (parseTest stop tokens) test rest ↔
      ∃ opening behind close, tokens = opening :: behind ∧ opening.kind = .leftParen ∧
        close.kind = .rightParen ∧
        Spells (Expression .expression · test) behind (close :: rest) := by
  simp only [parseTest, reads_andThen_iff, reads_expect_iff, reads_give_iff]
  constructor
  · rintro ⟨opening, behind, _, ⟨rfl, opens⟩, _, middle, shorter, reads, close, isClose, rfl⟩
    obtain ⟨close, closes, spells⟩ :=
      (reads_parseExpr_expect_iff .rightParen (by simp) rfl).mp
        ⟨middle, shorter, reads, close, isClose⟩
    exact ⟨opening, behind, close, rfl, opens, closes, spells⟩
  · rintro ⟨opening, behind, close, rfl, opens, closes, spells⟩
    obtain ⟨middle, shorter, reads, close, isClose⟩ :=
      (reads_parseExpr_expect_iff .rightParen (by simp) rfl).mpr
        ⟨close, closes, spells⟩
    exact ⟨opening, behind, Nat.lt_succ_self _, ⟨rfl, opens⟩, _, middle, shorter, reads,
      close, isClose, rfl⟩

theorem reads_parseGivenBack_iff {word : Token} {tokens rest : List Token}
    {stmt : Stmt Unit} :
    Reads (parseGivenBack stop word tokens) stmt rest ↔
      ∃ value semicolon, stmt = .giveBack value word.span ∧ semicolon.kind = .semicolon ∧
        Spells (Expression .expression · value) tokens (semicolon :: rest) := by
  simp only [parseGivenBack, reads_andThen_iff, reads_expect_iff, reads_give_iff]
  constructor
  · rintro ⟨value, middle, shorter, reads, close, isClose, rfl⟩
    obtain ⟨close, closes, spells⟩ :=
      (reads_parseExpr_expect_iff .semicolon (by simp) rfl).mp
        ⟨middle, shorter, reads, close, isClose⟩
    exact ⟨value, close, rfl, closes, spells⟩
  · rintro ⟨value, semicolon, rfl, closes, spells⟩
    obtain ⟨middle, shorter, reads, close, isClose⟩ :=
      (reads_parseExpr_expect_iff .semicolon (by simp) rfl).mpr
        ⟨semicolon, closes, spells⟩
    exact ⟨value, middle, shorter, reads, close, isClose, rfl⟩

theorem reads_parseCallOrAssignment_iff {target : Ident} {tokens rest : List Token}
    {stmt : Stmt Unit} :
    Reads (parseCallOrAssignment stop target tokens) stmt rest ↔
      (∃ opening behind arguments close semicolon, tokens = opening :: behind ∧
        opening.kind = .leftParen ∧
        stmt = .call target arguments (target.span.cover close.span) ∧
        close.kind = .rightParen ∧ semicolon.kind = .semicolon ∧
        Spells (Arguments · arguments) behind (close :: semicolon :: rest)) ∨
      ∃ sign behind value semicolon, tokens = sign :: behind ∧ sign.kind = .assign ∧
        stmt = .assign target value ∧ semicolon.kind = .semicolon ∧
        Spells (Expression .expression · value) behind (semicolon :: rest) := by
  constructor
  · intro reads
    rw [parseCallOrAssignment] at reads
    split at reads
    case _ opening behind _ found =>
      obtain ⟨rfl, opens⟩ := eq_cons_of_take? found
      simp only [reads_after_iff, reads_andThen_iff, reads_expect_iff, reads_give_iff]
        at reads
      obtain ⟨⟨arguments, close⟩, _, _, reads, semicolon, ⟨rfl, ends⟩, rfl⟩ := reads
      obtain ⟨closes, spells⟩ := reads_parseArguments_iff.mp reads
      exact .inl ⟨opening, behind, arguments, close, semicolon, rfl, opens, rfl, closes, ends,
        spells⟩
    case _ =>
      simp only [reads_andThen_iff, reads_expect_iff, reads_give_iff] at reads
      obtain ⟨sign, behind, _, ⟨rfl, isSign⟩, value, middle, shorter, reads, close, isClose,
        rfl⟩ := reads
      obtain ⟨semicolon, ends, spells⟩ :=
        (reads_parseExpr_expect_iff .semicolon (by simp) rfl).mp
          ⟨middle, shorter, reads, close, isClose⟩
      exact .inr ⟨sign, behind, value, semicolon, rfl, isSign, rfl, ends, spells⟩
  · rintro (⟨opening, behind, arguments, close, semicolon, rfl, opens, rfl, closes, ends,
      spells⟩ | ⟨sign, behind, value, semicolon, rfl, isSign, rfl, ends, spells⟩)
    · have reads : Reads (parseArguments stop behind) (arguments, close) (semicolon :: rest) :=
        reads_parseArguments_iff.mpr ⟨closes, spells⟩
      rw [parseCallOrAssignment, take?_of_kind opens]
      simp only [reads_after_iff, reads_andThen_iff, reads_expect_iff, reads_give_iff]
      exact ⟨_, _, reads.within, reads, semicolon, ⟨rfl, ends⟩, rfl⟩
    · obtain ⟨middle, shorter, reads, close, isClose⟩ :=
        (reads_parseExpr_expect_iff .semicolon (by simp) rfl).mpr
          ⟨semicolon, ends, spells⟩
      have noCall : take? .leftParen (sign :: behind) = none := by
        simp [take?_cons, isSign]
      rw [parseCallOrAssignment, noCall]
      simp only [reads_andThen_iff, reads_expect_iff, reads_give_iff]
      exact ⟨sign, behind, Nat.lt_succ_self _, ⟨rfl, isSign⟩, value, middle, shorter, reads,
        close, isClose, rfl⟩

end Parts

/-- An open statement stands in front of something that is no `else`. -/
def NoElseBehind (isOpen : Bool) (rest : List Token) : Prop :=
  isOpen = true → ∀ token ∈ rest.head?, token.kind ≠ .elseWord

/-- What the parsers of statements read is written by the grammar. -/
structure StatementsReadSoundly (stop : Nat) (tokens : List Token) : Prop where
  statement {stmt : Stmt Unit} {rest : List Token} :
    Reads (parseStatement stop tokens) stmt rest →
      ∃ isOpen, NoElseBehind isOpen rest ∧ Spells (Statement isOpen · stmt) tokens rest
  block {body : List (Stmt Unit)} {rest : List Token} :
    Reads (parseBlock stop tokens) body rest →
      ∃ close : Token, close.kind = .rightBrace ∧
        Spells (Statements · body) tokens (close :: rest)

section Soundness

variable {stop : Nat} {tokens : List Token}

theorem statement_of_reads
    (ih : ∀ shorter : List Token, shorter.length < tokens.length →
      StatementsReadSoundly stop shorter)
    {stmt : Stmt Unit} {rest : List Token}
    (reads : Reads (parseStatement stop tokens) stmt rest) :
    ∃ isOpen, NoElseBehind isOpen rest ∧ Spells (Statement isOpen · stmt) tokens rest := by
  have closed : NoElseBehind false rest := fun isOpen => nomatch isOpen
  cases tokens with
  | nil =>
    rw [parseStatement] at reads
    exact (not_reads_refuse _ _ _ _ reads).elim
  | cons token behind =>
    rw [parseStatement] at reads
    split at reads
    case _ ends =>
      obtain ⟨rfl, rfl⟩ := reads_single_iff.mp reads
      exact ⟨false, closed, [token], rfl, by simp [ends], .skip ends⟩
    case _ opens =>
      simp only [reads_afterToken_iff, reads_give_iff] at reads
      obtain ⟨body, reads, rfl⟩ := reads
      obtain ⟨close, closes, spelled, rfl, fits, between⟩ := (ih behind (by simp)).block reads
      refine ⟨false, closed, token :: (spelled ++ [close]), by simp, ?_,
        .block opens between closes⟩
      simp [opens, fits, closes]
    case _ isIf =>
      simp only [reads_afterToken_iff, reads_andThen_iff, reads_andMaybe_iff,
        reads_parseTest_iff] at reads
      obtain ⟨test, middle, shorter, ⟨opening, inner, close, rfl, opens, closes, spelled, rfl,
        testFits, tested⟩, thenBranch, following, chosenShorter, chosen, reads⟩ := reads
      obtain ⟨thenOpen, thenEnds, others, rfl, othersFit, thenDerived⟩ :=
        (ih middle (by simp only [List.length_cons, List.length_append]; omega)).statement
          chosen
      split at reads
      case _ found =>
        obtain ⟨rfl, rfl⟩ := reads_nothing_iff.mp reads
        refine ⟨true, fun _ => take?_eq_none_iff.mp found,
          token :: opening :: (spelled ++ close :: others), by simp, ?_,
          .ifThen isIf opens tested closes thenDerived⟩
        simp [isIf, opens, testFits, closes, othersFit]
      case _ otherwise behind _ found =>
        obtain ⟨rfl, isElse⟩ := eq_cons_of_take? found
        obtain rfl : thenOpen = false := by
          cases thenOpen with
          | false => rfl
          | true => exact absurd isElse (thenEnds rfl otherwise rfl)
        simp only [reads_optional_iff, reads_after_iff, reads_give_iff] at reads
        obtain ⟨elseBranch, rejected, rfl⟩ := reads
        obtain ⟨elseOpen, elseEnds, alternative, rfl, alternativeFits, elseDerived⟩ :=
          (ih behind (by simp only [List.length_cons, List.length_append]; omega)).statement
            rejected
        refine ⟨elseOpen, elseEnds, token :: opening ::
          (spelled ++ close :: (others ++ otherwise :: alternative)), by simp, ?_,
          .ifThenElse isIf opens tested closes thenDerived isElse elseDerived⟩
        simp [isIf, opens, testFits, closes, othersFit, alternativeFits,
          show otherwise.kind = .elseWord from isElse]
    case _ isWhile =>
      simp only [reads_afterToken_iff, reads_andThen_iff, reads_give_iff,
        reads_parseTest_iff] at reads
      obtain ⟨test, middle, shorter, ⟨opening, inner, close, rfl, opens, closes, spelled, rfl,
        testFits, tested⟩, body, repeated, rfl⟩ := reads
      obtain ⟨isOpen, bodyEnds, others, rfl, othersFit, bodyDerived⟩ :=
        (ih middle (by simp only [List.length_cons, List.length_append]; omega)).statement
          repeated
      refine ⟨isOpen, bodyEnds, token :: opening :: (spelled ++ close :: others), by simp, ?_,
        .loop isWhile opens tested closes bodyDerived⟩
      simp [isWhile, opens, testFits, closes, othersFit]
    case _ isReturn =>
      rw [reads_afterToken_iff, reads_parseGivenBack_iff] at reads
      obtain ⟨value, semicolon, rfl, ends, spelled, rfl, fits, given⟩ := reads
      refine ⟨false, closed, token :: (spelled ++ [semicolon]), by simp, ?_,
        .giveBack isReturn given ends⟩
      simp [isReturn, fits, ends]
    case _ isName =>
      rw [reads_afterToken_iff, reads_parseCallOrAssignment_iff] at reads
      obtain (⟨opening, inner, arguments, close, semicolon, rfl, opens, rfl, closes, ends,
        spelled, rfl, fits, between⟩ | ⟨sign, inner, value, semicolon, rfl, isSign, rfl, ends,
        spelled, rfl, fits, right⟩) := reads
      · refine ⟨false, closed, token :: opening :: (spelled ++ [close, semicolon]), by simp,
          ?_, .call isName opens between closes ends⟩
        simp [isName, opens, fits, closes, ends]
      · refine ⟨false, closed, token :: sign :: (spelled ++ [semicolon]), by simp, ?_,
          .assign isName isSign right ends⟩
        simp [isName, isSign, fits, ends]
    case _ => exact (not_reads_refuse _ _ _ _ reads).elim

theorem block_of_reads
    (statement : ∀ {stmt rest}, Reads (parseStatement stop tokens) stmt rest →
      ∃ isOpen, NoElseBehind isOpen rest ∧ Spells (Statement isOpen · stmt) tokens rest)
    (ih : ∀ shorter : List Token, shorter.length < tokens.length →
      StatementsReadSoundly stop shorter)
    {body : List (Stmt Unit)} {rest : List Token}
    (reads : Reads (parseBlock stop tokens) body rest) :
    ∃ close : Token, close.kind = .rightBrace ∧
      Spells (Statements · body) tokens (close :: rest) := by
  cases tokens with
  | nil =>
    rw [parseBlock] at reads
    exact (not_reads_refuse _ _ _ _ reads).elim
  | cons token behind =>
    rw [parseBlock] at reads
    split at reads
    case isTrue closes =>
      obtain ⟨rfl, rfl⟩ := reads_single_iff.mp reads
      exact ⟨token, closes, [], rfl, literalsFit_nil, .none⟩
    case isFalse =>
      simp only [reads_andThen_iff, reads_give_iff] at reads
      obtain ⟨first, middle, shorter, head, following, reads, rfl⟩ := reads
      obtain ⟨isOpen, _, spelled, split, fits, headDerived⟩ := statement head
      obtain ⟨close, closes, others, rfl, othersFit, followingDerived⟩ :=
        (ih middle shorter).block reads
      exact ⟨close, closes, spelled ++ others, by simp [split], by simp [fits, othersFit],
        .more headDerived followingDerived⟩

/-- The parsers of statements read what the grammar writes. -/
theorem statementsReadSoundly (stop : Nat) (tokens : List Token) :
    StatementsReadSoundly stop tokens := by
  induction length : tokens.length using Nat.strongRecOn generalizing tokens with
  | ind _ lengthIH =>
    have ih (shorter : List Token) (less : shorter.length < tokens.length) :
        StatementsReadSoundly stop shorter := lengthIH _ (length ▸ less) shorter rfl
    exact ⟨statement_of_reads ih, block_of_reads (statement_of_reads ih) ih⟩

end Soundness

section Completeness

/-- A statement begins with a token that can neither stand behind a branch, nor end a
block, nor begin a declaration. -/
theorem head_of_statement {isOpen : Bool} {tokens : List Token} {stmt : Stmt Unit}
    (derived : Statement isOpen tokens stmt) :
    ∃ token others, tokens = token :: others ∧ token.kind ≠ .elseWord ∧
      token.kind ≠ .rightBrace ∧ ∀ ty, token.kind ≠ .typeName ty := by
  cases derived with
  | skip kindEq | block kindEq | assign kindEq | call kindEq | giveBack kindEq
  | ifThen kindEq | ifThenElse kindEq | loop kindEq =>
    exact ⟨_, _, rfl, by simp [kindEq], by simp [kindEq], by simp [kindEq]⟩

variable (stop : Nat)

mutual

theorem reads_of_statement {isOpen : Bool} {tokens : List Token} {stmt : Stmt Unit}
    (derived : Statement isOpen tokens stmt) (fits : LiteralsFit tokens) (rest : List Token)
    (ends : NoElseBehind isOpen rest) :
    Reads (parseStatement stop (tokens ++ rest)) stmt rest := by
  match derived with
  | .skip kindEq =>
    rw [List.singleton_append, parseStatement, kindEq]
    simp
  | .block opens between closes =>
    simp only [literalsFit_cons, literalsFit_append] at fits
    have body := reads_of_statements between fits.2.1 rest closes
    rw [List.cons_append, List.append_assoc, List.singleton_append, parseStatement, opens]
    simp only [reads_afterToken_iff, reads_give_iff]
    exact ⟨_, body, rfl⟩
  | .assign isName isSign right ends =>
    simp only [literalsFit_cons, literalsFit_append] at fits
    rw [List.cons_append, List.cons_append, List.append_assoc, List.singleton_append,
      parseStatement, isName]
    simp only [reads_afterToken_iff, reads_parseCallOrAssignment_iff]
    exact .inr ⟨_, _, _, _, rfl, isSign, rfl, ends, _, rfl, fits.2.2.1, right⟩
  | .call isName opens between closes ends =>
    simp only [literalsFit_cons, literalsFit_append] at fits
    rw [List.cons_append, List.cons_append, List.append_assoc, parseStatement, isName]
    simp only [reads_afterToken_iff, reads_parseCallOrAssignment_iff]
    exact .inl ⟨_, _, _, _, _, rfl, opens, rfl, closes, ends, _, rfl, fits.2.2.1, between⟩
  | .giveBack isReturn given ends =>
    simp only [literalsFit_cons, literalsFit_append] at fits
    rw [List.cons_append, List.append_assoc, List.singleton_append, parseStatement, isReturn]
    simp only [reads_afterToken_iff, reads_parseGivenBack_iff]
    exact ⟨_, _, rfl, ends, _, rfl, fits.2.1, given⟩
  | @Statement.ifThen _ _ _ _ _ others _ _ isIf opens tested closes chosen =>
    simp only [literalsFit_cons, literalsFit_append] at fits
    have noElse := ends rfl
    have thenBranch := reads_of_statement chosen fits.2.2.2.2 rest fun _ => noElse
    rw [List.cons_append, List.cons_append, List.append_assoc, List.cons_append,
      parseStatement, isIf]
    simp only [reads_afterToken_iff, reads_andThen_iff, reads_andMaybe_iff,
      reads_parseTest_iff]
    refine ⟨_, others ++ rest, ?_, ⟨_, _, _, rfl, opens, closes, _, rfl, fits.2.2.1, tested⟩,
      _, rest, thenBranch.within, thenBranch, ?_⟩
    · simp only [List.length_cons, List.length_append]
      omega
    · simp [take?_eq_none_iff.mpr noElse]
  | @Statement.ifThenElse _ _ _ _ otherwise _ others alternative _ _ _ isIf opens tested
      closes chosen isElse rejected =>
    simp only [literalsFit_cons, literalsFit_append] at fits
    have elseBranch := reads_of_statement rejected fits.2.2.2.2.2.2 rest ends
    have thenBranch := reads_of_statement chosen fits.2.2.2.2.1
      (otherwise :: (alternative ++ rest)) fun isOpen => nomatch isOpen
    rw [List.cons_append, List.cons_append, List.append_assoc, List.cons_append,
      List.append_assoc, List.cons_append, parseStatement, isIf]
    simp only [reads_afterToken_iff, reads_andThen_iff, reads_andMaybe_iff,
      reads_parseTest_iff]
    refine ⟨_, _, ?_, ⟨_, _, _, rfl, opens, closes, _, rfl, fits.2.2.1, tested⟩,
      _, _, thenBranch.within, thenBranch, ?_⟩
    · simp only [List.length_cons, List.length_append]
      omega
    · simp only [take?_of_kind isElse, reads_optional_iff, reads_after_iff, reads_give_iff]
      exact ⟨_, elseBranch, rfl⟩
  | @Statement.loop _ _ _ _ _ others _ _ isWhile opens tested closes repeated =>
    simp only [literalsFit_cons, literalsFit_append] at fits
    have body := reads_of_statement repeated fits.2.2.2.2 rest ends
    rw [List.cons_append, List.cons_append, List.append_assoc, List.cons_append,
      parseStatement, isWhile]
    simp only [reads_afterToken_iff, reads_andThen_iff, reads_give_iff, reads_parseTest_iff]
    refine ⟨_, others ++ rest, ?_, ⟨_, _, _, rfl, opens, closes, _, rfl, fits.2.2.1, tested⟩,
      _, body, rfl⟩
    simp only [List.length_cons, List.length_append]
    omega

theorem reads_of_statements {tokens : List Token} {body : List (Stmt Unit)}
    (derived : Statements tokens body) (fits : LiteralsFit tokens) (rest : List Token)
    {close : Token} (closes : close.kind = .rightBrace) :
    Reads (parseBlock stop (tokens ++ close :: rest)) body rest := by
  match derived with
  | .none =>
    rw [List.nil_append, parseBlock, if_pos closes]
    simp
  | @Statements.more _ _ others _ _ head following =>
    obtain ⟨headFits, othersFit⟩ := literalsFit_append.mp fits
    have noElse : ∀ token ∈ (others ++ close :: rest).head?, token.kind ≠ .elseWord := by
      intro token isFirst
      cases following with
      | none =>
        cases isFirst
        simp [closes]
      | more second _ =>
        obtain ⟨_, _, rfl, noElse, _⟩ := head_of_statement second
        cases isFirst
        exact noElse
    have first := reads_of_statement head headFits (others ++ close :: rest) fun _ => noElse
    have behind := reads_of_statements following othersFit rest closes
    obtain ⟨token, inner, rfl, _, noEnd, _⟩ := head_of_statement head
    rw [List.append_assoc, List.cons_append, parseBlock, if_neg noEnd]
    simp only [reads_andThen_iff, reads_give_iff]
    exact ⟨_, _, first.within, first, _, behind, rfl⟩

end

end Completeness

/-- A block is read up to its closing brace exactly if the grammar writes its body. -/
theorem reads_parseBlock_iff {stop : Nat} {tokens rest : List Token}
    {body : List (Stmt Unit)} :
    Reads (parseBlock stop tokens) body rest ↔
      ∃ close : Token, close.kind = .rightBrace ∧
        Spells (Statements · body) tokens (close :: rest) := by
  constructor
  · exact (statementsReadSoundly stop tokens).block
  · rintro ⟨close, closes, spelled, rfl, fits, derived⟩
    exact reads_of_statements stop derived fits rest closes

end TypedImp.Grammar
