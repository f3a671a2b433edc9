import TypedImp.Proofs.Grammar.ExpressionPrediction
import TypedImp.Proofs.Grammar.StatementReading

/-!
# Prediction of statements

The readers of statements follow the rules of the grammar.  `Statement` has an `else` behind closed
statements only; by `isStatement_condition` any statement can stand before one, if it is not said to
which `if` the `else` belongs.
-/

namespace TypedImp.Grammar

open TypedImp.Parser

/-- A statement, open or not. -/
def IsStatement (tokens : List Token) : Prop :=
  ∃ isOpen stmt, Statement isOpen tokens stmt

/-- Statements one behind the other. -/
def AreStatements (tokens : List Token) : Prop :=
  ∃ body, Statements tokens body

/-- What may stand behind the first branch of a condition: nothing, or an `else` and a second
branch. -/
def IsBehindBranch (tokens : List Token) : Prop :=
  tokens = [] ∨ Behind .elseWord IsStatement tokens

/-- The branches of a condition. -/
def AreBranches : List Token → Prop :=
  Joined IsStatement IsBehindBranch

section Words

theorem exists_isStatement : ∃ tokens, IsStatement tokens :=
  ⟨[⟨.semicolon, default, ""⟩], _, _, .skip rfl⟩

theorem exists_areBranches : ∃ tokens, AreBranches tokens :=
  exists_joined exists_isStatement ⟨[], .inl rfl⟩

/-- Behind an open statement an `else` belongs to the `if` at its end. -/
theorem Statement.orElse {tokens alternative : List Token} {stmt : Stmt Unit} {otherwise : Token}
    (derived : Statement true tokens stmt) (isElse : otherwise.kind = .elseWord)
    (rejected : IsStatement alternative) : IsStatement (tokens ++ otherwise :: alternative) := by
  match derived with
  | @Statement.ifThen false word opening closing test others _ _ isIf opens tested closes chosen =>
    obtain ⟨_, _, rejected⟩ := rejected
    have whole := Statement.ifThenElse isIf opens tested closes chosen isElse rejected
    exact ⟨_, _, by simpa using whole⟩
  | @Statement.ifThen true word opening closing test others _ _ isIf opens tested closes chosen =>
    obtain ⟨_, _, inner⟩ := chosen.orElse isElse rejected
    have whole := Statement.ifThen isIf opens tested closes inner
    exact ⟨_, _, by simpa using whole⟩
  | .ifThenElse isIf opens tested closes chosen isElse' rejected' =>
    obtain ⟨_, _, inner⟩ := rejected'.orElse isElse rejected
    have whole := Statement.ifThenElse isIf opens tested closes chosen isElse' inner
    exact ⟨_, _, by simpa using whole⟩
  | .loop isWhile opens tested closes repeated =>
    obtain ⟨_, _, inner⟩ := repeated.orElse isElse rejected
    have whole := Statement.loop isWhile opens tested closes inner
    exact ⟨_, _, by simpa using whole⟩

/-- Every two statements are the branches of a condition. -/
theorem isStatement_condition {word : Token} (isIf : word.kind = .ifWord)
    {test branches : List Token} (tested : IsParenthesized test) (split : AreBranches branches) :
    IsStatement (word :: (test ++ branches)) := by
  obtain ⟨opening, _, rfl, opens, front, close, rfl, ⟨test, tested⟩, closes⟩ := tested
  obtain ⟨others, _, rfl, ⟨isOpen, thenBranch, chosen⟩, rfl |
    ⟨otherwise, alternative, rfl, isElse, rejected⟩⟩ := split
  · have whole := Statement.ifThen isIf opens tested closes chosen
    exact ⟨_, _, by simpa using whole⟩
  cases isOpen with
  | false =>
    obtain ⟨_, _, rejected⟩ := rejected
    have whole := Statement.ifThenElse isIf opens tested closes chosen isElse rejected
    exact ⟨_, _, by simpa using whole⟩
  | true =>
    -- The `else` belongs to an `if` inside the branch, so the whole is a condition without one.
    have whole := Statement.orElse (.ifThen isIf opens tested closes chosen) isElse rejected
    simpa using whole

theorem isStatement_loop {word : Token} (isWhile : word.kind = .whileWord)
    {test body : List Token} (tested : IsParenthesized test) (repeated : IsStatement body) :
    IsStatement (word :: (test ++ body)) := by
  obtain ⟨opening, _, rfl, opens, front, close, rfl, ⟨test, tested⟩, closes⟩ := tested
  obtain ⟨isOpen, body, repeated⟩ := repeated
  have whole := Statement.loop isWhile opens tested closes repeated
  exact ⟨_, _, by simpa using whole⟩

theorem areStatements_cons {first others : List Token} (head : IsStatement first)
    (following : AreStatements others) : AreStatements (first ++ others) := by
  obtain ⟨_, _, head⟩ := head
  obtain ⟨_, following⟩ := following
  exact ⟨_, .more head following⟩

end Words

/-- On some tokens the readers of statements follow the rules of the grammar. -/
structure PredictsStatements (stop : Nat) (tokens : List Token) : Prop where
  statement : Predicts stop IsStatement (fun stop => reader (parseStatement stop)) tokens
  block : Predicts stop (UpTo .rightBrace AreStatements) (fun stop => reader (parseBlock stop))
    tokens

section Induction

variable {α : Type} {stop : Nat} {tokens : List Token}

theorem predicts_expression (kind : TokenKind) (f : Expr Unit → Token → α) :
    Predicts stop (UpTo kind (IsExpression .expression)) (fun stop => upTo stop kind f) tokens :=
  predicts_upTo ((predictsExpressions stop tokens).tier .expression) kind f

theorem predicts_test :
    Predicts stop IsParenthesized (fun stop => reader (parseTest stop)) tokens := by
  simp only [reader_test]
  exact predicts_parenthesized (fun shorter _ => predictsExpressions stop shorter) _

theorem predicts_givenBack {word : Token} (isReturn : word.kind = .returnWord) :
    Predicts stop (fun taken => IsStatement (word :: taken))
      (fun stop => reader (parseGivenBack stop word)) tokens := by
  simp only [reader_givenBack]
  refine (predicts_expression .semicolon _).mono ?_
  rintro _ ⟨front, semicolon, rfl, ⟨value, given⟩, ends⟩
  exact ⟨_, _, .giveBack isReturn given ends⟩

theorem predicts_callOrAssignment {name : Token} (isName : name.kind = .identifier) :
    Predicts stop (fun taken => IsStatement (name :: taken))
      (fun stop => reader (parseCallOrAssignment stop (identOf name))) tokens := by
  simp only [reader_callOrAssignment]
  refine Predicts.ifNext .leftParen (UpTo .semicolon (UpTo .rightParen AreArguments))
    (fun opening rest _ _ => ?_) (fun _ => ?_) ?_
  · exact (predictsExpressions stop rest).arguments.bind (IsToken .semicolon)
      (fun _ behind _ => (predicts_expect .semicolon behind).map _)
      ⟨_, isToken_mk .semicolon⟩ fun _ _ => upTo_append
  · refine (predicts_expect .assign tokens).bind (UpTo .semicolon (IsExpression .expression))
      (fun _ behind _ => predicts_expression .semicolon _)
      (exists_upTo .semicolon (exists_isExpression .expression)) ?_
    rintro _ _ ⟨sign, rfl, isSign⟩ ⟨front, semicolon, rfl, ⟨value, right⟩, ends⟩
    exact ⟨_, _, .assign isName isSign right ends⟩
  · rintro opening _ opens
      ⟨_, semicolon, rfl, ⟨front, close, rfl, ⟨arguments, between⟩, closes⟩, ends⟩
    have whole := Statement.call isName opens between closes ends
    exact ⟨_, _, by simpa using whole⟩

section Compound

variable (ih : ∀ shorter : List Token, shorter.length ≤ tokens.length →
  PredictsStatements stop shorter)

include ih

theorem predicts_branches (test : Expr Unit) :
    Predicts stop AreBranches
      (fun stop => do
        let thenBranch ← reader (parseStatement stop)
        afterBranch stop test thenBranch) tokens := by
  refine (ih tokens (Nat.le_refl _)).statement.bind IsBehindBranch (fun chosen rest read => ?_)
    ⟨[], .inl rfl⟩ fun _ _ => joined_append
  unfold afterBranch
  refine Predicts.ifNext .elseWord IsStatement (fun otherwise behind split _ => ?_)
    (fun _ => predicts_pure _ (.inl rfl)) fun _ _ isElse rejected =>
      .inr (behind_cons isElse rejected)
  have shorter : rest.length < tokens.length := length_lt_of_reader read
  rw [split, List.length_cons] at shorter
  exact (ih behind (by omega)).statement.map _

theorem predicts_condition {word : Token} (isIf : word.kind = .ifWord) :
    Predicts stop (fun taken => IsStatement (word :: taken))
      (fun stop => do
        let test ← reader (parseTest stop)
        let thenBranch ← reader (parseStatement stop)
        afterBranch stop test thenBranch) tokens := by
  refine predicts_test.bind AreBranches (fun test rest read => ?_) exists_areBranches
    fun _ _ => isStatement_condition isIf
  have shorter : rest.length < tokens.length := length_lt_of_reader read
  exact predicts_branches (fun left less => ih left (by omega)) test

theorem predicts_loop {word : Token} (isWhile : word.kind = .whileWord) :
    Predicts stop (fun taken => IsStatement (word :: taken))
      (fun stop => do
        let test ← reader (parseTest stop)
        (fun body => Stmt.loop test body) <$> reader (parseStatement stop)) tokens := by
  refine predicts_test.bind IsStatement (fun test rest read => ?_) exists_isStatement
    fun _ _ => isStatement_loop isWhile
  have shorter : rest.length < tokens.length := length_lt_of_reader read
  exact (ih rest (Nat.le_of_lt shorter)).statement.map _

end Compound

theorem predicts_statement (ih : ∀ shorter : List Token, shorter.length < tokens.length →
    PredictsStatements stop shorter) :
    Predicts stop IsStatement (fun stop => reader (parseStatement stop)) tokens := by
  cases tokens with
  | nil => exact (predicts_refusal _ exists_isStatement).congr_nil reader_statement_nil
  | cons token rest =>
    have step := fun stop' => reader_statement_cons stop' token
    have ihRest (shorter : List Token) (less : shorter.length ≤ rest.length) :
        PredictsStatements stop shorter := ih shorter (Nat.lt_succ_of_le less)
    cases kind : token.kind with
    | semicolon =>
      simp only [kind] at step
      exact predicts_single step ⟨_, _, .skip kind⟩
    | leftBrace =>
      simp only [kind] at step
      refine ((ihRest rest (Nat.le_refl _)).block.map _).behind step ?_
      rintro _ ⟨front, close, rfl, ⟨body, between⟩, closes⟩
      exact ⟨_, _, .block kind between closes⟩
    | ifWord =>
      simp only [kind] at step
      exact (predicts_condition ihRest kind).behind step fun _ => id
    | whileWord =>
      simp only [kind] at step
      exact (predicts_loop ihRest kind).behind step fun _ => id
    | returnWord =>
      simp only [kind] at step
      exact (predicts_givenBack kind).behind step fun _ => id
    | identifier =>
      simp only [kind] at step
      exact (predicts_callOrAssignment kind).behind step fun _ => id
    | _ =>
      simp only [kind] at step
      exact (predicts_refusal _ exists_isStatement).congr_cons step

theorem predicts_block
    (statement : Predicts stop IsStatement (fun stop => reader (parseStatement stop)) tokens)
    (ih : ∀ shorter : List Token, shorter.length < tokens.length →
      PredictsStatements stop shorter) :
    Predicts stop (UpTo .rightBrace AreStatements) (fun stop => reader (parseBlock stop))
      tokens := by
  have empty : AreStatements [] := ⟨[], .none⟩
  cases tokens with
  | nil =>
    exact (predicts_refusal _ (exists_upTo .rightBrace ⟨[], empty⟩)).congr_nil reader_block_nil
  | cons token rest =>
    have step := fun stop' => reader_block_cons stop' token
    by_cases closes : token.kind = .rightBrace
    · simp only [if_pos closes] at step
      exact predicts_single step ⟨[], token, rfl, empty, closes⟩
    · simp only [if_neg closes] at step
      have both : Predicts stop (UpTo .rightBrace AreStatements)
          (fun stop => do
            let first ← reader (parseStatement stop)
            (fun following => first :: following) <$> reader (parseBlock stop))
          (token :: rest) := by
        refine statement.bind (UpTo .rightBrace AreStatements) (fun first left read => ?_)
          (exists_upTo .rightBrace ⟨[], empty⟩) ?_
        · have shorter : left.length < (token :: rest).length := length_lt_of_reader read
          exact (ih left shorter).block.map _
        · rintro front _ head ⟨others, close, rfl, following, closes⟩
          exact ⟨front ++ others, close, by simp, areStatements_cons head following, closes⟩
      exact both.congr_cons step

/-- The readers of statements follow the rules of the grammar. -/
theorem predictsStatements (stop : Nat) (tokens : List Token) :
    PredictsStatements stop tokens := by
  induction length : tokens.length using Nat.strongRecOn generalizing tokens with
  | ind _ lengthIH =>
    have ih (shorter : List Token) (less : shorter.length < tokens.length) :
        PredictsStatements stop shorter := lengthIH _ (length ▸ less) shorter rfl
    have statement := predicts_statement ih
    exact ⟨statement, predicts_block statement ih⟩

end Induction

end TypedImp.Grammar
