import TypedImp.Proofs.Grammar.Program
import TypedImp.Proofs.Program.Nodes
import TypedImp.Proofs.Token.Order

/-!
# The spans of what the grammar writes

An expression lies where its tokens lie, as far as a span can cover them.  A cast has its
word before its operand and its closing parenthesis behind it, so its span is larger.  What
holds of all expressions of some tokens holds throughout a sentence (`every_of_sentence`).
-/

namespace TypedImp

/-- A region begins before another one and ends behind it, unless it is too long to do
so. -/
structure Span.Encloses (outer inner : Span) : Prop where
  begins : outer.lo < inner.lo
  ends : inner.hi < outer.hi ∨ outer.length = Span.maxLength

/-- The casts of the language. -/
def UnaryOperator.isCast : UnaryOperator → Bool
  | .intCast | .floatCast | .charCast => true
  | .not | .neg => false

/-- If an expression is a cast, it encloses its operand. -/
def Expr.CastEncloses {τ : Type} : Expr τ → Prop
  | .unary op _ operand span => op.isCast = true → span.Encloses operand.span
  | _ => True

namespace Grammar

/-- A region lies between two offsets and begins in front of its end. -/
structure LiesIn (span : Span) (lower upper : Nat) : Prop where
  lower : lower ≤ span.lo
  nonempty : span.lo < span.hi
  upper : span.hi ≤ upper

theorem LiesIn.mono {span : Span} {lower lower' upper upper' : Nat}
    (lies : LiesIn span lower upper) (lowerLe : lower' ≤ lower) (upperLe : upper ≤ upper') :
    LiesIn span lower' upper' :=
  ⟨Nat.le_trans lowerLe lies.lower, lies.nonempty, Nat.le_trans lies.upper upperLe⟩

theorem LiesIn.cover {first second : Span} {lower upper : Nat}
    (firstLies : LiesIn first lower upper) (secondLies : LiesIn second lower upper) :
    LiesIn (first.cover second) lower upper := by
  obtain ⟨firstLower, firstNonempty, firstUpper⟩ := firstLies
  obtain ⟨secondLower, secondNonempty, secondUpper⟩ := secondLies
  constructor
  · rw [Span.lo_cover]
    omega
  · rw [Span.lo_cover, Span.hi_cover, Span.maxLength]
    omega
  · rw [Span.hi_cover]
    omega

theorem LiesIn.of_token {token : Token} {offset : Nat} (starts : offset ≤ token.span.lo)
    (nonempty : token.span.lo < token.span.hi) : LiesIn token.span offset token.span.hi :=
  ⟨starts, nonempty, Nat.le_refl _⟩

/-- A region between two tokens is enclosed by the region that covers both. -/
theorem encloses_cover {inner first last : Span} (lies : LiesIn inner first.hi last.lo)
    (firstNonempty : first.lo < first.hi) (lastNonempty : last.lo < last.hi) :
    (first.cover last).Encloses inner := by
  obtain ⟨lower, nonempty, upper⟩ := lies
  constructor
  · rw [Span.lo_cover]
    omega
  · have cover := Span.hi_cover first last
    have length : (first.cover last).hi = (first.cover last).lo + (first.cover last).length := rfl
    rw [Span.lo_cover] at length
    omega

mutual

theorem liesIn_of_expression {tier : Tier} {tokens : List Token} {expr : Expr Unit}
    (derived : Expression tier tokens expr) {offset : Nat} (inOrder : InOrder offset tokens) :
    LiesIn expr.span offset (endOf offset tokens) ∧ expr.Every Expr.CastEncloses := by
  match derived with
  | .chain _ operand operations =>
    obtain ⟨firstInOrder, othersInOrder⟩ := inOrder_append.mp inOrder
    have lhs := liesIn_of_expression operand firstInOrder
    rw [endOf_append]
    exact liesIn_of_operations operations lhs.1 lhs.2 othersInOrder
  | .primary plain => exact liesIn_of_primary plain inOrder
  | .signed isSign plain =>
    obtain ⟨starts, nonempty, following⟩ := inOrder
    obtain ⟨lies, every⟩ := liesIn_of_primary plain following
    have noCast : ∀ {op kind}, Sign kind op → op.isCast = false := by
      intro op kind isSign
      cases isSign <;> rfl
    have upper := following.le_endOf
    refine ⟨((LiesIn.of_token starts nonempty).mono (Nat.le_refl _) upper).cover
      (lies.mono (by omega) (Nat.le_refl _)), every, ?_⟩
    intro isCast
    rw [noCast isSign] at isCast
    cases isCast

theorem liesIn_of_operations {tier : Tier} {lhs expr : Expr Unit} {tokens : List Token}
    (derived : Operations tier lhs tokens expr) {lower offset : Nat}
    (lhsLies : LiesIn lhs.span lower offset) (lhsEvery : lhs.Every Expr.CastEncloses)
    (inOrder : InOrder offset tokens) :
    LiesIn expr.span lower (endOf offset tokens) ∧ expr.Every Expr.CastEncloses := by
  match derived with
  | .none => exact ⟨lhsLies, lhsEvery⟩
  | @Operations.more _ _ _ _ _ sign _ tokens _ _ _ operand following =>
    obtain ⟨starts, nonempty, behind⟩ := inOrder
    obtain ⟨operandInOrder, othersInOrder⟩ := inOrder_append.mp behind
    obtain ⟨rhsLies, rhsEvery⟩ := liesIn_of_expression operand operandInOrder
    have lowerLe : lower ≤ sign.span.hi := by
      have := lhsLies.lower
      have := lhsLies.nonempty
      have := lhsLies.upper
      omega
    have upperLe : offset ≤ endOf sign.span.hi tokens := by
      have := operandInOrder.le_endOf
      omega
    rw [endOf_cons, endOf_append]
    exact liesIn_of_operations following
      ((lhsLies.mono (Nat.le_refl _) upperLe).cover (rhsLies.mono lowerLe (Nat.le_refl _)))
      ⟨lhsEvery, rhsEvery, trivial⟩ othersInOrder

theorem liesIn_of_primary {tokens : List Token} {expr : Expr Unit}
    (derived : Primary tokens expr) {offset : Nat} (inOrder : InOrder offset tokens) :
    LiesIn expr.span offset (endOf offset tokens) ∧ expr.Every Expr.CastEncloses := by
  match derived with
  | .var _ => exact ⟨.of_token inOrder.1 inOrder.2.1, trivial⟩
  | .literal _ => exact ⟨.of_token inOrder.1 inOrder.2.1, trivial⟩
  | .call _ _ between _ =>
    obtain ⟨starts, nonempty, opens, _, following⟩ := inOrder
    obtain ⟨betweenInOrder, closes, closingNonempty, _⟩ := inOrder_append.mp following
    have every := every_of_arguments between betweenInOrder
    have := betweenInOrder.le_endOf
    simp only [endOf_cons, endOf_append, endOf_nil]
    exact ⟨((LiesIn.of_token starts nonempty).mono (Nat.le_refl _) (by omega)).cover
      ((LiesIn.of_token closes closingNonempty).mono (by omega) (Nat.le_refl _)), every, trivial⟩
  | .group _ between _ =>
    obtain ⟨starts, nonempty, following⟩ := inOrder
    obtain ⟨betweenInOrder, closes, closingNonempty, _⟩ := inOrder_append.mp following
    obtain ⟨lies, every⟩ := liesIn_of_expression between betweenInOrder
    simp only [endOf_cons, endOf_append, endOf_nil]
    exact ⟨lies.mono (by omega) (by omega), every⟩
  | .cast _ _ between _ =>
    obtain ⟨starts, nonempty, opens, openingNonempty, following⟩ := inOrder
    obtain ⟨betweenInOrder, closes, closingNonempty, _⟩ := inOrder_append.mp following
    obtain ⟨lies, every⟩ := liesIn_of_expression between betweenInOrder
    have := betweenInOrder.le_endOf
    simp only [endOf_cons, endOf_append, endOf_nil]
    refine ⟨((LiesIn.of_token starts nonempty).mono (Nat.le_refl _) (by omega)).cover
      ((LiesIn.of_token closes closingNonempty).mono (by omega) (Nat.le_refl _)), every, ?_⟩
    intro _
    exact encloses_cover (lies.mono (by omega) closes) nonempty closingNonempty

theorem every_of_arguments {tokens : List Token} {arguments : List (Expr Unit)}
    (derived : Arguments tokens arguments) {offset : Nat} (inOrder : InOrder offset tokens) :
    Expr.EveryOf Expr.CastEncloses arguments := by
  match derived with
  | .none => trivial
  | .some listed => exact every_of_argumentList listed inOrder

theorem every_of_argumentList {tokens : List Token} {arguments : List (Expr Unit)}
    (derived : ArgumentList tokens arguments) {offset : Nat}
    (inOrder : InOrder offset tokens) : Expr.EveryOf Expr.CastEncloses arguments := by
  match derived with
  | .last first => exact ⟨(liesIn_of_expression first inOrder).2, trivial⟩
  | .more first _ following =>
    obtain ⟨firstInOrder, _, _, othersInOrder⟩ := inOrder_append.mp inOrder
    exact ⟨(liesIn_of_expression first firstInOrder).2,
      every_of_argumentList following othersInOrder⟩

end

/-- Tokens of a source that stand in order behind an offset. -/
structure InOrderAmong (all : List Token) (offset : Nat) (tokens : List Token) : Prop where
  inOrder : InOrder offset tokens
  subset : tokens ⊆ all

/-- All expressions that are written with some tokens have a property. -/
def EveryAmong (all : List Token) (holds : Expr Unit → Prop) : Prop :=
  ∀ {tokens : List Token} {expr : Expr Unit} {offset : Nat},
    Expression .expression tokens expr → InOrderAmong all offset tokens → expr.Every holds

section Sentences

variable {all : List Token} {offset : Nat} {holds : Expr Unit → Prop}

theorem inOrderAmong_cons {token : Token} {rest : List Token} :
    InOrderAmong all offset (token :: rest) ↔
      token ∈ all ∧ offset ≤ token.span.lo ∧ token.span.lo < token.span.hi ∧
        InOrderAmong all token.span.hi rest := by
  constructor
  · rintro ⟨⟨starts, nonempty, following⟩, subset⟩
    obtain ⟨member, others⟩ := List.cons_subset.mp subset
    exact ⟨member, starts, nonempty, following, others⟩
  · rintro ⟨member, starts, nonempty, following, others⟩
    exact ⟨⟨starts, nonempty, following⟩, List.cons_subset.mpr ⟨member, others⟩⟩

theorem inOrderAmong_append {first second : List Token} :
    InOrderAmong all offset (first ++ second) ↔
      InOrderAmong all offset first ∧ InOrderAmong all (endOf offset first) second := by
  constructor
  · rintro ⟨inOrder, subset⟩
    obtain ⟨firstInOrder, secondInOrder⟩ := inOrder_append.mp inOrder
    obtain ⟨firstSubset, secondSubset⟩ := List.append_subset.mp subset
    exact ⟨⟨firstInOrder, firstSubset⟩, secondInOrder, secondSubset⟩
  · rintro ⟨⟨firstInOrder, firstSubset⟩, secondInOrder, secondSubset⟩
    exact ⟨inOrder_append.mpr ⟨firstInOrder, secondInOrder⟩,
      List.append_subset.mpr ⟨firstSubset, secondSubset⟩⟩

theorem everyOf_of_argumentList (written : EveryAmong all holds) {tokens : List Token}
    {arguments : List (Expr Unit)} (derived : ArgumentList tokens arguments) {offset : Nat}
    (among : InOrderAmong all offset tokens) : Expr.EveryOf holds arguments := by
  match derived with
  | .last first => exact ⟨written first among, trivial⟩
  | .more first _ following =>
    obtain ⟨firstAmong, behind⟩ := inOrderAmong_append.mp among
    obtain ⟨_, _, _, othersAmong⟩ := inOrderAmong_cons.mp behind
    exact ⟨written first firstAmong, everyOf_of_argumentList written following othersAmong⟩

theorem everyOf_of_arguments (written : EveryAmong all holds) {tokens : List Token}
    {arguments : List (Expr Unit)} (derived : Arguments tokens arguments) {offset : Nat}
    (among : InOrderAmong all offset tokens) : Expr.EveryOf holds arguments := by
  match derived with
  | .none => trivial
  | .some listed => exact everyOf_of_argumentList written listed among

mutual

theorem every_of_statement (written : EveryAmong all holds) {isOpen : Bool}
    {tokens : List Token} {stmt : Stmt Unit} (derived : Statement isOpen tokens stmt)
    {offset : Nat} (among : InOrderAmong all offset tokens) : stmt.Every holds := by
  match derived with
  | .skip _ => trivial
  | .block _ between _ =>
    obtain ⟨_, _, _, following⟩ := inOrderAmong_cons.mp among
    exact every_of_statements written between (inOrderAmong_append.mp following).1
  | .assign _ _ right _ =>
    obtain ⟨_, _, _, behind⟩ := inOrderAmong_cons.mp among
    obtain ⟨_, _, _, following⟩ := inOrderAmong_cons.mp behind
    exact written right (inOrderAmong_append.mp following).1
  | .call _ _ between _ _ =>
    obtain ⟨_, _, _, behind⟩ := inOrderAmong_cons.mp among
    obtain ⟨_, _, _, following⟩ := inOrderAmong_cons.mp behind
    exact everyOf_of_arguments written between (inOrderAmong_append.mp following).1
  | .giveBack _ given _ =>
    obtain ⟨_, _, _, following⟩ := inOrderAmong_cons.mp among
    exact written given (inOrderAmong_append.mp following).1
  | .ifThen _ _ tested _ chosen =>
    obtain ⟨_, _, _, behind⟩ := inOrderAmong_cons.mp among
    obtain ⟨_, _, _, following⟩ := inOrderAmong_cons.mp behind
    obtain ⟨testAmong, rest⟩ := inOrderAmong_append.mp following
    obtain ⟨_, _, _, chosenAmong⟩ := inOrderAmong_cons.mp rest
    exact ⟨written tested testAmong, every_of_statement written chosen chosenAmong, trivial⟩
  | .ifThenElse _ _ tested _ chosen _ rejected =>
    obtain ⟨_, _, _, behind⟩ := inOrderAmong_cons.mp among
    obtain ⟨_, _, _, following⟩ := inOrderAmong_cons.mp behind
    obtain ⟨testAmong, rest⟩ := inOrderAmong_append.mp following
    obtain ⟨_, _, _, branches⟩ := inOrderAmong_cons.mp rest
    obtain ⟨chosenAmong, alternative⟩ := inOrderAmong_append.mp branches
    obtain ⟨_, _, _, rejectedAmong⟩ := inOrderAmong_cons.mp alternative
    exact ⟨written tested testAmong, every_of_statement written chosen chosenAmong,
      every_of_statement written rejected rejectedAmong⟩
  | .loop _ _ tested _ repeated =>
    obtain ⟨_, _, _, behind⟩ := inOrderAmong_cons.mp among
    obtain ⟨_, _, _, following⟩ := inOrderAmong_cons.mp behind
    obtain ⟨testAmong, rest⟩ := inOrderAmong_append.mp following
    obtain ⟨_, _, _, bodyAmong⟩ := inOrderAmong_cons.mp rest
    exact ⟨written tested testAmong, every_of_statement written repeated bodyAmong⟩

theorem every_of_statements (written : EveryAmong all holds) {tokens : List Token}
    {body : List (Stmt Unit)} (derived : Statements tokens body) {offset : Nat}
    (among : InOrderAmong all offset tokens) : Stmt.EveryOf holds body := by
  match derived with
  | .none => trivial
  | .more head following =>
    obtain ⟨headAmong, othersAmong⟩ := inOrderAmong_append.mp among
    exact ⟨every_of_statement written head headAmong,
      every_of_statements written following othersAmong⟩

end

theorem every_of_functionLine (written : EveryAmong all holds) {tokens : List Token}
    {function : FunctionTree} (line : FunctionLine tokens function) {offset : Nat}
    (among : InOrderAmong all offset tokens) : Stmt.EveryOf holds function.body := by
  obtain ⟨_, _, _, _, _, _, _, done, _⟩ := line
  obtain ⟨_, _, _, behindType⟩ := inOrderAmong_cons.mp among
  obtain ⟨_, _, _, behindName⟩ := inOrderAmong_cons.mp behindType
  obtain ⟨_, _, _, behindOpening⟩ := inOrderAmong_cons.mp behindName
  obtain ⟨_, closing⟩ := inOrderAmong_append.mp behindOpening
  obtain ⟨_, _, _, opening⟩ := inOrderAmong_cons.mp closing
  obtain ⟨_, _, _, inBraces⟩ := inOrderAmong_cons.mp opening
  obtain ⟨_, behindLocals⟩ := inOrderAmong_append.mp inBraces
  exact every_of_statements written done (inOrderAmong_append.mp behindLocals).1

/-- What holds of all expressions that stand among some tokens holds of all that a sentence
writes there. -/
theorem every_of_sentence (written : EveryAmong all holds) {tokens : List Token}
    {tree : ProgramTree} (sentence : Sentence tokens tree) {offset : Nat}
    (among : InOrderAmong all offset tokens) :
    ∀ function ∈ tree.functions, Stmt.EveryOf holds function.body := by
  induction sentence generalizing offset with
  | none => simp
  | declaration _ _ ih => exact ih (inOrderAmong_append.mp among).2
  | function line _ ih =>
    obtain ⟨lineAmong, othersAmong⟩ := inOrderAmong_append.mp among
    exact List.forall_mem_cons.mpr
      ⟨every_of_functionLine written line lineAmong, ih othersAmong⟩

end Sentences

end Grammar

end TypedImp
