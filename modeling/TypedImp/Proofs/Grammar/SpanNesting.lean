import TypedImp.Proofs.Failures
import TypedImp.Proofs.Grammar.ExpressionReading
import TypedImp.Proofs.Grammar.Spans

/-!
# How the spans of an expression nest

The span of an expression reaches from the start of a token to the end of a token.  Parentheses
leave no node and do not widen a span, but an operator, a word of a cast and a called name stand
outside of the operands, so a span is larger than the spans of its operands, and these stand one
behind the other.  Only a span that is too long for its region is cut off in front of its end.
-/

namespace TypedImp

variable {τ : Type}

namespace Span

/-- A span has the largest length, and does not reach the end of all tokens. -/
def IsCut (tokens : List Token) (span : Span) : Prop :=
  span.length = maxLength ∧ ∃ token ∈ tokens, span.hi < token.span.hi

/-- A span covers another one, and more. -/
structure StrictlyContains (outer inner : Span) : Prop where
  begins : outer.lo ≤ inner.lo
  ends : inner.hi ≤ outer.hi
  more : outer ≠ inner

end Span

namespace Expr

/-- The operands of an operator, or the arguments of a call. -/
def children : Expr τ → List (Expr τ)
  | .literal _ _ | .var _ _ => []
  | .binary _ _ lhs rhs _ => [lhs, rhs]
  | .unary _ _ operand _ => [operand]
  | .call _ arguments _ _ => arguments

mutual

/-- The spans of all nodes of an expression, each node in front of its children. -/
def nodeSpans : Expr τ → List Span
  | .literal _ span | .var _ span => [span]
  | .binary _ _ lhs rhs span => span :: (lhs.nodeSpans ++ rhs.nodeSpans)
  | .unary _ _ operand span => span :: operand.nodeSpans
  | .call _ arguments _ span => span :: nodeSpansOf arguments

/-- The spans of all nodes of some expressions. -/
def nodeSpansOf : List (Expr τ) → List Span
  | [] => []
  | first :: rest => first.nodeSpans ++ nodeSpansOf rest

end

theorem nodeSpans_eq_cons (expr : Expr τ) :
    expr.nodeSpans = expr.span :: nodeSpansOf expr.children := by
  cases expr <;> simp [nodeSpans, nodeSpansOf, children, span]

theorem every_iff {holds : Expr τ → Prop} {expr : Expr τ} :
    expr.Every holds ↔ EveryOf holds expr.children ∧ holds expr := by
  cases expr <;> simp [Every, EveryOf, children, and_assoc]

/-- A variable or a literal is written by one token and has its span. -/
def IsTokenOf (tokens : List Token) : Expr Unit → Prop
  | .var name span =>
    ∃ token ∈ tokens, token.kind = .identifier ∧ name = ⟨token.text, token.span⟩ ∧
      span = token.span
  | .literal value span =>
    ∃ token ∈ tokens, Grammar.Literal token value ∧ span = token.span
  | .binary .. | .unary .. | .call .. => True

/-- The spans in an expression nest and are the spans of tokens, up to spans that are cut off. -/
structure Nests (tokens : List Token) (expr : Expr Unit) : Prop where
  begins : ∃ token ∈ tokens, expr.span.lo = token.span.lo
  ends : ¬ expr.span.IsCut tokens → ∃ token ∈ tokens, expr.span.hi = token.span.hi
  leaf : expr.IsTokenOf tokens
  contains :
    ¬ expr.span.IsCut tokens → ∀ child ∈ expr.children, expr.span.StrictlyContains child.span
  ordered : expr.children.Pairwise fun first second => first.span.hi ≤ second.span.lo
  distinct : expr.nodeSpans.Pairwise fun first second => first = second → first.IsCut tokens

end Expr

namespace Grammar

variable {all : List Token} {lower upper : Nat}

/-- An expression with the span from the start of one token to the end of another one, as far as a
span reaches, and with all its nodes between them. -/
structure StandsBetween (all : List Token) (first last : Token) (expr : Expr Unit) : Prop where
  firstMember : first ∈ all
  lastMember : last ∈ all
  span : expr.span = .ofBounds first.span.lo last.span.hi
  nodes : ∀ span ∈ expr.nodeSpans, LiesIn span first.span.lo last.span.hi
  nests : expr.Every (Expr.Nests all)

/-- An expression that stands between two tokens which lie between two offsets. -/
def StandsIn (all : List Token) (lower upper : Nat) (expr : Expr Unit) : Prop :=
  ∃ first last, lower ≤ first.span.lo ∧ last.span.hi ≤ upper ∧ StandsBetween all first last expr

/-- Expressions that stand one behind the other between two offsets. -/
def StandInTurn (all : List Token) (lower upper : Nat) : List (Expr Unit) → Prop
  | [] => lower ≤ upper
  | first :: rest =>
    ∃ middle, StandsIn all lower middle first ∧ StandInTurn all middle upper rest

namespace StandsBetween

variable {first last : Token} {expr : Expr Unit}

theorem liesIn (stands : StandsBetween all first last expr) :
    LiesIn expr.span first.span.lo last.span.hi := by
  refine stands.nodes expr.span ?_
  rw [expr.nodeSpans_eq_cons]
  exact List.mem_cons_self

theorem nonempty (stands : StandsBetween all first last expr) :
    first.span.lo < last.span.hi := by
  obtain ⟨lower, nonempty, upper⟩ := stands.liesIn
  omega

theorem distinct (stands : StandsBetween all first last expr) :
    expr.nodeSpans.Pairwise fun first second => first = second → first.IsCut all :=
  (Expr.every_iff.mp stands.nests).2.distinct

end StandsBetween

namespace StandsIn

variable {expr : Expr Unit}

theorem mono {lower' upper' : Nat} (stands : StandsIn all lower upper expr)
    (lowerLe : lower' ≤ lower) (upperLe : upper ≤ upper') : StandsIn all lower' upper' expr := by
  obtain ⟨first, last, begins, ends, between⟩ := stands
  exact ⟨first, last, Nat.le_trans lowerLe begins, Nat.le_trans ends upperLe, between⟩

theorem lt (stands : StandsIn all lower upper expr) : lower < upper := by
  obtain ⟨first, last, begins, ends, between⟩ := stands
  have := between.nonempty
  omega

theorem nodes (stands : StandsIn all lower upper expr) :
    ∀ span ∈ expr.nodeSpans, LiesIn span lower upper := by
  obtain ⟨first, last, begins, ends, between⟩ := stands
  exact fun span member => (between.nodes span member).mono begins ends

theorem nests (stands : StandsIn all lower upper expr) : expr.Every (Expr.Nests all) := by
  obtain ⟨_, _, _, _, between⟩ := stands
  exact between.nests

end StandsIn

namespace StandInTurn

variable {exprs : List (Expr Unit)}

theorem mono_lower {lower' : Nat} (stand : StandInTurn all lower upper exprs)
    (lowerLe : lower' ≤ lower) : StandInTurn all lower' upper exprs := by
  cases exprs with
  | nil => exact Nat.le_trans lowerLe stand
  | cons first rest =>
    obtain ⟨middle, here, behind⟩ := stand
    exact ⟨middle, here.mono lowerLe (Nat.le_refl _), behind⟩

theorem mono_upper {upper' : Nat} (stand : StandInTurn all lower upper exprs)
    (upperLe : upper ≤ upper') : StandInTurn all lower upper' exprs := by
  induction exprs generalizing lower with
  | nil => exact Nat.le_trans stand upperLe
  | cons first rest ih =>
    obtain ⟨middle, here, behind⟩ := stand
    exact ⟨middle, here, ih behind⟩

theorem le (stand : StandInTurn all lower upper exprs) : lower ≤ upper := by
  induction exprs generalizing lower with
  | nil => exact stand
  | cons first rest ih =>
    obtain ⟨middle, here, behind⟩ := stand
    exact Nat.le_trans (Nat.le_of_lt here.lt) (ih behind)

theorem nests (stand : StandInTurn all lower upper exprs) :
    Expr.EveryOf (Expr.Nests all) exprs := by
  induction exprs generalizing lower with
  | nil => trivial
  | cons first rest ih =>
    obtain ⟨middle, here, behind⟩ := stand
    exact ⟨here.nests, ih behind⟩

theorem nodes (stand : StandInTurn all lower upper exprs) :
    ∀ span ∈ Expr.nodeSpansOf exprs, LiesIn span lower upper := by
  induction exprs generalizing lower with
  | nil => simp [Expr.nodeSpansOf]
  | cons first rest ih =>
    obtain ⟨middle, here, behind⟩ := stand
    refine List.forall_mem_append.mpr ⟨fun span member => ?_, fun span member => ?_⟩
    · exact (here.nodes span member).mono (Nat.le_refl _) behind.le
    · exact (ih behind span member).mono (Nat.le_of_lt here.lt) (Nat.le_refl _)

theorem span_mem_nodeSpansOf {child : Expr Unit} (member : child ∈ exprs) :
    child.span ∈ Expr.nodeSpansOf exprs := by
  induction exprs with
  | nil => cases member
  | cons first rest ih =>
    refine List.mem_append.mpr ?_
    rcases List.mem_cons.mp member with rfl | later
    · rw [child.nodeSpans_eq_cons]
      exact .inl List.mem_cons_self
    · exact .inr (ih later)

theorem ordered (stand : StandInTurn all lower upper exprs) :
    exprs.Pairwise fun first second => first.span.hi ≤ second.span.lo := by
  induction exprs generalizing lower with
  | nil => exact .nil
  | cons first rest ih =>
    obtain ⟨middle, ⟨_, _, _, ends, here⟩, behind⟩ := stand
    refine .cons (fun second member => ?_) (ih behind)
    have firstLies := here.liesIn
    have secondLies := behind.nodes second.span (span_mem_nodeSpansOf member)
    exact Nat.le_trans firstLies.upper (Nat.le_trans ends secondLies.lower)

theorem distinct (stand : StandInTurn all lower upper exprs) :
    (Expr.nodeSpansOf exprs).Pairwise fun first second => first = second → first.IsCut all := by
  induction exprs generalizing lower with
  | nil => exact .nil
  | cons first rest ih =>
    obtain ⟨middle, here, behind⟩ := stand
    have nodesHere := here.nodes
    obtain ⟨_, _, _, _, between⟩ := here
    refine List.pairwise_append.mpr ⟨between.distinct, ih behind, ?_⟩
    rintro span inFirst _ inRest rfl
    have hereLies := nodesHere span inFirst
    have behindLies := behind.nodes span inRest
    have := hereLies.nonempty
    have := hereLies.upper
    have := behindLies.lower
    omega

end StandInTurn

/-- The span of a node that is not cut off ends where its region ends. -/
theorem hi_of_not_isCut {last : Token} {span : Span} {lo : Nat} (member : last ∈ all)
    (isSpan : span = .ofBounds lo last.span.hi) (ordered : lo ≤ last.span.hi)
    (notCut : ¬ span.IsCut all) : span.hi = last.span.hi := by
  subst isSpan
  have hi := Span.hi_ofBounds ordered
  have length := Span.length_ofBounds lo last.span.hi
  rcases Nat.lt_or_ge (lo + Span.maxLength) last.span.hi with tooLong | reaches
  · refine (notCut ⟨?_, last, member, ?_⟩).elim <;> omega
  · omega

/-- A node whose children stand in turn between its outermost tokens, and each of whose nodes leaves
out one of them, nests. -/
theorem StandsBetween.of_children {first last : Token} {expr : Expr Unit}
    (firstMember : first ∈ all) (lastMember : last ∈ all)
    (nonempty : first.span.lo < last.span.hi)
    (isSpan : expr.span = .ofBounds first.span.lo last.span.hi) (leaf : expr.IsTokenOf all)
    (stand : StandInTurn all first.span.lo last.span.hi expr.children)
    (inside : ∀ span ∈ Expr.nodeSpansOf expr.children,
      first.span.lo < span.lo ∨ span.hi < last.span.hi) :
    StandsBetween all first last expr := by
  have lo : expr.span.lo = first.span.lo := by rw [isSpan, Span.lo_ofBounds]
  have hi := hi_of_not_isCut lastMember isSpan (Nat.le_of_lt nonempty)
  have contains (notCut : ¬ expr.span.IsCut all) (span : Span)
      (member : span ∈ Expr.nodeSpansOf expr.children) : expr.span.StrictlyContains span := by
    have lies := stand.nodes span member
    have hiEq := hi notCut
    refine ⟨lo ▸ lies.lower, hiEq ▸ lies.upper, ?_⟩
    rintro rfl
    rcases inside _ member with behind | before
    · omega
    · omega
  have liesIn : LiesIn expr.span first.span.lo last.span.hi := by
    have hiEq := Span.hi_ofBounds (Nat.le_of_lt nonempty)
    rw [Span.maxLength] at hiEq
    rw [isSpan]
    exact ⟨Nat.le_refl _, by rw [Span.lo_ofBounds]; omega, by omega⟩
  refine ⟨firstMember, lastMember, isSpan, ?_, Expr.every_iff.mpr ⟨stand.nests, ?_⟩⟩
  · rw [expr.nodeSpans_eq_cons]
    exact List.forall_mem_cons.mpr ⟨liesIn, stand.nodes⟩
  · refine ⟨⟨first, firstMember, lo⟩, fun notCut => ⟨last, lastMember, hi notCut⟩, leaf, ?_,
      stand.ordered, ?_⟩
    · intro notCut child member
      exact contains notCut child.span (StandInTurn.span_mem_nodeSpansOf member)
    · rw [expr.nodeSpans_eq_cons]
      refine .cons (fun span member same => ?_) stand.distinct
      by_contra notCut
      exact (contains notCut span member).more same

/-- What covers two regions, of which the second one ends later, is the region from the start of the
first one to the end of the second one. -/
theorem cover_ofBounds {lo hi lo' hi' : Nat} (first : lo ≤ hi) (second : lo' ≤ hi')
    (begins : lo ≤ lo') (ends : hi ≤ hi') :
    (Span.ofBounds lo hi).cover (.ofBounds lo' hi') = .ofBounds lo hi' := by
  apply Span.ext_bounds
  · rw [Span.lo_cover, Span.lo_ofBounds, Span.lo_ofBounds, Span.lo_ofBounds]
    omega
  · rw [Span.hi_cover, Span.hi_ofBounds first, Span.hi_ofBounds second,
      Span.hi_ofBounds (by omega), Span.lo_ofBounds, Span.lo_ofBounds]
    omega

theorem ofBounds_self (span : Span) : Span.ofBounds span.lo span.hi = span := by
  have := span.length_le
  apply Span.ext_bounds
  · rfl
  · rw [Span.hi_ofBounds span.lo_le_hi, Span.hi]
    omega

/-- An expression that begins with a token in front of all its children stands between this token
and its last one. -/
theorem standsBetween_of_behind {word last : Token} {expr : Expr Unit} (wordMember : word ∈ all)
    (lastMember : last ∈ all) (nonempty : word.span.lo < word.span.hi)
    (isSpan : expr.span = .ofBounds word.span.lo last.span.hi) (leaf : expr.IsTokenOf all)
    (stand : StandInTurn all word.span.hi last.span.hi expr.children) :
    StandsBetween all word last expr := by
  refine .of_children wordMember lastMember (Nat.lt_of_lt_of_le nonempty stand.le) isSpan leaf
    (stand.mono_lower (Nat.le_of_lt nonempty)) fun span member => .inl ?_
  exact Nat.lt_of_lt_of_le nonempty (stand.nodes span member).lower

theorem standsIn_token {token : Token} {expr : Expr Unit} (member : token ∈ all)
    (starts : lower ≤ token.span.lo) (nonempty : token.span.lo < token.span.hi)
    (isSpan : expr.span = token.span) (leaf : expr.IsTokenOf all) (none : expr.children = []) :
    StandsIn all lower token.span.hi expr := by
  refine ⟨token, token, starts, Nat.le_refl _, ?_⟩
  refine standsBetween_of_behind member member nonempty ?_ leaf ?_
  · rw [isSpan, ofBounds_self]
  · rw [none]
    exact Nat.le_refl _

/-- An operator stands between its operands and widens the span of neither. -/
theorem standsIn_binary {op : BinaryOperator} {lhs rhs : Expr Unit} {middle middle' : Nat}
    (left : StandsIn all lower middle lhs) (right : StandsIn all middle' upper rhs)
    (between : middle < middle') :
    StandsIn all lower upper (.binary op () lhs rhs (lhs.span.cover rhs.span)) := by
  obtain ⟨first, leftLast, begins, leftEnds, leftBetween⟩ := left
  obtain ⟨rightFirst, last, rightBegins, ends, rightBetween⟩ := right
  have leftNonempty := leftBetween.nonempty
  have rightNonempty := rightBetween.nonempty
  refine ⟨first, last, begins, ends, ?_⟩
  refine .of_children leftBetween.firstMember rightBetween.lastMember (by omega) ?_ trivial ?_ ?_
  · rw [Expr.span, leftBetween.span, rightBetween.span]
    exact cover_ofBounds (by omega) (by omega) (by omega) (by omega)
  · exact ⟨leftLast.span.hi, ⟨first, leftLast, Nat.le_refl _, Nat.le_refl _, leftBetween⟩,
      last.span.hi, ⟨rightFirst, last, by omega, Nat.le_refl _, rightBetween⟩, Nat.le_refl _⟩
  · -- A node of the left operand ends too early, and one of the right operand begins too late.
    refine List.forall_mem_append.mpr ⟨fun span member => .inr ?_, fun span member => .inl ?_⟩
    · have := (leftBetween.nodes span member).upper
      omega
    · rw [Expr.nodeSpansOf, Expr.nodeSpansOf, List.append_nil] at member
      have := (rightBetween.nodes span member).lower
      omega

theorem standsIn_signed {sign : Token} {op : UnaryOperator} {operand : Expr Unit}
    (member : sign ∈ all) (starts : lower ≤ sign.span.lo)
    (nonempty : sign.span.lo < sign.span.hi)
    (plain : StandsIn all sign.span.hi upper operand) :
    StandsIn all lower upper (.unary op () operand (sign.span.cover operand.span)) := by
  obtain ⟨first, last, begins, ends, between⟩ := plain
  have inner := between.nonempty
  refine ⟨sign, last, starts, ends, ?_⟩
  refine standsBetween_of_behind member between.lastMember nonempty ?_ trivial ?_
  · have covers := cover_ofBounds sign.span.lo_le_hi (Nat.le_of_lt inner)
      (Nat.le_trans sign.span.lo_le_hi begins) (by omega)
    rwa [ofBounds_self, ← between.span] at covers
  · exact ⟨last.span.hi, ⟨first, last, begins, Nat.le_refl _, between⟩, Nat.le_refl _⟩

/-- A word in front of its operands, with parentheses around them. -/
theorem standsIn_enclosed {word closing : Token} {expr : Expr Unit} (wordMember : word ∈ all)
    (starts : lower ≤ word.span.lo) (nonempty : word.span.lo < word.span.hi)
    (closingMember : closing ∈ all) (closingNonempty : closing.span.lo < closing.span.hi)
    (isSpan : expr.span = word.span.cover closing.span) (leaf : expr.IsTokenOf all)
    (stand : StandInTurn all word.span.hi closing.span.lo expr.children) :
    StandsIn all lower closing.span.hi expr := by
  have ordered := stand.le
  refine ⟨word, closing, starts, Nat.le_refl _, ?_⟩
  refine standsBetween_of_behind wordMember closingMember nonempty ?_ leaf
    (stand.mono_upper (Nat.le_of_lt closingNonempty))
  have covers := cover_ofBounds word.span.lo_le_hi closing.span.lo_le_hi
    (Nat.le_trans word.span.lo_le_hi ordered) (Nat.le_trans ordered closing.span.lo_le_hi)
  rwa [ofBounds_self, ofBounds_self, ← isSpan] at covers

mutual

theorem standsIn_of_expression {tier : Tier} {tokens : List Token} {expr : Expr Unit}
    (derived : Expression tier tokens expr) {offset : Nat}
    (among : InOrderAmong all offset tokens) :
    StandsIn all offset (endOf offset tokens) expr := by
  match derived with
  | .chain _ operand operations =>
    obtain ⟨firstAmong, othersAmong⟩ := inOrderAmong_append.mp among
    rw [endOf_append]
    exact standsIn_of_operations operations (standsIn_of_expression operand firstAmong) othersAmong
  | .primary plain => exact standsIn_of_primary plain among
  | .signed _ plain =>
    obtain ⟨member, starts, nonempty, following⟩ := inOrderAmong_cons.mp among
    exact standsIn_signed member starts nonempty (standsIn_of_primary plain following)

theorem standsIn_of_operations {tier : Tier} {lhs expr : Expr Unit} {tokens : List Token}
    (derived : Operations tier lhs tokens expr) {lower offset : Nat}
    (left : StandsIn all lower offset lhs) (among : InOrderAmong all offset tokens) :
    StandsIn all lower (endOf offset tokens) expr := by
  match derived with
  | .none => exact left
  | .more _ _ operand following =>
    obtain ⟨_, starts, nonempty, behind⟩ := inOrderAmong_cons.mp among
    obtain ⟨operandAmong, othersAmong⟩ := inOrderAmong_append.mp behind
    rw [endOf_cons, endOf_append]
    exact standsIn_of_operations following
      (standsIn_binary left (standsIn_of_expression operand operandAmong) (by omega)) othersAmong

theorem standsIn_of_primary {tokens : List Token} {expr : Expr Unit}
    (derived : Primary tokens expr) {offset : Nat} (among : InOrderAmong all offset tokens) :
    StandsIn all offset (endOf offset tokens) expr := by
  match derived with
  | .var isName =>
    obtain ⟨member, starts, nonempty, _⟩ := inOrderAmong_cons.mp among
    exact standsIn_token member starts nonempty rfl ⟨_, member, isName, rfl, rfl⟩ rfl
  | .literal isLiteral =>
    obtain ⟨member, starts, nonempty, _⟩ := inOrderAmong_cons.mp among
    exact standsIn_token member starts nonempty rfl ⟨_, member, isLiteral, rfl⟩ rfl
  | .call _ _ between _ =>
    obtain ⟨member, starts, nonempty, behind⟩ := inOrderAmong_cons.mp among
    obtain ⟨_, opens, openingNonempty, following⟩ := inOrderAmong_cons.mp behind
    obtain ⟨betweenAmong, behindOperand⟩ := inOrderAmong_append.mp following
    obtain ⟨closingMember, closes, closingNonempty, _⟩ := inOrderAmong_cons.mp behindOperand
    simp only [endOf_cons, endOf_append, endOf_nil]
    exact standsIn_enclosed member starts nonempty closingMember closingNonempty rfl trivial
      (((standInTurn_of_arguments between betweenAmong).mono_lower (by omega)).mono_upper closes)
  | .group _ between _ =>
    obtain ⟨_, starts, nonempty, following⟩ := inOrderAmong_cons.mp among
    obtain ⟨betweenAmong, behindOperand⟩ := inOrderAmong_append.mp following
    obtain ⟨_, closes, closingNonempty, _⟩ := inOrderAmong_cons.mp behindOperand
    simp only [endOf_cons, endOf_append, endOf_nil]
    exact (standsIn_of_expression between betweenAmong).mono (by omega) (by omega)
  | .cast _ _ between _ =>
    obtain ⟨member, starts, nonempty, behind⟩ := inOrderAmong_cons.mp among
    obtain ⟨_, opens, openingNonempty, following⟩ := inOrderAmong_cons.mp behind
    obtain ⟨betweenAmong, behindOperand⟩ := inOrderAmong_append.mp following
    obtain ⟨closingMember, closes, closingNonempty, _⟩ := inOrderAmong_cons.mp behindOperand
    simp only [endOf_cons, endOf_append, endOf_nil]
    exact standsIn_enclosed member starts nonempty closingMember closingNonempty rfl trivial
      ⟨_, (standsIn_of_expression between betweenAmong).mono (by omega) closes, Nat.le_refl _⟩

theorem standInTurn_of_arguments {tokens : List Token} {arguments : List (Expr Unit)}
    (derived : Arguments tokens arguments) {offset : Nat}
    (among : InOrderAmong all offset tokens) :
    StandInTurn all offset (endOf offset tokens) arguments := by
  match derived with
  | .none => exact Nat.le_refl _
  | .some listed => exact standInTurn_of_argumentList listed among

theorem standInTurn_of_argumentList {tokens : List Token} {arguments : List (Expr Unit)}
    (derived : ArgumentList tokens arguments) {offset : Nat}
    (among : InOrderAmong all offset tokens) :
    StandInTurn all offset (endOf offset tokens) arguments := by
  match derived with
  | .last first => exact ⟨_, standsIn_of_expression first among, Nat.le_refl _⟩
  | .more first _ following =>
    obtain ⟨firstAmong, behind⟩ := inOrderAmong_append.mp among
    obtain ⟨_, starts, nonempty, othersAmong⟩ := inOrderAmong_cons.mp behind
    rw [endOf_append, endOf_cons]
    exact ⟨_, (standsIn_of_expression first firstAmong).mono (Nat.le_refl _) (by omega),
      standInTurn_of_argumentList following othersAmong⟩

end

end Grammar

section Sources

variable {source : String}

end Sources

end TypedImp
