import TypedImp.Program.Parser.Expression
import TypedImp.Proofs.Program.Nodes
import TypedImp.Proofs.Token.Spacing

/-!
# Writing expressions

An expression is written as words, with parentheses around the operands that hold together more
loosely than their operator.  `Written` allows more parentheses than these, around everything
and any number of them.
-/

namespace TypedImp

/-- The word that writes a literal. -/
def Value.word : Value → String
  | .char character => String.ofList ['\'', character, '\'']
  | value => value.text

namespace UnaryOperator

/-- The operators that are written as a type, with their operand in parentheses. -/
def isTypeWord : UnaryOperator → Bool
  | .intCast | .floatCast | .charCast => true
  | .not | .neg => false

/-- The word that writes an operator before its operand. -/
def word : UnaryOperator → String
  | .not => "!"
  | .neg => "-"
  | .intCast => "int"
  | .floatCast => "float"
  | .charCast => "char"

end UnaryOperator

/-- Put words in parentheses if this is asked for. -/
def grouped (inParentheses : Bool) (words : List String) : List String :=
  if inParentheses then "(" :: (words ++ [")"]) else words

namespace Expr

/-- How loosely an expression holds together: not at all as what is read as a whole, then as the
operand of a sign, then as the operators of each tier. -/
def looseness : Expr Unit → Nat
  | .binary op _ _ _ _ => Parser.tierOf op + 1
  | .unary op _ _ _ => if op.isTypeWord then 0 else 1
  | .literal _ _ | .var _ _ | .call _ _ _ _ => 0

/-- The looseness of the loosest expressions. -/
def loosest : Nat :=
  Parser.loosestTier + 1

mutual

/-- The words of an expression, with parentheses only where they are needed: around a left
operand that is looser than its operator, around a right operand that is as loose or looser, and
around the operand of a sign unless it is read as a whole. -/
def words : Expr Unit → List String
  | .literal value _ => [value.word]
  | .var name _ => [name.name]
  | .binary op _ lhs rhs _ =>
    grouped (Parser.tierOf op + 1 < lhs.looseness) lhs.words ++
      op.symbol :: grouped (Parser.tierOf op + 1 ≤ rhs.looseness) rhs.words
  | .unary op _ operand _ =>
    op.word :: grouped (op.isTypeWord || 0 < operand.looseness) operand.words
  | .call callee arguments _ _ => callee.name :: "(" :: (argumentWords arguments ++ [")"])

/-- The words of arguments with commas between them. -/
def argumentWords : List (Expr Unit) → List String
  | [] => []
  | [last] => last.words
  | first :: second :: rest => first.words ++ "," :: argumentWords (second :: rest)

end

/-- What can be written of an expression apart from its operands: integers that are not
negative, truth values, characters that a literal can hold, and identifiers. -/
def Writable : Expr Unit → Prop
  | .literal (.int number) _ => 0 ≤ number.toInt
  | .literal (.bool _) _ => True
  | .literal (.char character) _ =>
    character ≠ '\x00' ∧ character ≠ '\n' ∧ character ≠ '\''
  | .literal _ _ => False
  | .var name _ => TokenText .identifier name.name.toList
  | .call callee _ _ _ => TokenText .identifier callee.name.toList
  | .binary _ _ _ _ _ | .unary _ _ _ _ => True

mutual

/-- The expression with as much of its names as a span covers. -/
def covered : Expr Unit → Expr Unit
  | .literal value span => .literal value span
  | .var name span => .var ⟨Span.covered name.name, name.span⟩ span
  | .binary op tag lhs rhs span => .binary op tag lhs.covered rhs.covered span
  | .unary op tag operand span => .unary op tag operand.covered span
  | .call callee arguments callSpan span =>
    .call ⟨Span.covered callee.name, callee.span⟩ (coveredAll arguments) callSpan span

/-- The expressions with as much of their names as a span covers. -/
def coveredAll : List (Expr Unit) → List (Expr Unit)
  | [] => []
  | first :: rest => first.covered :: coveredAll rest

end

/-- The name in an expression, apart from those of its operands, is not too long for a span. -/
def NameFits : Expr Unit → Prop
  | .var name _ => Source.byteLength name.name.toList ≤ Span.maxLength
  | .call callee _ _ _ => Source.byteLength callee.name.toList ≤ Span.maxLength
  | .literal _ _ | .binary _ _ _ _ _ | .unary _ _ _ _ => True

mutual

theorem covered_eq_self {expr : Expr Unit} (fits : expr.Every NameFits) : expr.covered = expr := by
  match expr with
  | .literal _ _ => rfl
  | .var _ _ => rw [covered, Span.covered_eq_self fits]
  | .binary _ _ _ _ _ => rw [covered, covered_eq_self fits.1, covered_eq_self fits.2.1]
  | .unary _ _ _ _ => rw [covered, covered_eq_self fits.1]
  | .call _ _ _ _ => rw [covered, Span.covered_eq_self fits.2, coveredAll_eq_self fits.1]

theorem coveredAll_eq_self {exprs : List (Expr Unit)} (fits : EveryOf NameFits exprs) :
    coveredAll exprs = exprs := by
  match exprs with
  | [] => rfl
  | _ :: _ => rw [coveredAll, covered_eq_self fits.1, coveredAll_eq_self fits.2]

end

mutual

/-- Words write an expression in a place where it may hold together as loosely as a limit says:
in parentheses if it is looser, and with or without them if it is not.  There may be any number
of parentheses around it. -/
inductive Written : (limit : Nat) → Expr Unit → List String → Prop where
  | literal {limit : Nat} {value : Value} {span : Span} :
      Written limit (.literal value span) [value.word]
  | var {limit : Nat} {name : Ident} {span : Span} : Written limit (.var name span) [name.name]
  | binary {limit : Nat} {op : BinaryOperator} {tag : Unit} {lhs rhs : Expr Unit} {span : Span}
      {first second : List String} (fits : Parser.tierOf op + 1 ≤ limit)
      (left : Written (Parser.tierOf op + 1) lhs first)
      (right : Written (Parser.tierOf op) rhs second) :
      Written limit (.binary op tag lhs rhs span) (first ++ op.symbol :: second)
  | signed {limit : Nat} {op : UnaryOperator} {tag : Unit} {operand : Expr Unit} {span : Span}
      {words : List String} (fits : 1 ≤ limit) (isSign : op.isTypeWord = false)
      (inner : Written 0 operand words) :
      Written limit (.unary op tag operand span) (op.word :: words)
  | cast {limit : Nat} {op : UnaryOperator} {tag : Unit} {operand : Expr Unit} {span : Span}
      {words : List String} (isCast : op.isTypeWord = true)
      (inner : Written loosest operand words) :
      Written limit (.unary op tag operand span) (op.word :: "(" :: (words ++ [")"]))
  | call {limit : Nat} {callee : Ident} {arguments : List (Expr Unit)} {callSpan span : Span}
      {words : List String} (passed : WrittenAll arguments words) :
      Written limit (.call callee arguments callSpan span)
        (callee.name :: "(" :: (words ++ [")"]))
  | group {limit : Nat} {expr : Expr Unit} {words : List String}
      (inner : Written loosest expr words) : Written limit expr ("(" :: (words ++ [")"]))

/-- Words write the arguments of a call. -/
inductive WrittenAll : List (Expr Unit) → List String → Prop where
  | none : WrittenAll [] []
  | some {arguments : List (Expr Unit)} {words : List String}
      (listed : WrittenList arguments words) : WrittenAll arguments words

/-- Words write one argument or more with commas between them. -/
inductive WrittenList : List (Expr Unit) → List String → Prop where
  | last {argument : Expr Unit} {words : List String} (inner : Written loosest argument words) :
      WrittenList [argument] words
  | more {argument : Expr Unit} {arguments : List (Expr Unit)} {words others : List String}
      (inner : Written loosest argument words) (following : WrittenList arguments others) :
      WrittenList (argument :: arguments) (words ++ "," :: others)

end

theorem looseness_le (expr : Expr Unit) : expr.looseness ≤ loosest := by
  cases expr with
  | binary op =>
    rw [looseness]
    cases op <;> decide
  | unary op =>
    rw [looseness]
    cases op <;> decide
  | literal | var | call => exact Nat.zero_le _

mutual

/-- The words of an expression write it wherever it needs no parentheses. -/
theorem written_words {limit : Nat} (expr : Expr Unit) (fits : expr.looseness ≤ limit) :
    Written limit expr expr.words := by
  match expr with
  | .literal value span => exact .literal
  | .var name span => exact .var
  | .binary op tag lhs rhs span =>
    rw [words]
    exact .binary fits (written_grouped lhs fun bare => by simpa using bare)
      (written_grouped rhs fun bare => by simpa [Nat.lt_succ_iff] using bare)
  | .unary op tag operand span =>
    rw [words]
    cases isCast : op.isTypeWord with
    | true => exact .cast isCast (written_words operand operand.looseness_le)
    | false =>
      rw [looseness, isCast] at fits
      exact .signed fits isCast (written_grouped operand fun bare => by simpa using bare)
  | .call callee arguments callSpan span =>
    rw [words]
    by_cases empty : arguments = []
    · rw [empty]
      exact .call .none
    · exact .call (.some (writtenList_words arguments empty))

theorem written_grouped {limit : Nat} (expr : Expr Unit) {inParentheses : Bool}
    (fits : inParentheses = false → expr.looseness ≤ limit) :
    Written limit expr (grouped inParentheses expr.words) := by
  cases inParentheses with
  | true => exact .group (written_words expr expr.looseness_le)
  | false => exact written_words expr (fits rfl)

theorem writtenList_words (arguments : List (Expr Unit)) (nonempty : arguments ≠ []) :
    WrittenList arguments (argumentWords arguments) := by
  match arguments with
  | [] => exact absurd rfl nonempty
  | [last] =>
    rw [argumentWords]
    exact .last (written_words last last.looseness_le)
  | first :: second :: rest =>
    rw [argumentWords]
    exact .more (written_words first first.looseness_le)
      (writtenList_words (second :: rest) (List.cons_ne_nil second rest))

end

end Expr

/-- The digits of an integer literal. -/
theorem Value.toList_word_int {number : Int32} {magnitude : Nat}
    (isNumber : number.toInt = magnitude) :
    (Value.int number).word.toList = Nat.toDigits 10 magnitude := by
  change (toString number.toInt).toList = _
  rw [isNumber]
  exact Nat.toList_repr

theorem Value.toList_word_char (character : Char) :
    (Value.char character).word.toList = ['\'', character, '\''] :=
  String.toList_ofList

theorem tokenText_toDigits (number : Nat) : TokenText .intLiteral (Nat.toDigits 10 number) :=
  .intLiteral Nat.toDigits_ne_nil fun _ inDigits =>
    Nat.isDigit_of_mem_toDigits (by decide) (by decide) inDigits

/-- Each operator has a kind of its own. -/
theorem BinaryOperator.exists_spelling (op : BinaryOperator) :
    ∃ kind : TokenKind, op.symbol ∈ kind.spellings ∧ Parser.binaryOperator? kind = some op := by
  cases op with
  | or => exact ⟨.or, by decide, rfl⟩
  | and => exact ⟨.and, by decide, rfl⟩
  | eq => exact ⟨.eqEq, by decide, rfl⟩
  | ne => exact ⟨.notEq, by decide, rfl⟩
  | lt => exact ⟨.less, by decide, rfl⟩
  | le => exact ⟨.lessEq, by decide, rfl⟩
  | gt => exact ⟨.greater, by decide, rfl⟩
  | ge => exact ⟨.greaterEq, by decide, rfl⟩
  | add => exact ⟨.plus, by decide, rfl⟩
  | sub => exact ⟨.minus, by decide, rfl⟩
  | mul => exact ⟨.star, by decide, rfl⟩
  | div => exact ⟨.slash, by decide, rfl⟩

namespace Expr

/-- A word is a token text. -/
def IsTokenWord (word : String) : Prop :=
  ∃ kind, TokenText kind word.toList

theorem isTokenWord_of_spelling {word : String} (kind : TokenKind)
    (spelling : word ∈ kind.spellings) : IsTokenWord word :=
  ⟨kind, .spelled (by rwa [String.ofList_toList])⟩

theorem isTokenWord_symbol (op : BinaryOperator) : IsTokenWord op.symbol := by
  obtain ⟨kind, spelling, _⟩ := op.exists_spelling
  exact isTokenWord_of_spelling kind spelling

theorem isTokenWord_unary (op : UnaryOperator) : IsTokenWord op.word := by
  cases op with
  | not => exact isTokenWord_of_spelling .not (by decide)
  | neg => exact isTokenWord_of_spelling .minus (by decide)
  | intCast => exact isTokenWord_of_spelling (.typeName .int) (by decide)
  | floatCast => exact isTokenWord_of_spelling (.typeName .float) (by decide)
  | charCast => exact isTokenWord_of_spelling (.typeName .char) (by decide)

theorem isTokenWord_literal {value : Value} {span : Span}
    (writable : (literal value span).Writable) : IsTokenWord value.word := by
  cases value with
  | int number =>
    obtain ⟨magnitude, isNumber⟩ := Int.eq_ofNat_of_zero_le (writable : 0 ≤ number.toInt)
    exact ⟨.intLiteral, Value.toList_word_int isNumber ▸ tokenText_toDigits magnitude⟩
  | bool truth =>
    cases truth with
    | true => exact isTokenWord_of_spelling .trueWord (by decide)
    | false => exact isTokenWord_of_spelling .falseWord (by decide)
  | char character =>
    obtain ⟨notNull, notNewline, notQuote⟩ := writable
    refine ⟨.charLiteral, ?_⟩
    rw [Value.toList_word_char]
    exact .charLiteral notQuote notNewline notNull
  | float | undefined => exact absurd writable id

/-- Words in parentheses are token texts if they are. -/
theorem isTokenWord_group {words : List String} (areWords : ∀ word ∈ words, IsTokenWord word) :
    ∀ word ∈ "(" :: (words ++ [")"]), IsTokenWord word :=
  List.forall_mem_cons.mpr ⟨isTokenWord_of_spelling .leftParen (by decide),
    List.forall_mem_append.mpr ⟨areWords,
      List.forall_mem_singleton.mpr (isTokenWord_of_spelling .rightParen (by decide))⟩⟩

mutual

/-- What writes an expression are token texts. -/
theorem isTokenWord_of_written {limit : Nat} {expr : Expr Unit} {words : List String}
    (written : Written limit expr words) (writable : expr.Every Writable) :
    ∀ word ∈ words, IsTokenWord word := by
  match written with
  | .literal => exact List.forall_mem_singleton.mpr (isTokenWord_literal writable)
  | .var => exact List.forall_mem_singleton.mpr ⟨.identifier, writable⟩
  | @Written.binary _ op _ _ _ _ _ _ _ left right =>
    exact List.forall_mem_append.mpr ⟨isTokenWord_of_written left writable.1,
      List.forall_mem_cons.mpr
        ⟨isTokenWord_symbol op, isTokenWord_of_written right writable.2.1⟩⟩
  | @Written.signed _ op _ _ _ _ _ _ inner =>
    exact List.forall_mem_cons.mpr
      ⟨isTokenWord_unary op, isTokenWord_of_written inner writable.1⟩
  | @Written.cast _ op _ _ _ _ _ inner =>
    exact List.forall_mem_cons.mpr
      ⟨isTokenWord_unary op, isTokenWord_group (isTokenWord_of_written inner writable.1)⟩
  | .call passed =>
    exact List.forall_mem_cons.mpr ⟨⟨.identifier, writable.2⟩,
      isTokenWord_group (isTokenWord_of_writtenAll passed writable.1)⟩
  | .group inner => exact isTokenWord_group (isTokenWord_of_written inner writable)

theorem isTokenWord_of_writtenAll {arguments : List (Expr Unit)} {words : List String}
    (written : WrittenAll arguments words) (writable : EveryOf Writable arguments) :
    ∀ word ∈ words, IsTokenWord word := by
  match written with
  | .none => exact nofun
  | .some listed => exact isTokenWord_of_writtenList listed writable

theorem isTokenWord_of_writtenList {arguments : List (Expr Unit)} {words : List String}
    (written : WrittenList arguments words) (writable : EveryOf Writable arguments) :
    ∀ word ∈ words, IsTokenWord word := by
  match written with
  | .last inner => exact isTokenWord_of_written inner writable.1
  | .more inner following =>
    exact List.forall_mem_append.mpr ⟨isTokenWord_of_written inner writable.1,
      List.forall_mem_cons.mpr ⟨isTokenWord_of_spelling .comma (by decide),
        isTokenWord_of_writtenList following writable.2⟩⟩

end

end Expr

end TypedImp
