import TypedImp.Program.Basic
import TypedImp.Program.SyntaxError

/-!
# Reading from a list of tokens

A parser takes tokens from the front of a list and gives what it read together with the
tokens behind it.  The result carries a bound on their number, by which parsers that
call each other end.  The end of the source is not in the list; `stop` is its offset.
-/

namespace TypedImp.Parser

/-- What was read, and the fewer than `limit` tokens behind it. -/
structure Parsed (limit : Nat) (α : Type) where
  value : α
  rest : List Token
  within : rest.length < limit

/-- What a parser gives. -/
abbrev Result (α : Type) :=
  Except (Spanned SyntaxError) α

section Combinators

variable {α β : Type} {limit : Nat}

/-- Refuse a token. -/
def refuse (token : Token) (error : SyntaxError) : Result α :=
  .error ⟨token.span, error⟩

/-- Give a value and take nothing. -/
def nothing (value : α) (tokens : List Token) : Result (Parsed (tokens.length + 1) α) :=
  .ok ⟨value, tokens, Nat.lt_succ_self tokens.length⟩

/-- Give a value and take one token. -/
def single (value : α) (token : Token) (rest : List Token) :
    Result (Parsed (token :: rest).length α) :=
  .ok ⟨value, rest, Nat.lt_succ_self rest.length⟩

/-- Go on behind tokens that have been taken. -/
def after {rest : List Token} (taken : rest.length < limit)
    (following : Result (Parsed rest.length α)) : Result (Parsed limit α) :=
  match following with
  | .error error => .error error
  | .ok ⟨value, rest, within⟩ => .ok ⟨value, rest, Nat.lt_trans within taken⟩

/-- Go on behind one token. -/
def afterToken (token : Token) {rest : List Token}
    (following : Result (Parsed rest.length α)) : Result (Parsed (token :: rest).length α) :=
  after (Nat.lt_succ_self rest.length) following

/-- Allow that nothing is taken. -/
def optional (first : Result (Parsed limit α)) : Result (Parsed (limit + 1) α) :=
  match first with
  | .error error => .error error
  | .ok ⟨value, rest, within⟩ => .ok ⟨value, rest, Nat.lt_succ_of_lt within⟩

/-- Change what was read. -/
def give (first : Result (Parsed limit α)) (f : α → β) : Result (Parsed limit β) :=
  match first with
  | .error error => .error error
  | .ok ⟨value, rest, within⟩ => .ok ⟨f value, rest, within⟩

/-- Read something behind what was read first. -/
def andThen (first : Result (Parsed limit α))
    (next : α → (rest : List Token) → rest.length < limit → Result (Parsed rest.length β)) :
    Result (Parsed limit β) :=
  match first with
  | .error error => .error error
  | .ok ⟨value, rest, within⟩ => after within (next value rest within)

/-- Read something or nothing behind what was read first. -/
def andMaybe (first : Result (Parsed limit α))
    (next : α → (rest : List Token) → rest.length < limit →
      Result (Parsed (rest.length + 1) β)) :
    Result (Parsed limit β) :=
  match first with
  | .error error => .error error
  | .ok ⟨value, rest, within⟩ =>
    match next value rest within with
    | .error error => .error error
    | .ok ⟨value, behind, notLonger⟩ =>
      .ok ⟨value, behind, Nat.lt_of_le_of_lt (Nat.le_of_lt_succ notLonger) within⟩

/-- What a parser reads behind another one is read from the tokens that it left. -/
theorem andThen_eq_ok_iff {first : Result (Parsed limit α)}
    {next : α → (rest : List Token) → rest.length < limit → Result (Parsed rest.length β)}
    {result : Parsed limit β} :
    andThen first next = .ok result ↔
      ∃ middle, first = .ok middle ∧
        ∃ last, next middle.value middle.rest middle.within = .ok last ∧
          last.value = result.value ∧ last.rest = result.rest := by
  cases first with
  | error error => simp [andThen]
  | ok middle =>
    obtain ⟨value, rest, within⟩ := middle
    obtain ⟨final, behind, bound⟩ := result
    cases called : next value rest within with
    | error error => simp [andThen, after, called]
    | ok last =>
      obtain ⟨lastValue, lastRest, lastBound⟩ := last
      simp [andThen, after, called]

end Combinators

/-- Take the first token if it is of the expected kind. -/
def take? (expected : TokenKind) : (tokens : List Token) → Option (Parsed tokens.length Token)
  | [] => none
  | token :: rest =>
    if token.kind = expected then some ⟨token, rest, Nat.lt_succ_self rest.length⟩ else none

variable (stop : Nat)

/-- Take the first token, which has to be of the expected kind. -/
def expect (expected : TokenKind) : (tokens : List Token) → Result (Parsed tokens.length Token)
  | [] => refuse (Token.endAt stop) (.unexpected .endOfInput expected)
  | token :: rest =>
    if token.kind = expected then
      single token token rest
    else
      refuse token (.unexpected token.kind expected)

/-- The name that an identifier token writes. -/
def identOf (token : Token) : Ident :=
  ⟨token.text, token.span⟩

/-- Take an identifier. -/
def parseIdent (tokens : List Token) : Result (Parsed tokens.length Ident) :=
  give (expect stop .identifier tokens) identOf

/-- Take the name of a type. -/
def parseType : (tokens : List Token) → Result (Parsed tokens.length Ty)
  | [] => refuse (Token.endAt stop) (.expectedType .endOfInput)
  | token :: rest =>
    match token.kind with
    | .typeName ty => single ty token rest
    | kind => refuse token (.expectedType kind)

end TypedImp.Parser
