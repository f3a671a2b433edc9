import TypedImp.Program.Parser.Basic

/-!
# What a parser reads

A parser that succeeds gives a value and the tokens behind what it read.  `Reads` says so
without the bound on the number of these tokens, and each lemma says what a combinator
reads in terms of what its parts read.
-/

namespace TypedImp.Parser

variable {α β : Type} {limit : Nat}

/-- The parser succeeds with a value and leaves the given tokens. -/
def Reads (result : Result (Parsed limit α)) (value : α) (rest : List Token) : Prop :=
  ∃ within, result = .ok ⟨value, rest, within⟩

theorem Reads.within {result : Result (Parsed limit α)} {value : α} {rest : List Token}
    (reads : Reads result value rest) : rest.length < limit := by
  obtain ⟨within, _⟩ := reads
  exact within

@[simp]
theorem not_reads_refuse (token : Token) (error : SyntaxError) (value : α)
    (rest : List Token) :
    ¬ Reads (refuse token error : Result (Parsed limit α)) value rest := by
  simp [Reads, refuse]

@[simp]
theorem reads_ok_iff {first : Parsed limit α} {value : α} {rest : List Token} :
    Reads (.ok first) value rest ↔ first.value = value ∧ first.rest = rest := by
  obtain ⟨firstValue, firstRest, within⟩ := first
  constructor
  · rintro ⟨_, ⟨⟩⟩
    exact ⟨rfl, rfl⟩
  · rintro ⟨rfl, rfl⟩
    exact ⟨within, rfl⟩

@[simp]
theorem reads_nothing_iff {value found : α} {tokens rest : List Token} :
    Reads (nothing value tokens) found rest ↔ value = found ∧ tokens = rest :=
  reads_ok_iff

@[simp]
theorem reads_single_iff {value found : α} {token : Token} {behind rest : List Token} :
    Reads (single value token behind) found rest ↔ value = found ∧ behind = rest :=
  reads_ok_iff

@[simp]
theorem reads_after_iff {behind rest : List Token} {taken : behind.length < limit}
    {following : Result (Parsed behind.length α)} {value : α} :
    Reads (after taken following) value rest ↔ Reads following value rest := by
  cases following with
  | error error => simp [Reads, after]
  | ok last => simp [after]

@[simp]
theorem reads_afterToken_iff {token : Token} {behind rest : List Token}
    {following : Result (Parsed behind.length α)} {value : α} :
    Reads (afterToken token following) value rest ↔ Reads following value rest :=
  reads_after_iff

@[simp]
theorem reads_optional_iff {first : Result (Parsed limit α)} {value : α}
    {rest : List Token} : Reads (optional first) value rest ↔ Reads first value rest := by
  cases first with
  | error error => simp [Reads, optional]
  | ok last => simp [optional]

@[simp]
theorem reads_give_iff {first : Result (Parsed limit α)} {f : α → β} {value : β}
    {rest : List Token} :
    Reads (give first f) value rest ↔ ∃ found, Reads first found rest ∧ f found = value := by
  cases first with
  | error error => simp [Reads, give]
  | ok last =>
    simp only [give, reads_ok_iff]
    constructor
    · rintro ⟨valueEq, restEq⟩
      exact ⟨last.value, ⟨rfl, restEq⟩, valueEq⟩
    · rintro ⟨_, ⟨rfl, restEq⟩, valueEq⟩
      exact ⟨valueEq, restEq⟩

@[simp]
theorem reads_andThen_iff {first : Result (Parsed limit α)}
    {next : α → (rest : List Token) → rest.length < limit → Result (Parsed rest.length β)}
    {value : β} {rest : List Token} :
    Reads (andThen first next) value rest ↔
      ∃ found middle, ∃ within : middle.length < limit,
        Reads first found middle ∧ Reads (next found middle within) value rest := by
  cases first with
  | error error => simp [Reads, andThen]
  | ok last =>
    obtain ⟨lastValue, lastRest, within⟩ := last
    simp only [andThen, reads_after_iff, reads_ok_iff]
    constructor
    · intro reads
      exact ⟨lastValue, lastRest, within, ⟨rfl, rfl⟩, reads⟩
    · rintro ⟨_, _, _, ⟨rfl, rfl⟩, reads⟩
      exact reads

@[simp]
theorem reads_andMaybe_iff {first : Result (Parsed limit α)}
    {next : α → (rest : List Token) → rest.length < limit →
      Result (Parsed (rest.length + 1) β)}
    {value : β} {rest : List Token} :
    Reads (andMaybe first next) value rest ↔
      ∃ found middle, ∃ within : middle.length < limit,
        Reads first found middle ∧ Reads (next found middle within) value rest := by
  cases first with
  | error error => simp [Reads, andMaybe]
  | ok middle =>
    obtain ⟨middleValue, middleRest, within⟩ := middle
    have continued : Reads (andMaybe (.ok ⟨middleValue, middleRest, within⟩) next) value rest ↔
        Reads (next middleValue middleRest within) value rest := by
      cases called : next middleValue middleRest within with
      | error error => simp [Reads, andMaybe, called]
      | ok last => simp [andMaybe, called]
    rw [continued]
    simp only [reads_ok_iff]
    constructor
    · intro reads
      exact ⟨middleValue, middleRest, within, ⟨rfl, rfl⟩, reads⟩
    · rintro ⟨_, _, _, ⟨rfl, rfl⟩, reads⟩
      exact reads

/-- Taking a token succeeds exactly if one of the expected kind comes first. -/
theorem take?_cons {kind : TokenKind} {token : Token} {rest : List Token} :
    take? kind (token :: rest) =
      if token.kind = kind then some ⟨token, rest, Nat.lt_succ_self rest.length⟩ else none :=
  rfl

theorem take?_of_kind {kind : TokenKind} {token : Token} (expected : token.kind = kind)
    (rest : List Token) :
    take? kind (token :: rest) = some ⟨token, rest, Nat.lt_succ_self rest.length⟩ :=
  if_pos expected

theorem take?_eq_none_iff {kind : TokenKind} {tokens : List Token} :
    take? kind tokens = none ↔ ∀ token ∈ tokens.head?, token.kind ≠ kind := by
  cases tokens with
  | nil => simp [take?]
  | cons token rest => simp [take?_cons]

theorem eq_cons_of_take? {kind : TokenKind} {tokens rest : List Token} {token : Token}
    {within : rest.length < tokens.length}
    (found : take? kind tokens = some ⟨token, rest, within⟩) :
    tokens = token :: rest ∧ token.kind = kind := by
  cases tokens with
  | nil => simp [take?] at found
  | cons first behind =>
    rw [take?_cons] at found
    split at found
    case isTrue expected =>
      cases found
      exact ⟨rfl, expected⟩
    case isFalse => simp at found

variable (stop : Nat)

@[simp]
theorem reads_expect_iff {kind : TokenKind} {tokens rest : List Token} {token : Token} :
    Reads (expect stop kind tokens) token rest ↔ tokens = token :: rest ∧ token.kind = kind := by
  cases tokens with
  | nil => simp [expect]
  | cons first behind =>
    by_cases expected : first.kind = kind
    · simp only [expect, if_pos expected, reads_single_iff, List.cons.injEq]
      constructor
      · rintro ⟨rfl, rfl⟩
        exact ⟨⟨rfl, rfl⟩, expected⟩
      · exact And.left
    · simp only [expect, if_neg expected, not_reads_refuse, List.cons.injEq, false_iff]
      rintro ⟨⟨rfl, _⟩, kindEq⟩
      exact expected kindEq

@[simp]
theorem reads_parseIdent_iff {tokens rest : List Token} {name : Ident} :
    Reads (parseIdent stop tokens) name rest ↔
      ∃ token, tokens = token :: rest ∧ token.kind = .identifier ∧ identOf token = name := by
  simp [parseIdent, and_assoc]

@[simp]
theorem reads_parseType_iff {tokens rest : List Token} {ty : Ty} :
    Reads (parseType stop tokens) ty rest ↔
      ∃ token, tokens = token :: rest ∧ token.kind = .typeName ty := by
  cases tokens with
  | nil => simp [parseType]
  | cons first behind =>
    simp only [parseType, List.cons.injEq]
    split
    case _ found isType =>
      rw [reads_single_iff]
      constructor
      · rintro ⟨rfl, rfl⟩
        exact ⟨first, ⟨rfl, rfl⟩, isType⟩
      · rintro ⟨_, ⟨rfl, rfl⟩, kindEq⟩
        exact ⟨by simpa [isType] using kindEq, rfl⟩
    case _ noType =>
      simp only [not_reads_refuse, false_iff]
      rintro ⟨_, ⟨rfl, _⟩, kindEq⟩
      exact noType ty kindEq

end TypedImp.Parser
