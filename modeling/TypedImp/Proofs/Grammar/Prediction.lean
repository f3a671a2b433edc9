import TypedImp.Proofs.Grammar.Reader

/-!
# Prediction

A reader follows a rule by looking at one token at a time.  What it reads is written by the rule,
and where it refuses a token, what it took can be continued to something that the rule writes.
Neither depends on anything behind the token that it saw last.

The rules of `Predicts` put this together along the construction of a reader.
-/

namespace TypedImp

/-- The errors for a token that cannot come next.  The other ones are for definitions and literals
that the language does not allow. -/
def SyntaxError.isRefusal : SyntaxError → Bool
  | .unexpected _ _ | .unexpectedInExpression _ | .unexpectedInStatement _ | .expectedType _
  | .invalidCast _ => true
  | .lexical _ | .duplicateDeclaration _ _ | .duplicateFunction _ _ | .voidVariable _
  | .intOutOfRange => false

namespace Grammar

open TypedImp.Parser

variable {α β : Type}

/-- On some tokens a reader follows a rule.  `read` is the reader for each offset of the end of the
source, which stands for the token behind the last one.  What is read or refused is the same for all
tokens that begin with those that were taken and the one behind them. -/
structure Predicts (stop : Nat) (rule : List Token → Prop) (read : Nat → Reader α)
    (tokens : List Token) : Prop where
  reads : ∀ value rest, read stop tokens = .ok (value, rest) →
    ∃ taken, tokens = taken ++ rest ∧ rule taken ∧
      ∀ stop' others, others.head? = rest.head? →
        read stop' (taken ++ others) = .ok (value, others)
  refuses : ∀ error, read stop tokens = .error error → error.content.isRefusal = true →
    ∃ taken rest, tokens = taken ++ rest ∧ error.span = (rest.headD (.endAt stop)).span ∧
      (∃ more, rule (taken ++ more)) ∧
      ∀ stop' others, others.head? = rest.head? → (rest = [] → stop' = stop) →
        read stop' (taken ++ others) = .error error

/-- One token of a kind. -/
def IsToken (kind : TokenKind) (tokens : List Token) : Prop :=
  ∃ token, tokens = [token] ∧ token.kind = kind

/-- What a rule writes, and a token of a kind behind it. -/
def UpTo (kind : TokenKind) (rule : List Token → Prop) (tokens : List Token) : Prop :=
  ∃ front token, tokens = front ++ [token] ∧ rule front ∧ token.kind = kind

/-- A token of a kind, and what a rule writes behind it. -/
def Behind (kind : TokenKind) (rule : List Token → Prop) (tokens : List Token) : Prop :=
  ∃ token behind, tokens = token :: behind ∧ token.kind = kind ∧ rule behind

/-- What one rule writes, and what another one writes behind it. -/
def Joined (first second : List Token → Prop) (tokens : List Token) : Prop :=
  ∃ front behind, tokens = front ++ behind ∧ first front ∧ second behind

theorem isToken_mk (kind : TokenKind) : IsToken kind [⟨kind, default, ""⟩] :=
  ⟨_, rfl, rfl⟩

section Joining

variable {rule first second : List Token → Prop} {kind : TokenKind} {front behind : List Token}

theorem upTo_append (written : rule front) (closes : IsToken kind behind) :
    UpTo kind rule (front ++ behind) := by
  obtain ⟨token, rfl, isKind⟩ := closes
  exact ⟨front, token, rfl, written, isKind⟩

theorem behind_append (opens : IsToken kind front) (written : rule behind) :
    Behind kind rule (front ++ behind) := by
  obtain ⟨token, rfl, isKind⟩ := opens
  exact ⟨token, behind, rfl, isKind, written⟩

theorem behind_cons {token : Token} (isKind : token.kind = kind) (written : rule behind) :
    Behind kind rule (token :: behind) :=
  ⟨token, behind, rfl, isKind, written⟩

theorem joined_append (written : first front) (following : second behind) :
    Joined first second (front ++ behind) :=
  ⟨front, behind, rfl, written, following⟩

theorem upTo_mono (implies : ∀ front, first front → second front)
    (written : UpTo kind first front) : UpTo kind second front := by
  obtain ⟨front, token, rfl, written, isKind⟩ := written
  exact ⟨front, token, rfl, implies front written, isKind⟩

end Joining

theorem exists_upTo {rule : List Token → Prop} (kind : TokenKind)
    (possible : ∃ tokens, rule tokens) : ∃ tokens, UpTo kind rule tokens := by
  obtain ⟨front, written⟩ := possible
  exact ⟨_, front, ⟨kind, default, ""⟩, rfl, written, rfl⟩

theorem exists_behind {rule : List Token → Prop} (kind : TokenKind)
    (possible : ∃ tokens, rule tokens) : ∃ tokens, Behind kind rule tokens := by
  obtain ⟨behind, written⟩ := possible
  exact ⟨_, ⟨kind, default, ""⟩, behind, rfl, rfl, written⟩

theorem exists_joined {first second : List Token → Prop} (firstPossible : ∃ tokens, first tokens)
    (secondPossible : ∃ tokens, second tokens) : ∃ tokens, Joined first second tokens := by
  obtain ⟨front, frontWritten⟩ := firstPossible
  obtain ⟨behind, behindWritten⟩ := secondPossible
  exact ⟨_, front, behind, rfl, frontWritten, behindWritten⟩

/-- One name of a type. -/
def IsTypeWord (tokens : List Token) : Prop :=
  ∃ token ty, tokens = [token] ∧ token.kind = .typeName ty

theorem isTypeWord_mk (ty : Ty) : IsTypeWord [⟨.typeName ty, default, ""⟩] :=
  ⟨_, ty, rfl, rfl⟩

/-- A token of a kind comes first, or it does not. -/
theorem head_cases (kind : TokenKind) (tokens : List Token) :
    (∀ token ∈ tokens.head?, token.kind ≠ kind) ∨
      ∃ token rest, tokens = token :: rest ∧ token.kind = kind := by
  cases tokens with
  | nil => exact .inl nofun
  | cons token rest =>
    by_cases isKind : token.kind = kind
    · exact .inr ⟨token, rest, rfl, isKind⟩
    · refine .inl fun first isFirst => ?_
      cases isFirst
      exact isKind

/-- The end of a source is a token of the same kind everywhere. -/
theorem kind_headD_congr {tokens others : List Token} (same : others.head? = tokens.head?)
    (stop stop' : Nat) :
    (others.headD (.endAt stop)).kind = (tokens.headD (.endAt stop')).kind := by
  rw [List.headD_eq_head?_getD, List.headD_eq_head?_getD, same]
  cases tokens.head? <;> rfl

theorem head?_append_congr {rest others : List Token} (same : others.head? = rest.head?)
    (taken : List Token) : (taken ++ others).head? = (taken ++ rest).head? := by
  rw [List.head?_append, List.head?_append, same]

theorem Predicts.length_le {stop : Nat} {rule : List Token → Prop} {read : Nat → Reader α}
    {tokens rest : List Token} {value : α} (predicts : Predicts stop rule read tokens)
    (done : read stop tokens = .ok (value, rest)) : rest.length ≤ tokens.length := by
  obtain ⟨taken, rfl, _⟩ := predicts.reads value rest done
  rw [List.length_append]
  exact Nat.le_add_left ..

section Rules

variable {stop : Nat} {rule first second : List Token → Prop} {read : Nat → Reader α}
  {tokens : List Token}

theorem Predicts.mono (predicts : Predicts stop first read tokens)
    (implies : ∀ taken, first taken → rule taken) : Predicts stop rule read tokens where
  reads value rest done := by
    obtain ⟨taken, split, written, again⟩ := predicts.reads value rest done
    exact ⟨taken, split, implies taken written, again⟩
  refuses error failed isRefusal := by
    obtain ⟨taken, rest, split, span, ⟨more, written⟩, again⟩ :=
      predicts.refuses error failed isRefusal
    exact ⟨taken, rest, split, span, ⟨more, implies _ written⟩, again⟩

/-- Readers that are equal where the same token comes next follow the same rule. -/
theorem Predicts.congr {read' : Nat → Reader α} (predicts : Predicts stop rule read' tokens)
    (same : ∀ stop' others, others.head? = tokens.head? →
      read stop' others = read' stop' others) : Predicts stop rule read tokens where
  reads value rest done := by
    rw [same stop tokens rfl] at done
    obtain ⟨taken, rfl, written, again⟩ := predicts.reads value rest done
    refine ⟨taken, rfl, written, fun stop' others next => ?_⟩
    rw [same stop' _ (head?_append_congr next taken), again stop' others next]
  refuses error failed isRefusal := by
    rw [same stop tokens rfl] at failed
    obtain ⟨taken, rest, rfl, span, viable, again⟩ := predicts.refuses error failed isRefusal
    refine ⟨taken, rest, rfl, span, viable, fun stop' others next atEnd => ?_⟩
    rw [same stop' _ (head?_append_congr next taken), again stop' others next atEnd]

/-- What is read behind a token. -/
theorem Predicts.behind {read' : Nat → Reader α} {token : Token} {rest : List Token}
    (predicts : Predicts stop second read' rest)
    (same : ∀ stop' others, read stop' (token :: others) = read' stop' others)
    (joins : ∀ taken, second taken → rule (token :: taken)) :
    Predicts stop rule read (token :: rest) where
  reads value left done := by
    rw [same] at done
    obtain ⟨taken, rfl, written, again⟩ := predicts.reads value left done
    refine ⟨token :: taken, rfl, joins taken written, fun stop' others next => ?_⟩
    rw [List.cons_append, same, again stop' others next]
  refuses error failed isRefusal := by
    rw [same] at failed
    obtain ⟨taken, left, rfl, span, ⟨more, written⟩, again⟩ :=
      predicts.refuses error failed isRefusal
    refine ⟨token :: taken, left, rfl, span, ⟨more, joins _ written⟩,
      fun stop' others next atEnd => ?_⟩
    rw [List.cons_append, same, again stop' others next atEnd]

/-- At the end only what is read there counts. -/
theorem Predicts.congr_nil {read' : Nat → Reader α} (predicts : Predicts stop rule read' [])
    (same : ∀ stop', read stop' [] = read' stop' []) : Predicts stop rule read [] :=
  predicts.congr fun stop' others next => by
    rw [List.head?_eq_none_iff.mp next]
    exact same stop'

/-- In front of a token only what is read there counts. -/
theorem Predicts.congr_cons {read' : Nat → Reader α} {token : Token} {rest : List Token}
    (predicts : Predicts stop rule read' (token :: rest))
    (same : ∀ stop' others, read stop' (token :: others) = read' stop' (token :: others)) :
    Predicts stop rule read (token :: rest) :=
  predicts.congr fun stop' others next => by
    obtain ⟨behind, rfl⟩ := List.head?_eq_some_iff.mp next
    exact same stop' behind

/-- A reader that takes nothing. -/
theorem predicts_pure (value : α) (empty : rule []) :
    Predicts stop rule (fun _ => pure value) tokens where
  reads found rest done := by
    rw [Reader.pure_apply] at done
    cases done
    exact ⟨[], rfl, empty, fun _ _ _ => rfl⟩
  refuses error failed := by
    rw [Reader.pure_apply] at failed
    cases failed

/-- A reader that takes one token. -/
theorem predicts_single {value : α} {token : Token} {rest : List Token}
    (same : ∀ stop' others, read stop' (token :: others) = .ok (value, others))
    (written : rule [token]) : Predicts stop rule read (token :: rest) :=
  (predicts_pure value rfl : Predicts stop (· = []) (fun _ => pure value) rest).behind same
    (by rintro _ rfl; exact written)

/-- A reader that refuses the next token. -/
theorem predicts_refusal (content : SyntaxError) (possible : ∃ more, rule more) :
    Predicts stop rule (fun stop => (.refusal stop content : Reader α)) tokens where
  reads value rest done := by
    cases done
  refuses error failed _ := by
    cases failed
    refine ⟨[], tokens, rfl, rfl, possible, fun stop' others next atEnd => ?_⟩
    rw [List.nil_append, Reader.refusal]
    cases tokens with
    | nil => rw [List.head?_eq_none_iff.mp next, atEnd rfl]
    | cons token rest =>
      obtain ⟨behind, rfl⟩ := List.head?_eq_some_iff.mp next
      rfl

/-- A reader that fails for another reason. -/
theorem predicts_failure {error : Spanned SyntaxError} (fails : read stop tokens = .error error)
    (isOther : error.content.isRefusal = false) : Predicts stop rule read tokens where
  reads value rest done := by
    rw [fails] at done
    cases done
  refuses error' failed isRefusal := by
    rw [fails] at failed
    cases failed
    rw [isOther] at isRefusal
    cases isRefusal

theorem Predicts.map (predicts : Predicts stop rule read tokens) (f : α → β) :
    Predicts stop rule (fun stop => f <$> read stop) tokens where
  reads value rest done := by
    rw [Reader.map_apply] at done
    split at done
    · cases done
    case _ found left succeeds =>
      cases done
      obtain ⟨taken, split, written, again⟩ := predicts.reads found rest succeeds
      refine ⟨taken, split, written, fun stop' others next => ?_⟩
      rw [Reader.map_apply, again stop' others next]
  refuses error failed isRefusal := by
    rw [Reader.map_apply] at failed
    split at failed
    case _ _ fails =>
      cases failed
      obtain ⟨taken, rest, split, span, viable, again⟩ := predicts.refuses error fails isRefusal
      refine ⟨taken, rest, split, span, viable, fun stop' others next atEnd => ?_⟩
      rw [Reader.map_apply, again stop' others next atEnd]
    · cases failed

/-- What is read in two parts is written in two parts. -/
theorem Predicts.bind {next : Nat → α → Reader β} (predicts : Predicts stop first read tokens)
    (second : List Token → Prop)
    (following : ∀ value rest, read stop tokens = .ok (value, rest) →
      Predicts stop second (fun stop => next stop value) rest)
    (possible : ∃ more, second more)
    (joins : ∀ front behind, first front → second behind → rule (front ++ behind)) :
    Predicts stop rule (fun stop => read stop >>= next stop) tokens where
  reads value rest done := by
    rw [Reader.bind_apply] at done
    split at done
    · cases done
    case _ found left succeeds =>
      obtain ⟨front, rfl, frontWritten, frontAgain⟩ := predicts.reads found left succeeds
      obtain ⟨behind, rfl, behindWritten, behindAgain⟩ :=
        (following found left succeeds).reads value rest done
      refine ⟨front ++ behind, (List.append_assoc ..).symm, joins _ _ frontWritten behindWritten,
        fun stop' others same => ?_⟩
      rw [Reader.bind_apply, List.append_assoc,
        frontAgain stop' _ (head?_append_congr same behind)]
      exact behindAgain stop' others same
  refuses error failed isRefusal := by
    rw [Reader.bind_apply] at failed
    split at failed
    case _ _ fails =>
      cases failed
      obtain ⟨taken, rest, split, span, ⟨more, written⟩, again⟩ :=
        predicts.refuses error fails isRefusal
      obtain ⟨last, lastWritten⟩ := possible
      refine ⟨taken, rest, split, span, ⟨more ++ last, ?_⟩, fun stop' others same atEnd => ?_⟩
      · rw [← List.append_assoc]
        exact joins _ _ written lastWritten
      · rw [Reader.bind_apply, again stop' others same atEnd]
    case _ found left succeeds =>
      obtain ⟨front, rfl, frontWritten, frontAgain⟩ := predicts.reads found left succeeds
      obtain ⟨behind, rest, rfl, span, ⟨more, behindWritten⟩, behindAgain⟩ :=
        (following found left succeeds).refuses error failed isRefusal
      refine ⟨front ++ behind, rest, (List.append_assoc ..).symm, span, ⟨more, ?_⟩,
        fun stop' others same atEnd => ?_⟩
      · rw [List.append_assoc]
        exact joins _ _ frontWritten behindWritten
      · rw [Reader.bind_apply, List.append_assoc,
          frontAgain stop' _ (head?_append_congr same behind)]
        exact behindAgain stop' others same atEnd

/-- An outcome that refuses no token is taken over without a trace. -/
theorem predicts_settled_bind {outcome : Except (Spanned SyntaxError) α} {next : Nat → α → Reader β}
    (isOther : ∀ error, outcome = .error error → error.content.isRefusal = false)
    (following : ∀ value, Predicts stop rule (fun stop => next stop value) tokens) :
    Predicts stop rule (fun stop => .settled outcome >>= next stop) tokens := by
  cases outcome with
  | ok value => exact (following value).congr fun _ _ _ => Reader.bind_apply ..
  | error error => exact predicts_failure (Reader.bind_apply ..) (isOther error rfl)

theorem Predicts.ifNext {taken otherwise : Nat → Reader α} (kind : TokenKind)
    (second : List Token → Prop) (here : ∀ token rest, tokens = token :: rest → token.kind = kind →
      Predicts stop second taken rest)
    (elsewhere : (∀ token ∈ tokens.head?, token.kind ≠ kind) →
      Predicts stop rule otherwise tokens)
    (joins : ∀ token behind, token.kind = kind → second behind → rule (token :: behind)) :
    Predicts stop rule (fun stop => .ifNext kind (taken stop) (otherwise stop)) tokens := by
  rcases head_cases kind tokens with notKind | ⟨token, rest, rfl, isKind⟩
  · exact (elsewhere notKind).congr fun stop' others same =>
      Reader.ifNext_of_head (by rwa [same])
  · exact (here token rest rfl isKind).behind (fun _ _ => Reader.ifNext_of_kind isKind _)
      fun behind written => joins token behind isKind written

theorem predicts_expect (kind : TokenKind) (tokens : List Token) :
    Predicts stop (IsToken kind) (fun stop => reader (expect stop kind)) tokens := by
  rcases head_cases kind tokens with notKind | ⟨token, rest, rfl, isKind⟩
  · refine (predicts_refusal (.unexpected (tokens.headD (.endAt stop)).kind kind)
      ⟨_, isToken_mk kind⟩).congr fun stop' others same => ?_
    rw [reader_expect_of_head stop' (by rwa [same]), kind_headD_congr same stop' stop]
  · exact predicts_single (fun stop' _ => reader_expect_of_kind stop' isKind _)
      ⟨token, rfl, isKind⟩

theorem predicts_ident (tokens : List Token) :
    Predicts stop (IsToken .identifier) (fun stop => reader (parseIdent stop)) tokens :=
  ((predicts_expect .identifier tokens).map identOf).congr fun stop' _ _ =>
    congrFun (reader_ident stop') _

/-- What is read behind an identifier. -/
theorem predicts_named {next : Nat → Ident → Reader β} {tokens : List Token}
    (following : ∀ name rest, rest.length < tokens.length →
      Predicts stop second (fun stop => next stop name) rest)
    (possible : ∃ more, second more) :
    Predicts stop (Behind .identifier second) (fun stop => reader (parseIdent stop) >>= next stop)
      tokens := by
  refine (predicts_ident tokens).bind second (fun name rest read => ?_) possible
    fun _ _ => behind_append
  exact following name rest (length_lt_of_reader read)

theorem predicts_type (tokens : List Token) :
    Predicts stop IsTypeWord (fun stop => reader (parseType stop)) tokens := by
  by_cases noType : ∀ token ∈ tokens.head?, ∀ ty, token.kind ≠ .typeName ty
  · refine (predicts_refusal (.expectedType (tokens.headD (.endAt stop)).kind)
      ⟨_, isTypeWord_mk .int⟩).congr fun stop' others same => ?_
    rw [reader_type_of_head stop' (by rwa [same]), kind_headD_congr same stop' stop]
  · obtain ⟨token, isFirst, ty, isType⟩ :
        ∃ token ∈ tokens.head?, ∃ ty, token.kind = .typeName ty := by
      simpa using noType
    obtain ⟨rest, rfl⟩ := List.head?_eq_some_iff.mp isFirst
    exact predicts_single (fun stop' _ => reader_type_of_kind stop' isType _)
      ⟨token, ty, rfl, isType⟩

end Rules

end Grammar

end TypedImp
