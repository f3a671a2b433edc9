import Mathlib.Data.List.Forall2
import TypedImp.Program.Outline
import TypedImp.Recorded
import TypedImp.Token.Basic
import TypedImp.Typing.Scope

/-!
# The same program at other places

Two sources can write one program with other spans.  An alignment says which spans
correspond; it respects covering, by which longer spans are made.  Syntax is the same
under an alignment if its spans correspond and everything else is equal.

`EndAlike.bind` and `Recorded.Alike.bind` carry a comparison of two computations through
their parts.
-/

namespace TypedImp

/-- Two computations fail with related errors, or succeed with related results. -/
inductive EndAlike {ε ε' α β : Type} (errors : ε → ε' → Prop) (related : α → β → Prop) :
    Except ε α → Except ε' β → Prop where
  | error {error : ε} {error' : ε'} (same : errors error error') :
      EndAlike errors related (.error error) (.error error')
  | ok {result : α} {result' : β} (same : related result result') :
      EndAlike errors related (.ok result) (.ok result')

namespace EndAlike

variable {ε ε' α β γ δ : Type} {errors : ε → ε' → Prop} {related : α → β → Prop}

theorem bind {final : γ → δ → Prop} {first : Except ε α} {second : Except ε' β}
    {next : α → Except ε γ} {next' : β → Except ε' δ} (alike : EndAlike errors related first second)
    (following : ∀ result result', related result result' →
      EndAlike errors final (next result) (next' result')) :
    EndAlike errors final (first >>= next) (second >>= next') := by
  cases alike with
  | error same => exact .error same
  | ok same => exact following _ _ same

theorem imp_error {others : ε → ε' → Prop} {first : Except ε α} {second : Except ε' β}
    (alike : EndAlike errors related first second)
    (implies : ∀ error error', errors error error' → others error error') :
    EndAlike others related first second := by
  cases alike with
  | error same => exact .error (implies _ _ same)
  | ok same => exact .ok same

theorem eq_ok_iff {first : Except ε α} {second : Except ε' α} {result : α}
    (alike : EndAlike errors Eq first second) : first = .ok result ↔ second = .ok result := by
  cases alike with
  | error => simp
  | ok same => simp [same]

end EndAlike

/-- Two computations record the same and end alike. -/
structure Recorded.Alike {ω ε ε' α β : Type} (errors : ε → ε' → Prop) (related : α → β → Prop)
    (first : Recorded ω ε α) (second : Recorded ω ε' β) : Prop where
  events : first.events = second.events
  outcome : EndAlike errors related first.outcome second.outcome

namespace Recorded.Alike

variable {ω ω' ε ε' α β γ δ : Type} {errors : ε → ε' → Prop} {related : α → β → Prop}

theorem value {result : α} {result' : β} (same : related result result') :
    Alike errors related (pure result : Recorded ω ε α) (pure result' : Recorded ω ε' β) :=
  ⟨rfl, .ok same⟩

theorem fail {error : ε} {error' : ε'} (same : errors error error') :
    Alike errors related (.fail error : Recorded ω ε α) (.fail error' : Recorded ω ε' β) :=
  ⟨rfl, .error same⟩

theorem ofExcept {first : Except ε α} {second : Except ε' β}
    (alike : EndAlike errors related first second) :
    Alike errors related (.ofExcept first : Recorded ω ε α) (.ofExcept second) :=
  ⟨rfl, alike⟩

theorem record (event : ω) :
    Alike errors Eq (.record event : Recorded ω ε Unit) (.record event : Recorded ω ε' Unit) :=
  ⟨rfl, .ok rfl⟩

theorem bind {final : γ → δ → Prop} {first : Recorded ω ε α} {second : Recorded ω ε' β}
    {next : α → Recorded ω ε γ} {next' : β → Recorded ω ε' δ}
    (alike : Alike errors related first second)
    (following : ∀ result result', related result result' →
      Alike errors final (next result) (next' result')) :
    Alike errors final (first >>= next) (second >>= next') := by
  obtain ⟨events, outcome⟩ := first
  obtain ⟨events', outcome'⟩ := second
  obtain ⟨rfl, ends⟩ := alike
  cases ends with
  | error same => exact ⟨rfl, .error same⟩
  | ok same =>
    obtain ⟨sameEvents, sameOutcome⟩ := following _ _ same
    exact ⟨congrArg (events ++ ·) sameEvents, sameOutcome⟩

theorem mapEvents {first : Recorded ω ε α} {second : Recorded ω ε' β}
    (alike : Alike errors related first second) (f : ω → ω') :
    Alike errors related (first.mapEvents f) (second.mapEvents f) :=
  ⟨congrArg (List.map f) alike.events, alike.outcome⟩

theorem mapError {φ φ' : Type} {others : φ → φ' → Prop} {first : Recorded ω ε α}
    {second : Recorded ω ε' β} (alike : Alike errors related first second) {f : ε → φ}
    {g : ε' → φ'} (implies : ∀ error error', errors error error' → others (f error) (g error')) :
    Alike others related (first.mapError f) (second.mapError g) := by
  obtain ⟨events, outcome⟩ := first
  obtain ⟨events', outcome'⟩ := second
  obtain ⟨rfl, ends⟩ := alike
  cases ends with
  | error same => exact ⟨rfl, .error (implies _ _ same)⟩
  | ok same => exact ⟨rfl, .ok same⟩

end Recorded.Alike

/-- Related definitions in the same order are found under the same names. -/
theorem Definitions.rel_get? {α β : Type} [Named α] [Named β] {related : α → β → Prop}
    {definitions : Definitions α} {definitions' : Definitions β}
    (same : List.Forall₂ related definitions.toList definitions'.toList)
    (names : ∀ first second, related first second →
      (Named.ident first).name = (Named.ident second).name) (name : String) :
    Option.Rel related (definitions.get? name) (definitions'.get? name) := by
  unfold Definitions.get?
  generalize definitions.toList = items, definitions'.toList = others at same
  induction same with
  | nil => exact .none
  | @cons first second rest rest' head following ih =>
    by_cases named : (Named.ident first).name = name
    · simpa [named, ← names first second head] using Option.Rel.some head
    · simpa [named, ← names first second head] using ih

/-- A correspondence between the spans of two sources that respects covering. -/
structure Alignment where
  spans : Span → Span → Prop
  cover {first first' second second' : Span} : spans first first' → spans second second' →
    spans (first.cover second) (first'.cover second')

namespace Alignment

/-- Every span corresponds to itself alone. -/
def identity : Alignment where
  spans := Eq
  cover := by
    rintro first _ second _ rfl rfl
    rfl

variable (alignment : Alignment) {τ : Type}

/-- Related contents at spans that correspond. -/
structure SameFound {α β : Type} (related : α → β → Prop) (first : Spanned α)
    (second : Spanned β) : Prop where
  span : alignment.spans first.span second.span
  content : related first.content second.content

/-- One token at two places. -/
inductive SameToken : Token → Token → Prop where
  | mk (kind : TokenKind) (text : String) {span span' : Span}
      (spans : alignment.spans span span') : SameToken ⟨kind, span, text⟩ ⟨kind, span', text⟩

/-- The same tokens in the same order. -/
abbrev SameTokens : List Token → List Token → Prop :=
  List.Forall₂ alignment.SameToken

/-- One name at two places. -/
inductive SameIdent : Ident → Ident → Prop where
  | mk (name : String) {span span' : Span} (spans : alignment.spans span span') :
      SameIdent ⟨name, span⟩ ⟨name, span'⟩

mutual

/-- One expression at two places. -/
inductive SameExpr : Expr τ → Expr τ → Prop where
  | literal (value : Value) {span span' : Span} (spans : alignment.spans span span') :
      SameExpr (.literal value span) (.literal value span')
  | var {name name' : Ident} {span span' : Span} (names : alignment.SameIdent name name')
      (spans : alignment.spans span span') : SameExpr (.var name span) (.var name' span')
  | binary (op : BinaryOperator) (tag : τ) {lhs lhs' rhs rhs' : Expr τ} {span span' : Span}
      (first : SameExpr lhs lhs') (second : SameExpr rhs rhs')
      (spans : alignment.spans span span') :
      SameExpr (.binary op tag lhs rhs span) (.binary op tag lhs' rhs' span')
  | unary (op : UnaryOperator) (tag : τ) {operand operand' : Expr τ} {span span' : Span}
      (inner : SameExpr operand operand') (spans : alignment.spans span span') :
      SameExpr (.unary op tag operand span) (.unary op tag operand' span')
  | call {callee callee' : Ident} {arguments arguments' : List (Expr τ)}
      {callSpan callSpan' span span' : Span} (callees : alignment.SameIdent callee callee')
      (passed : SameExprs arguments arguments') (callSpans : alignment.spans callSpan callSpan')
      (spans : alignment.spans span span') :
      SameExpr (.call callee arguments callSpan span) (.call callee' arguments' callSpan' span')

/-- The same expressions in the same order. -/
inductive SameExprs : List (Expr τ) → List (Expr τ) → Prop where
  | nil : SameExprs [] []
  | cons {first first' : Expr τ} {rest rest' : List (Expr τ)} (head : SameExpr first first')
      (following : SameExprs rest rest') : SameExprs (first :: rest) (first' :: rest')

end

mutual

/-- One statement at two places. -/
inductive SameStmt : Stmt τ → Stmt τ → Prop where
  | skip : SameStmt .skip .skip
  | block {body body' : List (Stmt τ)} (inner : SameStmts body body') :
      SameStmt (.block body) (.block body')
  | assign {target target' : Ident} {value value' : Expr τ}
      (targets : alignment.SameIdent target target')
      (values : alignment.SameExpr value value') :
      SameStmt (.assign target value) (.assign target' value')
  | conditional {test test' : Expr τ} {thenBranch thenBranch' elseBranch elseBranch' : Stmt τ}
      (tests : alignment.SameExpr test test') (chosen : SameStmt thenBranch thenBranch')
      (rejected : SameStmt elseBranch elseBranch') :
      SameStmt (.conditional test thenBranch elseBranch)
        (.conditional test' thenBranch' elseBranch')
  | loop {test test' : Expr τ} {body body' : Stmt τ} (tests : alignment.SameExpr test test')
      (inner : SameStmt body body') : SameStmt (.loop test body) (.loop test' body')
  | call {callee callee' : Ident} {arguments arguments' : List (Expr τ)} {span span' : Span}
      (callees : alignment.SameIdent callee callee')
      (passed : alignment.SameExprs arguments arguments')
      (spans : alignment.spans span span') :
      SameStmt (.call callee arguments span) (.call callee' arguments' span')
  | giveBack {value value' : Expr τ} {span span' : Span}
      (values : alignment.SameExpr value value') (spans : alignment.spans span span') :
      SameStmt (.giveBack value span) (.giveBack value' span')

/-- The same statements in the same order. -/
inductive SameStmts : List (Stmt τ) → List (Stmt τ) → Prop where
  | nil : SameStmts [] []
  | cons {first first' : Stmt τ} {rest rest' : List (Stmt τ)} (head : SameStmt first first')
      (following : SameStmts rest rest') : SameStmts (first :: rest) (first' :: rest')

end

/-- One declaration at two places. -/
structure SameDeclaration (first second : Declaration) : Prop where
  name : alignment.SameIdent first.name second.name
  ty : first.ty = second.ty

/-- The same declarations in the same order. -/
abbrev SameDeclarations (first second : Definitions Declaration) : Prop :=
  List.Forall₂ alignment.SameDeclaration first.toList second.toList

/-- Each name stands for one variable at two places, or for none. -/
def SameVariables (first second : Definitions Declaration) : Prop :=
  ∀ name, Option.Rel alignment.SameDeclaration (first.get? name) (second.get? name)

/-- One function at two places.  Its local variables may stand in another order. -/
structure SameFunction (first second : Function τ) : Prop where
  returnTy : first.returnTy = second.returnTy
  name : alignment.SameIdent first.name second.name
  params : alignment.SameDeclarations first.params second.params
  locals : alignment.SameVariables first.locals second.locals
  body : alignment.SameStmts first.body second.body

/-- Each name stands for one function at two places, or for none. -/
def SameFunctions (first second : Definitions (Function τ)) : Prop :=
  ∀ name, Option.Rel alignment.SameFunction (first.get? name) (second.get? name)

/-- Scopes in which every name stands for the same. -/
structure SameScope (first second : Scope τ) : Prop where
  types : first.types = second.types
  functions : alignment.SameFunctions first.functions second.functions

/-- Programs in which every name stands for the same. -/
structure SameNames (first second : Program τ) : Prop where
  globals : alignment.SameVariables first.globals second.globals
  functions : alignment.SameFunctions first.functions second.functions

/-- One function at two places, with its local variables in the same order. -/
structure SameListing (first second : Function τ) : Prop extends
    alignment.SameFunction first second where
  order : alignment.SameDeclarations first.locals second.locals

/-- One program at two places, with all definitions in the same order. -/
structure SameProgram (first second : Program τ) : Prop where
  globals : alignment.SameDeclarations first.globals second.globals
  functions : List.Forall₂ alignment.SameListing first.functions.toList second.functions.toList

section Syntax

variable {alignment}

theorem SameToken.kind {token token' : Token} (same : alignment.SameToken token token') :
    token.kind = token'.kind := by
  cases same
  rfl

theorem SameToken.span {token token' : Token} (same : alignment.SameToken token token') :
    alignment.spans token.span token'.span := by
  cases same
  assumption

theorem SameIdent.name {ident ident' : Ident} (same : alignment.SameIdent ident ident') :
    ident.name = ident'.name := by
  cases same
  rfl

theorem SameIdent.span {ident ident' : Ident} (same : alignment.SameIdent ident ident') :
    alignment.spans ident.span ident'.span := by
  cases same
  assumption

theorem SameExpr.span {expr expr' : Expr τ} (same : alignment.SameExpr expr expr') :
    alignment.spans expr.span expr'.span := by
  cases same <;> assumption

theorem sameVariables_of_sameDeclarations {first second : Definitions Declaration}
    (same : alignment.SameDeclarations first second) : alignment.SameVariables first second :=
  Definitions.rel_get? same fun _ _ declarations => declarations.name.name

theorem SameProgram.sameNames {first second : Program τ}
    (same : alignment.SameProgram first second) : alignment.SameNames first second where
  globals := sameVariables_of_sameDeclarations same.globals
  functions name := by
    have listed := same.functions.imp fun _ _ listing => listing.toSameFunction
    exact Definitions.rel_get? listed (fun _ _ functions => functions.name.name) name

/-- Declarations under the same names with the same types give the same type map. -/
theorem SameVariables.overlay {first second : Definitions Declaration}
    (same : alignment.SameVariables first second) (types : TypeMap) :
    types.overlay first = types.overlay second := by
  apply NameMap.ext_get?
  intro name
  rw [TypeMap.get?_overlay, TypeMap.get?_overlay]
  have found := same name
  generalize first.get? name = declaration, second.get? name = declaration' at found
  cases found with
  | none => rfl
  | some declarations => rw [Option.map_some, Option.map_some, declarations.ty]

theorem SameFunction.inFunction {first second : Function τ}
    (same : alignment.SameFunction first second) (types : TypeMap) :
    types.inFunction first = types.inFunction second := by
  unfold TypeMap.inFunction
  rw [(sameVariables_of_sameDeclarations same.params).overlay, same.locals.overlay]

/-- The type map of the global variables. -/
theorem SameNames.types {first second : Program τ} (same : alignment.SameNames first second) :
    TypeMap.ofDeclarations first.globals = TypeMap.ofDeclarations second.globals :=
  same.globals.overlay _

theorem SameNames.inFunction {first second : Program τ} (same : alignment.SameNames first second)
    {function function' : Function τ} (functions : alignment.SameFunction function function') :
    alignment.SameScope (.inFunction first function) (.inFunction second function') where
  types := by
    simp only [Scope.inFunction]
    rw [same.types, functions.inFunction]
  functions := same.functions

end Syntax

section Text

variable {alignment} [TagText τ]

mutual

theorem SameExpr.outline {expr expr' : Expr τ} (same : alignment.SameExpr expr expr') :
    expr.outline = expr'.outline := by
  match same with
  | .literal _ _ => rfl
  | .var names _ => simp only [Expr.outline, names.name]
  | .binary _ _ first second _ => simp only [Expr.outline, first.outline, second.outline]
  | .unary _ _ inner _ => simp only [Expr.outline, inner.outline]
  | .call callees passed _ _ => simp only [Expr.outline, callees.name, passed.outlines]

theorem SameExprs.outlines {exprs exprs' : List (Expr τ)}
    (same : alignment.SameExprs exprs exprs') : Expr.outlines exprs = Expr.outlines exprs' := by
  match same with
  | .nil => rfl
  | .cons head following => simp only [Expr.outlines, head.outline, following.outlines]

end

mutual

theorem SameStmt.outline {stmt stmt' : Stmt τ} (same : alignment.SameStmt stmt stmt') :
    stmt.outline = stmt'.outline := by
  match same with
  | .skip => rfl
  | .block inner => simp only [Stmt.outline, inner.outlines]
  | .assign targets values => simp only [Stmt.outline, targets.name, values.outline]
  | .conditional tests chosen rejected =>
    simp only [Stmt.outline, tests.outline, chosen.outline, rejected.outline]
  | .loop tests inner => simp only [Stmt.outline, tests.outline, inner.outline]
  | .call callees passed _ => simp only [Stmt.outline, callees.name, passed.outlines]
  | .giveBack values _ => simp only [Stmt.outline, values.outline]

theorem SameStmts.outlines {body body' : List (Stmt τ)}
    (same : alignment.SameStmts body body') : Stmt.outlines body = Stmt.outlines body' := by
  match same with
  | .nil => rfl
  | .cons head following => simp only [Stmt.outlines, head.outline, following.outlines]

end

theorem SameDeclaration.outline {first second : Declaration}
    (same : alignment.SameDeclaration first second) (word : String) :
    first.outline word = second.outline word := by
  simp only [Declaration.outline, same.name.name, same.ty]

/-- Relatives with equal images have equal lists of images. -/
theorem map_eq_of_forall₂ {α β : Type} {related : α → α → Prop} {items others : List α}
    {f : α → β} (same : List.Forall₂ related items others)
    (images : ∀ first second, related first second → f first = f second) :
    items.map f = others.map f := by
  induction same with
  | nil => rfl
  | cons head _ ih => rw [List.map_cons, List.map_cons, images _ _ head, ih]

theorem SameListing.outline {first second : Function τ}
    (same : alignment.SameListing first second) : first.outline = second.outline := by
  have params := map_eq_of_forall₂ same.params fun _ _ declarations =>
    declarations.outline "param"
  have locals := map_eq_of_forall₂ same.order fun _ _ declarations =>
    declarations.outline "local"
  simp only [Function.outline, same.returnTy, same.name.name, params, locals, same.body.outlines]

/-- The text of a program has no spans in it. -/
theorem SameProgram.text {first second : Program τ}
    (same : alignment.SameProgram first second) : first.text = second.text := by
  have globals := map_eq_of_forall₂ same.globals fun _ _ declarations =>
    declarations.outline "global"
  have functions := map_eq_of_forall₂ same.functions fun _ _ listing => listing.outline
  simp only [Program.text, Program.outline, globals, functions]

end Text

end Alignment

end TypedImp
