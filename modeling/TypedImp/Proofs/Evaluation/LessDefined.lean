import TypedImp.Proofs.Evaluation.Frames
import TypedImp.Proofs.Evaluation.Lockstep

/-!
# Less defined machines

A run on variables without content does what a run on defined ones does, until it reads
one of them and fails.  The second run may also have more frames below, so that it is the
first one to overflow.  With this the run that starts a program is compared with every
later call of its main function.
-/

namespace TypedImp

/-- The same value, or no content. -/
def Value.LessDefined (first second : Value) : Prop :=
  first = second ∨ ∃ ty, first = .undefined ty

theorem Value.LessDefined.refl (value : Value) : value.LessDefined value :=
  .inl rfl

/-- The same names, with less defined values. -/
def State.LessDefined (first second : State) : Prop :=
  ∀ name, Option.Rel Value.LessDefined (first.get? name) (second.get? name)

namespace State.LessDefined

variable {first second : State}

theorem refl (state : State) : State.LessDefined state state := by
  intro name
  cases state.get? name with
  | none => exact .none
  | some value => exact .some (.refl value)

theorem contains_eq (related : State.LessDefined first second) (name : String) :
    first.contains name = second.contains name := by
  have found := related name
  unfold NameMap.contains
  generalize first.get? name = value, second.get? name = value' at found
  cases found with
  | some => rfl
  | none => rfl

theorem replace (related : State.LessDefined first second) {stored stored' : Value}
    (values : stored.LessDefined stored') (name : String) :
    State.LessDefined (first.replace name stored) (second.replace name stored') := by
  intro other
  have found := related other
  rw [NameMap.get?_replace, NameMap.get?_replace]
  split
  case isTrue =>
    generalize first.get? other = value, second.get? other = value' at found
    cases found with
    | some => exact .some values
    | none => exact .none
  case isFalse => exact found

theorem frame (function : Function Ty) {passed passed' : List Value}
    (values : List.Forall₂ Value.LessDefined passed passed') :
    State.LessDefined (function.frame passed) (function.frame passed') := by
  intro name
  have arguments : Option.Rel Value.LessDefined (function.argument? passed name)
      (function.argument? passed' name) := by
    unfold Function.argument?
    generalize function.params.toList = params
    induction values generalizing params with
    | nil =>
      rw [List.zip_nil_right]
      exact .none
    | @cons value value' passed passed' first _ ih =>
      cases params with
      | nil => exact .none
      | cons param params =>
        rw [List.zip_cons_cons, List.zip_cons_cons, List.find?_cons, List.find?_cons]
        dsimp only
        cases decide (param.name.name = name) with
        | true => exact .some first
        | false => exact ih params
  rw [Function.get?_frame, Function.get?_frame]
  generalize function.argument? passed name = argument, function.argument? passed' name = argument'
    at arguments
  cases arguments with
  | some value => exact .some value
  | none =>
    rw [Option.none_or]
    exact State.LessDefined.refl _ name

/-- Declared variables that have not been assigned are less defined than any values of
them. -/
theorem undefined {declarations : Definitions Declaration} {state : State}
    (domain : ∀ name, (state.get? name).isSome = (declarations.get? name).isSome) :
    State.LessDefined (State.undefined declarations) state := by
  intro name
  have bound := domain name
  rw [State.get?_undefined]
  generalize state.get? name = value, declarations.get? name = declaration at bound
  cases value <;> cases declaration <;> simp at bound
  · exact .none
  · exact .some (.inr ⟨_, rfl⟩)

end State.LessDefined

/-- A lookup gives a less defined value if the innermost frame and the global variables have
less defined ones. -/
theorem Machine.rel_lookup {first second : Machine}
    (innermost : State.LessDefined first.innermost second.innermost)
    (globals : State.LessDefined first.globals second.globals) (name : String) :
    Option.Rel Value.LessDefined (first.lookup name) (second.lookup name) := by
  have inFrame := innermost name
  unfold Machine.lookup
  generalize first.innermost.get? name = value, second.innermost.get? name = value' at inFrame
  cases inFrame with
  | some values => exact .some values
  | none => exact globals name

/-- The globals of the second machine have the given names, and less defined values on the
first one.  The first machine has the frames that were entered at a level, also with less
defined values, and the second one may have others below them. -/
structure Machine.LessDefined (declared : Definitions Declaration) (level : Nat)
    (first second : Machine) : Prop where
  domain : ∀ name, (second.globals.get? name).isSome = (declared.get? name).isSome
  globals : State.LessDefined first.globals second.globals
  depth : first.frames.length = level + 1
  frames : ∃ entered below, second.frames = entered ++ below ∧
    List.Forall₂ State.LessDefined first.frames entered

namespace Machine.LessDefined

variable {declared : Definitions Declaration} {level : Nat} {first second : Machine}

theorem depth_le (related : Machine.LessDefined declared level first second) :
    first.depth ≤ second.depth := by
  obtain ⟨entered, below, frames, lessDefined⟩ := related.frames
  have sameLength := lessDefined.length_eq
  rw [Machine.depth, Machine.depth, frames, List.length_append]
  omega

theorem exists_innermost (related : Machine.LessDefined declared level first second) :
    ∃ frame outer frame' outer' below, first.frames = frame :: outer ∧
      second.frames = frame' :: (outer' ++ below) ∧ State.LessDefined frame frame' ∧
      List.Forall₂ State.LessDefined outer outer' := by
  obtain ⟨entered, below, frames, lessDefined⟩ := related.frames
  cases firstFrames : first.frames with
  | nil =>
    have depth := related.depth
    rw [firstFrames] at depth
    exact absurd depth (by simp)
  | cons frame outer =>
    rw [firstFrames] at lessDefined
    cases lessDefined with
    | cons innermost others => exact ⟨frame, outer, _, _, below, rfl, frames, innermost, others⟩

theorem innermost (related : Machine.LessDefined declared level first second) :
    State.LessDefined first.innermost second.innermost := by
  obtain ⟨frame, _, frame', _, _, frames, frames', innermost, _⟩ := related.exists_innermost
  rw [Machine.innermost, Machine.innermost, frames, frames']
  exact innermost

theorem lookup (related : Machine.LessDefined declared level first second) (name : String) :
    Option.Rel Value.LessDefined (first.lookup name) (second.lookup name) :=
  Machine.rel_lookup related.innermost related.globals name

theorem assign (related : Machine.LessDefined declared level first second)
    {stored stored' : Value} (values : stored.LessDefined stored') (name : String) :
    Option.Rel (Machine.LessDefined declared level) (first.assign? name stored)
      (second.assign? name stored') := by
  apply Machine.rel_assign? (related.innermost.contains_eq name)
    (related.globals.contains_eq name)
  · intro _ _
    obtain ⟨frame, outer, frame', outer', below, frames, frames', _, others⟩ :=
      related.exists_innermost
    refine ⟨related.domain, related.globals, ?_,
      second.innermost.replace name stored' :: outer', below, ?_, ?_⟩
    · rw [← related.depth, frames]
      rfl
    · rw [frames', List.tail_cons, List.cons_append]
    · rw [frames, List.tail_cons]
      exact .cons (related.innermost.replace values name) others
  · refine ⟨fun other => ?_, related.globals.replace values name, related.depth, related.frames⟩
    have names := State.SameNames.replace second.globals name stored' other
    exact names.symm.trans (related.domain other)

theorem push (related : Machine.LessDefined declared level first second)
    {function function' : Function Ty} (sameFrame : function.SameFrame function')
    {passed passed' : List Value}
    (values : List.Forall₂ Value.LessDefined passed passed') :
    Machine.LessDefined declared (level + 1) (first.push function passed)
      (second.push function' passed') := by
  obtain ⟨entered, below, frames, lessDefined⟩ := related.frames
  refine ⟨related.domain, related.globals, ?_, function'.frame passed' :: entered, below, ?_, ?_⟩
  · rw [Machine.frames_push, List.length_cons, related.depth]
  · rw [Machine.frames_push, frames, List.cons_append]
  · rw [Machine.frames_push, sameFrame.frame]
    exact .cons (State.LessDefined.frame function' values) lessDefined

theorem pop (related : Machine.LessDefined declared (level + 1) first second) :
    Machine.LessDefined declared level first.pop second.pop := by
  obtain ⟨entered, below, frames, lessDefined⟩ := related.frames
  have depth := related.depth
  refine ⟨related.domain, related.globals, ?_, ?_⟩
  · rw [Machine.frames_pop, List.length_tail, depth]
    rfl
  · rw [Machine.frames_pop, Machine.frames_pop, frames]
    generalize first.frames = firstFrames at lessDefined depth
    cases lessDefined with
    | nil => exact absurd depth (by simp)
    | cons _ rest => exact ⟨_, below, rfl, rest⟩

end Machine.LessDefined

/-- Ends that need not agree: the first run reads a value without content, or the second
one overflows, or it does not end with a result while the first one has not ended. -/
inductive DefinednessExcuse : Outcome Unit → Outcome Unit → Prop where
  | read {span : Span} {ty : Ty} {second : Outcome Unit} :
      DefinednessExcuse (.failed ⟨span, .value (.undefined ty)⟩) second
  | overflow {span : Span} {first : Outcome Unit} :
      DefinednessExcuse first (.failed ⟨span, .stackOverflow Machine.maxDepth⟩)
  | exhausted {second : Outcome Unit} (notDone : second ≠ .done ()) :
      DefinednessExcuse .outOfFuel second

/-- The comparison of a run with one on more defined variables, with the same fuel up to a
limit. -/
def definednessComparison (declared : Definitions Declaration) (limit : Nat) : Comparison where
  values := Value.LessDefined
  machines := Machine.LessDefined declared
  excused := DefinednessExcuse
  fuels := fun fuel fuel' => fuel = fuel' ∧ fuel ≤ limit
  not_excused_done := nofun
  excused_first := by
    rintro _ (_ | _ | notDone) other
    · exact .read
    · exact absurd rfl notDone
  excused_second := by
    rintro _ (_ | _ | _) other
    exact .overflow
  fuels_pred := by
    rintro fuel fuel' ⟨same, bounded⟩
    exact ⟨Nat.succ.inj same, Nat.le_of_succ_le bounded⟩
  fuels_zero_succ := fun fuels => nomatch fuels.1
  fuels_succ_zero := fun fuels => nomatch fuels.1
  values_refl := Value.LessDefined.refl
  eq_or_undefined := by
    rintro first second (same | ⟨ty, isUndefined⟩)
    · exact .inl same
    · exact .inr ⟨ty, isUndefined, fun _ _ => .read⟩
  lookup := Machine.LessDefined.lookup
  assign := fun related values name => related.assign values name
  push := fun related sameFrame values => related.push sameFrame values
  pop := Machine.LessDefined.pop
  room := by
    intro level first second related
    have depthLe := related.depth_le
    by_cases room : second.depth < Machine.maxDepth
    · exact .inl ⟨fun _ => room, fun _ => Nat.lt_of_le_of_lt depthLe room⟩
    · exact .inr (.inr ⟨room, fun _ _ => .overflow⟩)

end TypedImp
