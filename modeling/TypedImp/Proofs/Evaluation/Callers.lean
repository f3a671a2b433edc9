import Mathlib.Data.Prod.Basic
import TypedImp.Proofs.Compilation
import TypedImp.Proofs.Evaluation.Frames
import TypedImp.Proofs.Evaluation.Lockstep

/-!
# Calls and their callers

A call works on its own frame and on the global variables.  The frames of its callers count
by their number only: with more of them there is less room for further calls.  So two calls
from different places run in lockstep, and the frames that both have entered are the same.
-/

namespace TypedImp

/-- The same global variables, and the same frames above those of different callers. -/
structure Machine.SameCallees (below below' : List State) (level : Nat)
    (first second : Machine) : Prop where
  globals : first.globals = second.globals
  frames : ∃ entered : List State, entered.length = level + 1 ∧
    first.frames = entered ++ below ∧ second.frames = entered ++ below'

namespace Machine.SameCallees

variable {below below' : List State} {level : Nat} {first second : Machine}

theorem exists_innermost (same : Machine.SameCallees below below' level first second) :
    ∃ frame entered, entered.length = level ∧ first.frames = frame :: (entered ++ below) ∧
      second.frames = frame :: (entered ++ below') := by
  obtain ⟨entered, depth, frames, frames'⟩ := same.frames
  cases entered with
  | nil => cases depth
  | cons frame entered => exact ⟨frame, entered, Nat.succ.inj depth, frames, frames'⟩

theorem innermost (same : Machine.SameCallees below below' level first second) :
    first.innermost = second.innermost := by
  obtain ⟨frame, entered, _, frames, frames'⟩ := same.exists_innermost
  rw [Machine.innermost, Machine.innermost, frames, frames', List.headD_cons, List.headD_cons]

theorem lookup (same : Machine.SameCallees below below' level first second) (name : String) :
    first.lookup name = second.lookup name := by
  rw [Machine.lookup, Machine.lookup, same.innermost, same.globals]

theorem assign (same : Machine.SameCallees below below' level first second) (name : String)
    (value : Value) :
    Option.Rel (Machine.SameCallees below below' level) (first.assign? name value)
      (second.assign? name value) := by
  obtain ⟨frame, entered, depth, frames, frames'⟩ := same.exists_innermost
  apply Machine.rel_assign? (by rw [same.innermost]) (by rw [same.globals])
  · intro _ _
    refine ⟨same.globals, first.innermost.replace name value :: entered, ?_, ?_, ?_⟩
    · rw [List.length_cons, depth]
    · rw [frames, List.tail_cons, List.cons_append]
    · rw [same.innermost, frames', List.tail_cons, List.cons_append]
  · exact ⟨congrArg (·.replace name value) same.globals, same.frames⟩

theorem push (same : Machine.SameCallees below below' level first second)
    {function function' : Function Ty} (sameFrame : function.SameFrame function')
    (values : List Value) :
    Machine.SameCallees below below' (level + 1) (first.push function values)
      (second.push function' values) := by
  obtain ⟨entered, depth, frames, frames'⟩ := same.frames
  refine ⟨same.globals, function'.frame values :: entered, ?_, ?_, ?_⟩
  · rw [List.length_cons, depth]
  · rw [Machine.frames_push, frames, sameFrame.frame, List.cons_append]
  · rw [Machine.frames_push, frames', List.cons_append]

theorem pop (same : Machine.SameCallees below below' (level + 1) first second) :
    Machine.SameCallees below below' level first.pop second.pop := by
  obtain ⟨frame, entered, depth, frames, frames'⟩ := same.exists_innermost
  exact ⟨same.globals, entered, depth, congrArg List.tail frames, congrArg List.tail frames'⟩

theorem depth_le (same : Machine.SameCallees below below' level first second)
    (le : below.length ≤ below'.length) : first.depth ≤ second.depth := by
  obtain ⟨entered, _, frames, frames'⟩ := same.frames
  rw [Machine.depth, Machine.depth, frames, frames', List.length_append, List.length_append]
  omega

end Machine.SameCallees

/-- Calls from different callers begin with the same frame. -/
theorem Machine.sameCallees_push (function : Function Ty) (values : List Value) (globals : State)
    (shorter longer : List State) (log log' : List CallEvent) :
    Machine.SameCallees shorter longer 0 (Machine.push ⟨globals, shorter, log⟩ function values)
      (Machine.push ⟨globals, longer, log'⟩ function values) :=
  ⟨rfl, [function.frame values], rfl, rfl, rfl⟩

/-- The comparison of two calls, of which the second one has at least as many callers and may
overflow. -/
def callerComparison {below below' : List State} (le : below.length ≤ below'.length) :
    Comparison where
  values := Eq
  machines := Machine.SameCallees below below'
  excused := fun _ ending => ∃ span, ending = .failed ⟨span, .stackOverflow Machine.maxDepth⟩
  fuels := Eq
  not_excused_done := nofun
  excused_first := nofun
  excused_second := fun excuse _ => excuse
  fuels_pred := Nat.succ.inj
  fuels_zero_succ := nofun
  fuels_succ_zero := nofun
  values_refl := fun _ => rfl
  eq_or_undefined := .inl
  lookup := by
    intro level first second same name
    rw [same.lookup name]
    cases second.lookup name with
    | none => exact .none
    | some value => exact .some rfl
  assign := by
    rintro level first second stored _ same rfl name
    exact same.assign name stored
  push := by
    intro level first second function function' passed passed' same sameFrame values
    obtain rfl : passed = passed' := by simpa [List.forall₂_eq_eq_eq] using values
    exact same.push sameFrame passed
  pop := Machine.SameCallees.pop
  room := by
    intro level first second same
    have depthLe := same.depth_le le
    by_cases room : second.depth < Machine.maxDepth
    · exact .inl ⟨fun _ => room, fun _ => Nat.lt_of_le_of_lt depthLe room⟩
    · exact .inr (.inr ⟨room, fun span _ => ⟨span, rfl⟩⟩)

/-- The same ends with the same global variables, unless the second one has no outcome or
overflows. -/
theorem cases_of_callerEnds {below below' : List State} (le : below.length ≤ below'.length)
    {outcome outcome' : Outcome Completion} {first second : Machine}
    (ends : (callerComparison le).Ends 0 (Completion.Rel Eq) (outcome, first) (outcome', second)) :
    (outcome = outcome' ∧ first.globals = second.globals) ∨ outcome' = .outOfFuel ∨
      ∃ place, outcome' = .failed ⟨place, .stackOverflow Machine.maxDepth⟩ := by
  cases ends with
  | done machines completions =>
    obtain rfl := completions.eq
    exact .inl ⟨rfl, machines.globals⟩
  | failed machines => exact .inl ⟨rfl, machines.globals⟩
  | outOfFuel => exact .inr (.inl rfl)
  | excused excuse =>
    obtain ⟨place, overflows⟩ := excuse
    cases outcome' with
    | done => cases overflows
    | failed error =>
      cases overflows
      exact .inr (.inr ⟨place, rfl⟩)
    | outOfFuel => cases overflows

section Calls

variable {functions : Definitions (Function Ty)} {function : Function Ty} {values : List Value}
  {globals : State} {shorter longer : List State} {log log' : List CallEvent} {fuel : Nat}

/-- A call that ends without an overflow ends in the same way, and with the same global
variables, above any other callers that are no more in number. -/
theorem call_independent_of_callers (le : shorter.length ≤ longer.length) {span span' : Span}
    {outcome : Outcome (Option Value)} {final : Machine}
    (ends : Evaluation.inFrame function values span
        (Stmt.execAll functions fuel function.body) ⟨globals, longer, log⟩ = (outcome, final))
    (lasts : outcome ≠ .outOfFuel)
    (fits : ∀ place depth, outcome ≠ .failed ⟨place, .stackOverflow depth⟩) :
    ∃ final',
      Evaluation.inFrame function values span'
          (Stmt.execAll functions fuel function.body) ⟨globals, shorter, log'⟩ =
        (outcome, final') ∧
      final'.globals = final.globals := by
  rw [Evaluation.inFrame_apply] at ends ⊢
  split at ends
  case isTrue room =>
    have room' : Machine.depth ⟨globals, shorter, log'⟩ < Machine.maxDepth :=
      Nat.lt_of_le_of_lt le room
    have lockstep :=
      Comparison.lockstep ((callerComparison le).calls_self functions) (Eq.refl fuel)
    have bodies := lockstep.execAll 0 function.body _ _
      (Machine.sameCallees_push function values globals shorter longer log' log)
    rw [if_pos room']
    generalize Stmt.execAll functions fuel function.body
        (Machine.push ⟨globals, shorter, log'⟩ function values) = bodyEnd,
      Stmt.execAll functions fuel function.body
        (Machine.push ⟨globals, longer, log⟩ function values) = bodyEnd' at bodies ends
    obtain ⟨bodyOutcome, bodyFinal⟩ := bodyEnd
    obtain ⟨bodyOutcome', bodyFinal'⟩ := bodyEnd'
    rcases cases_of_callerEnds le bodies with ⟨rfl, globals⟩ | rfl | ⟨place, rfl⟩
    · cases bodyOutcome with
      | done completion =>
        cases ends
        exact ⟨_, rfl, globals⟩
      | failed error =>
        cases ends
        exact ⟨_, rfl, globals⟩
      | outOfFuel =>
        cases ends
        exact absurd rfl lasts
    · cases ends
      exact absurd rfl lasts
    · cases ends
      exact absurd rfl (fits place Machine.maxDepth)
  case isFalse =>
    cases ends
    exact absurd rfl (fits span Machine.maxDepth)

/-- A recursive call that counts its rounds in a global variable, from a caller with variables
of the same names and from no caller. -/
theorem call_independent_of_callers_of_recursion :
    ∃ compiled function final final',
      (compile .standard
        ("int n; int sum(int k) \x7b int s; n = n + 1; s = 0; " ++
          "if (k > 0) s = k + sum(k - 1); return s; \x7d " ++
          "int main() \x7b int x; n = 0; x = sum(3); \x7d")).outcome = .ok compiled ∧
      compiled.specialized.functions.get? "sum" = some function ∧
      let call := Evaluation.inFrame function [.int 3] (Span.emptyAt 0)
        (Stmt.execAll compiled.specialized.functions 60 function.body)
      let globals := (State.undefined compiled.specialized.globals).replace "n" (.int 0)
      call ⟨globals, [function.frame [.int 7]], []⟩ = (.done (some (.int 6)), final) ∧
      call ⟨globals, [], []⟩ = (.done (some (.int 6)), final') ∧
      final'.globals = final.globals := by
  have tested : (compile .standard
      ("int n; int sum(int k) \x7b int s; n = n + 1; s = 0; " ++
        "if (k > 0) s = k + sum(k - 1); return s; \x7d " ++
        "int main() \x7b int x; n = 0; x = sum(3); \x7d")).outcome.toOption.any (fun compiled =>
          (compiled.specialized.functions.get? "sum").any fun function =>
            (Evaluation.inFrame function [.int 3] (Span.emptyAt 0)
              (Stmt.execAll compiled.specialized.functions 60 function.body)
              ⟨(State.undefined compiled.specialized.globals).replace "n" (.int 0),
                [function.frame [.int 7]], []⟩).1 = .done (some (.int 6))) = true := by
    decide +kernel
  obtain ⟨compiled, done, found⟩ := exists_compiled tested
  obtain ⟨function, isSum, passes⟩ := (Option.any_eq_true _ _).mp found
  have ends := Prod.fst_eq_iff.mp (of_decide_eq_true passes)
  have le : ([] : List State).length ≤ [function.frame [.int 7]].length := Nat.zero_le _
  obtain ⟨final', ends', globals⟩ := call_independent_of_callers le ends nofun nofun
  exact ⟨compiled, function, _, final', done, isSum, ends, ends', globals⟩

end Calls

end TypedImp
