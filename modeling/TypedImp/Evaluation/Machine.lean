import TypedImp.Evaluation.RunError
import TypedImp.State

/-!
# The machine

A run works on the global variables and on one frame of variables for each call that has
not ended.  Of two variables with one name the one in the innermost frame counts; the
frames below it are out of reach.  Calls and their ends are logged.
-/

namespace TypedImp

/-- The begin or the end of a call, with the number of frames that includes its own. -/
inductive CallEvent where
  | pushed (function : String) (depth : Nat)
  | popped (depth : Nat)
  deriving DecidableEq

/-- The global variables, the frames from the innermost on, and the log from the latest
event on. -/
structure Machine where
  globals : State
  frames : List State
  log : List CallEvent
  deriving DecidableEq

namespace Machine

/-- The largest number of frames. -/
def maxDepth : Nat :=
  256

/-- The machine before a run. -/
def start {τ : Type} (program : Program τ) : Machine :=
  ⟨State.undefined program.globals, [], []⟩

/-- The number of frames. -/
def depth (machine : Machine) : Nat :=
  machine.frames.length

/-- Begin a call with the given arguments. -/
def push {τ : Type} (machine : Machine) (function : Function τ) (values : List Value) :
    Machine :=
  { machine with
    frames := function.frame values :: machine.frames
    log := .pushed function.name.name (machine.depth + 1) :: machine.log }

/-- End a call. -/
def pop (machine : Machine) : Machine :=
  { machine with
    frames := machine.frames.tail
    log := .popped machine.depth :: machine.log }

/-- The innermost frame. -/
def innermost (machine : Machine) : State :=
  machine.frames.headD NameMap.empty

/-- The value of a variable. -/
def lookup (machine : Machine) (name : String) : Option Value :=
  (machine.innermost.get? name).or (machine.globals.get? name)

/-- Store a value in a global variable. -/
def assignGlobal? (machine : Machine) (name : String) (value : Value) : Option Machine :=
  if machine.globals.contains name then
    some { machine with globals := machine.globals.replace name value }
  else
    none

/-- Store a value in the variable that a lookup reads. -/
def assign? (machine : Machine) (name : String) (value : Value) : Option Machine :=
  match machine.frames with
  | frame :: below =>
    if frame.contains name then
      some { machine with frames := frame.replace name value :: below }
    else
      machine.assignGlobal? name value
  | [] => machine.assignGlobal? name value

section Lemmas

variable {τ : Type} (machine : Machine)

@[simp]
theorem globals_push (function : Function τ) (values : List Value) :
    (machine.push function values).globals = machine.globals :=
  rfl

@[simp]
theorem frames_push (function : Function τ) (values : List Value) :
    (machine.push function values).frames = function.frame values :: machine.frames :=
  rfl

@[simp]
theorem globals_pop : machine.pop.globals = machine.globals :=
  rfl

@[simp]
theorem frames_pop : machine.pop.frames = machine.frames.tail :=
  rfl

/-- Only what is bound can be assigned. -/
theorem assign?_eq_none_iff (name : String) (value : Value) :
    machine.assign? name value = none ↔ machine.lookup name = none := by
  obtain ⟨globals, frames, log⟩ := machine
  cases inGlobals : globals.get? name <;> cases frames with
  | nil => simp [assign?, assignGlobal?, lookup, innermost, NameMap.contains, inGlobals]
  | cons frame below =>
    cases inFrame : frame.get? name <;>
      simp [assign?, assignGlobal?, lookup, innermost, NameMap.contains, inGlobals, inFrame]

theorem log_assign? {machine assigned : Machine} {name : String} {value : Value}
    (done : machine.assign? name value = some assigned) : assigned.log = machine.log := by
  have inGlobals (done : machine.assignGlobal? name value = some assigned) :
      assigned.log = machine.log := by
    unfold assignGlobal? at done
    split at done
    · cases done
      rfl
    · cases done
  unfold assign? at done
  split at done
  · split at done
    · cases done
      rfl
    · exact inGlobals done
  · exact inGlobals done

/-- An assignment is seen by lookups of its own name only. -/
theorem lookup_assign? {machine assigned : Machine} {name : String} {value : Value}
    (done : machine.assign? name value = some assigned) (other : String) :
    assigned.lookup other = if other = name then some value else machine.lookup other := by
  obtain ⟨globals, frames, log⟩ := machine
  have inGlobals (frames : List State)
      (hidden : (Machine.mk globals frames log).innermost.get? name = none)
      (done : (Machine.mk globals frames log).assignGlobal? name value = some assigned) :
      assigned.lookup other =
        if other = name then some value else (Machine.mk globals frames log).lookup other := by
    simp only [assignGlobal?] at done
    split at done
    case _ bound =>
      cases done
      have stillHidden :
          (Machine.mk (globals.replace name value) frames log).innermost.get? name = none :=
        hidden
      by_cases same : other = name
      · subst same
        obtain ⟨old, found⟩ := Option.isSome_iff_exists.mp bound
        simp [lookup, stillHidden, found]
      · simp [lookup, innermost, same]
    · simp at done
  cases frames with
  | nil => exact inGlobals [] rfl done
  | cons frame below =>
    simp only [assign?] at done
    split at done
    case _ bound =>
      cases done
      by_cases same : other = name
      · subst same
        obtain ⟨old, found⟩ := Option.isSome_iff_exists.mp bound
        simp [lookup, innermost, found]
      · simp [lookup, innermost, same]
    case _ unbound =>
      exact inGlobals (frame :: below) (by simpa [NameMap.contains, innermost] using unbound) done

end Lemmas

end Machine

end TypedImp
