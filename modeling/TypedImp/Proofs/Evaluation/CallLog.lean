import Mathlib.Algebra.Ring.Int.Defs
import TypedImp.Proofs.Evaluation.Preservation

/-!
# The log of calls

The begins and the ends of calls are brackets.  `WellBracketed` says what this means of a log
from the first event on, with the number of open frames counted apart from the numbers that the
events report.  While the main function has not ended, a machine keeps its log so that it can
become well bracketed, which is what `LogOpen` says of it.
-/

namespace TypedImp

namespace CallEvent

/-- The number of frames that an event reports. -/
def depth : CallEvent → Nat
  | .pushed _ depth => depth
  | .popped depth => depth

/-- What an event adds to the number of open frames. -/
def change : CallEvent → Int
  | .pushed _ _ => 1
  | .popped _ => -1

end CallEvent

/-- The number of frames that are open behind some events. -/
def openFrames (events : List CallEvent) : Int :=
  (events.map CallEvent.change).sum

/-- The ends of calls from a number of open frames on, until no frame is open. -/
def ends : Nat → List CallEvent
  | 0 => []
  | depth + 1 => .popped (depth + 1) :: ends depth

/-- The events of a run are well bracketed.  Each begin of a call reports the frames that are
open behind it and each end those that are open before it, and there is no moment between the
begin and the end of the main function at which no frame is open. -/
structure WellBracketed (events : List CallEvent) : Prop where
  begins : events.head? = some (.pushed Program.mainName 1)
  finishes : events.getLast? = some (.popped 1)
  pushed : ∀ earlier later function (depth : Nat),
    events = earlier ++ .pushed function depth :: later →
      openFrames (earlier ++ [.pushed function depth]) = depth
  popped : ∀ earlier later (depth : Nat), events = earlier ++ .popped depth :: later →
    openFrames earlier = depth
  bounded : ∀ event ∈ events, event.depth ≤ Machine.maxDepth
  stays : ∀ earlier later, events = earlier ++ later → earlier ≠ [] → later ≠ [] →
    0 < openFrames earlier
  balanced : openFrames events = 0

section Counting

@[simp]
theorem openFrames_nil : openFrames [] = 0 :=
  rfl

@[simp]
theorem openFrames_cons (event : CallEvent) (events : List CallEvent) :
    openFrames (event :: events) = event.change + openFrames events := by
  rw [openFrames, List.map_cons, List.sum_cons, openFrames]

@[simp]
theorem openFrames_append (earlier later : List CallEvent) :
    openFrames (earlier ++ later) = openFrames earlier + openFrames later := by
  rw [openFrames, List.map_append, List.sum_append, openFrames, openFrames]

theorem openFrames_reverse (events : List CallEvent) :
    openFrames events.reverse = openFrames events := by
  induction events with
  | nil => rfl
  | cons event events ih =>
    rw [List.reverse_cons, openFrames_append, ih, openFrames_cons, openFrames_cons,
      openFrames_nil]
    omega

end Counting

/-- The log, from the latest event on, of a run that has not left its main function, and the
number of frames that are open. -/
inductive LogOpen : List CallEvent → Nat → Prop where
  | main : LogOpen [.pushed Program.mainName 1] 1
  | pushed {log : List CallEvent} {depth : Nat} (before : LogOpen log depth)
      (room : depth < Machine.maxDepth) (function : String) :
      LogOpen (.pushed function (depth + 1) :: log) (depth + 1)
  | popped {log : List CallEvent} {depth : Nat} (before : LogOpen log (depth + 2)) :
      LogOpen (.popped (depth + 2) :: log) (depth + 1)

namespace LogOpen

variable {log : List CallEvent} {depth : Nat}

theorem openFrames_eq (isOpen : LogOpen log depth) : openFrames log = depth := by
  induction isOpen with
  | main => rfl
  | pushed _ _ _ ih => simp [ih, CallEvent.change, Int.add_comm]
  | popped _ ih =>
    rw [openFrames_cons, ih, CallEvent.change]
    omega

theorem pos (isOpen : LogOpen log depth) : 0 < depth := by
  cases isOpen <;> omega

theorem le_maxDepth (isOpen : LogOpen log depth) : depth ≤ Machine.maxDepth := by
  induction isOpen with
  | main => decide
  | pushed _ room _ => exact room
  | popped _ ih => exact Nat.le_of_succ_le ih

theorem getLast? (isOpen : LogOpen log depth) :
    log.getLast? = some (.pushed Program.mainName 1) := by
  induction isOpen with
  | main => rfl
  | pushed _ _ _ ih | popped _ ih => rw [List.getLast?_cons, ih, Option.getD_some]

/-- At every moment since its first event the log was open. -/
theorem of_append {later earlier : List CallEvent} (isOpen : LogOpen (later ++ earlier) depth)
    (begun : earlier ≠ []) : ∃ between, LogOpen earlier between := by
  induction later generalizing depth with
  | nil => exact ⟨depth, isOpen⟩
  | cons event later ih =>
    generalize split : later ++ earlier = before at ih
    rw [List.cons_append, split] at isOpen
    cases isOpen with
    | main => exact absurd (List.append_eq_nil_iff.mp split).2 begun
    | pushed before _ _ => exact ih before
    | popped before => exact ih before

/-- The begin of a call reports the frames behind it. -/
theorem eq_of_pushed {function : String} {reported : Nat}
    (isOpen : LogOpen (.pushed function reported :: log) depth) : reported = depth := by
  cases isOpen <;> rfl

/-- The end of a call reports the frames before it. -/
theorem of_popped {reported : Nat} (isOpen : LogOpen (.popped reported :: log) depth) :
    LogOpen log reported := by
  cases isOpen with
  | popped before => exact before

/-- An event reports no more frames than there can be. -/
theorem depth_le {event : CallEvent} (isOpen : LogOpen (event :: log) depth) :
    event.depth ≤ Machine.maxDepth := by
  cases event with
  | pushed function reported => exact isOpen.eq_of_pushed ▸ isOpen.le_maxDepth
  | popped reported => exact isOpen.of_popped.le_maxDepth

/-- An event is the end of the main function, with nothing behind it, or the log was open behind
it. -/
theorem cases_of_split (isOpen : LogOpen log 1) {earlier later : List CallEvent}
    {event : CallEvent}
    (split : (CallEvent.popped 1 :: log).reverse = earlier ++ event :: later) :
    (event = .popped 1 ∧ later = [] ∧ log = earlier.reverse) ∨
      ∃ between, LogOpen (event :: earlier.reverse) between := by
  have turned : .popped 1 :: log = later.reverse ++ event :: earlier.reverse := by
    rw [List.append_cons, ← List.reverse_cons, ← List.reverse_append, ← split,
      List.reverse_reverse]
  cases behind : later.reverse with
  | nil =>
    rw [behind, List.nil_append, List.cons.injEq] at turned
    exact .inl ⟨turned.1.symm, List.reverse_eq_nil_iff.mp behind, turned.2⟩
  | cons _ rest =>
    rw [behind, List.cons_append] at turned
    rw [List.tail_eq_of_cons_eq turned] at isOpen
    exact .inr (isOpen.of_append (List.cons_ne_nil event _))

/-- The end of the main function closes the log. -/
theorem wellBracketed (isOpen : LogOpen log 1) :
    WellBracketed (CallEvent.popped 1 :: log).reverse where
  begins := by
    rw [List.reverse_cons, List.head?_append, List.head?_reverse, isOpen.getLast?]
    rfl
  finishes := by
    rw [List.reverse_cons, List.getLast?_concat]
  pushed := by
    intro earlier later function depth split
    obtain ⟨isEnd, _⟩ | ⟨between, isOpen⟩ := isOpen.cases_of_split split
    · cases isEnd
    · rw [← openFrames_reverse, List.reverse_concat, isOpen.openFrames_eq, isOpen.eq_of_pushed]
  popped := by
    intro earlier later depth split
    obtain ⟨isEnd, _, rfl⟩ | ⟨between, isOpen⟩ := isOpen.cases_of_split split
    · cases isEnd
      rw [← openFrames_reverse, isOpen.openFrames_eq]
    · rw [← openFrames_reverse, isOpen.of_popped.openFrames_eq]
  bounded := by
    intro event member
    obtain ⟨earlier, later, split⟩ := List.append_of_mem member
    obtain ⟨rfl, _⟩ | ⟨between, isOpen⟩ := isOpen.cases_of_split split
    · decide
    · exact isOpen.depth_le
  stays := by
    intro earlier later split begun goesOn
    obtain rfl | ⟨front, event, rfl⟩ := earlier.eq_nil_or_concat
    · exact absurd rfl begun
    rw [List.concat_eq_append] at split ⊢
    rw [List.append_assoc, List.singleton_append] at split
    obtain ⟨_, atEnd, _⟩ | ⟨between, isOpen⟩ := isOpen.cases_of_split split
    · exact absurd atEnd goesOn
    · rw [← openFrames_reverse, List.reverse_concat, isOpen.openFrames_eq]
      exact Int.natCast_pos.mpr isOpen.pos
  balanced := by
    rw [openFrames_reverse, openFrames_cons, isOpen.openFrames_eq]
    rfl

end LogOpen

end TypedImp
