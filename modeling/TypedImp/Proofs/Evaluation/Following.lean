import TypedImp.Proofs.Evaluation.Keeps

/-!
# Evaluations that give the same results

Of two evaluations one is known to give a result, and the other one has to give the same
result on the same machine.  Which of them leads is a parameter, so that both directions
of an equivalence are shown by the same rules.  How they fail does not matter.
-/

namespace TypedImp

/-- The one of two evaluations that is known to give a result. -/
inductive Leader where
  | first
  | second

namespace Leader

/-- The leading one of two things. -/
def pick {α : Type} : Leader → α → α → α
  | .first, one, _ => one
  | .second, _, other => other

end Leader

namespace Evaluation

variable {α β : Type} {leader : Leader} {invariant : Machine → Prop}
  {allowed : RunError → Prop} {property : α → Prop} {first first' second : Evaluation α}

/-- From a machine with the invariant on, the result of the leading evaluation is that of
both. -/
def Follows (leader : Leader) (invariant : Machine → Prop) (first second : Evaluation α) :
    Prop :=
  ∀ machine, invariant machine → ∀ result final,
    leader.pick first second machine = (.done result, final) →
      first machine = (.done result, final) ∧ second machine = (.done result, final)

/-- The two evaluations give the same results, whatever the machine. -/
def SameResults (first second : Evaluation α) : Prop :=
  ∀ machine result final,
    first machine = (.done result, final) ↔ second machine = (.done result, final)

theorem ofExcept_eq_done_iff {span : Span} {outcome : Except RunError α} {result : α}
    {machine final : Machine} :
    ofExcept span outcome machine = (.done result, final) ↔
      outcome = .ok result ∧ machine = final := by
  cases outcome with
  | ok value =>
    change (Outcome.done value, machine) = (.done result, final) ↔ _
    simp
  | error error =>
    change (Outcome.failed _, machine) = (.done result, final) ↔ _
    simp

theorem inFrame_eq_done_iff {τ : Type} {function : Function τ} {values : List Value}
    {span : Span} {body : Evaluation Completion} {value? : Option Value}
    {machine final : Machine} :
    inFrame function values span body machine = (.done value?, final) ↔
      machine.depth < Machine.maxDepth ∧ ∃ completion last,
        body (machine.push function values) = (.done completion, last) ∧
          completion.value? = value? ∧ last.pop = final := by
  rw [inFrame_apply]
  by_cases room : machine.depth < Machine.maxDepth
  · rw [if_pos room]
    generalize body (machine.push function values) = ended
    obtain ⟨outcome, last⟩ := ended
    cases outcome with
    | done completion =>
      constructor
      · rintro ⟨⟩
        exact ⟨room, completion, last, rfl, rfl, rfl⟩
      · rintro ⟨_, _, _, ⟨⟩, rfl, rfl⟩
        rfl
    | failed error => simp
    | outOfFuel => simp
  · simp [room]

theorem follows_refl : Follows leader invariant first first := by
  intro machine _ result final done
  cases leader <;> exact ⟨done, done⟩

theorem follows_of_stuck (stuck : leader.pick first second = .stuck) :
    Follows leader invariant first second := by
  intro machine _ result final done
  rw [stuck] at done
  cases done

theorem Follows.bind {next next' : α → Evaluation β}
    (follows : Follows leader invariant first second)
    (keeps : Keeps invariant allowed property first)
    (nextFollows : ∀ value, property value → Follows leader invariant (next value) (next' value)) :
    Follows leader invariant (first >>= next) (second >>= next') := by
  intro machine holds result final done
  have parts : ∃ middle machine', leader.pick first second machine = (.done middle, machine') ∧
      leader.pick (next middle) (next' middle) machine' = (.done result, final) := by
    cases leader <;> exact bind_eq_done_iff.mp done
  obtain ⟨middle, machine', leads, continues⟩ := parts
  obtain ⟨firstDone, secondDone⟩ := follows machine holds middle machine' leads
  have kept := keeps machine holds
  rw [firstDone] at kept
  obtain ⟨nextDone, nextDone'⟩ :=
    nextFollows middle kept.2 machine' kept.1 result final continues
  exact ⟨bind_eq_done_iff.mpr ⟨middle, machine', firstDone, nextDone⟩,
    bind_eq_done_iff.mpr ⟨middle, machine', secondDone, nextDone'⟩⟩

theorem Follows.of_sameResults (same : SameResults first first')
    (follows : Follows leader invariant first' second) :
    Follows leader invariant first second := by
  intro machine holds result final done
  have leads : leader.pick first' second machine = (.done result, final) := by
    cases leader with
    | first => exact (same machine result final).mp done
    | second => exact done
  obtain ⟨firstDone, secondDone⟩ := follows machine holds result final leads
  exact ⟨(same machine result final).mpr firstDone, secondDone⟩

theorem follows_of_sameResults (same : SameResults first second) :
    Follows leader invariant first second :=
  .of_sameResults same follows_refl

/-- An outcome that does not depend on the machine may be taken over later. -/
theorem sameResults_ofExcept_comm {γ : Type} (span : Span) (outcome : Except RunError α)
    (later : Evaluation β) (next : α → β → Evaluation γ) :
    SameResults (ofExcept span outcome >>= fun value => later >>= fun other => next value other)
      (later >>= fun other => ofExcept span outcome >>= fun value => next value other) := by
  intro machine result final
  cases outcome with
  | ok value => rfl
  | error error =>
    constructor
    · intro done
      cases done
    · intro done
      obtain ⟨other, machine', _, failed⟩ := bind_eq_done_iff.mp done
      cases failed

theorem SameResults.bind {next next' : α → Evaluation β}
    (same : ∀ value, SameResults (next value) (next' value)) :
    SameResults (first >>= next) (first >>= next') := by
  intro machine result final
  rw [bind_eq_done_iff, bind_eq_done_iff]
  constructor
  · rintro ⟨middle, machine', firstDone, nextDone⟩
    exact ⟨middle, machine', firstDone, (same middle machine' result final).mp nextDone⟩
  · rintro ⟨middle, machine', firstDone, nextDone⟩
    exact ⟨middle, machine', firstDone, (same middle machine' result final).mpr nextDone⟩

end Evaluation

end TypedImp
