/-!
# Recorded computations

A computation that can fail, together with the events it recorded on its way.  A failure
ends the record and keeps what stands in it.
-/

namespace TypedImp

/-- The events of a computation in their order, and how it ended. -/
structure Recorded (ω ε α : Type) where
  events : List ω
  outcome : Except ε α

namespace Recorded

variable {ω ω' ε ε' α β : Type}

/-- Record nothing and give a value. -/
def value (result : α) : Recorded ω ε α :=
  ⟨[], .ok result⟩

/-- Record nothing and fail. -/
def fail (error : ε) : Recorded ω ε α :=
  ⟨[], .error error⟩

/-- Record nothing and end as given. -/
def ofExcept (outcome : Except ε α) : Recorded ω ε α :=
  ⟨[], outcome⟩

/-- Record one event. -/
def record (event : ω) : Recorded ω ε Unit :=
  ⟨[event], .ok ()⟩

/-- Go on with the value of a computation, behind its events. -/
def andThen (first : Recorded ω ε α) (next : α → Recorded ω ε β) : Recorded ω ε β :=
  match first.outcome with
  | .ok result => ⟨first.events ++ (next result).events, (next result).outcome⟩
  | .error error => ⟨first.events, .error error⟩

instance : Monad (Recorded ω ε) where
  pure := value
  bind := andThen

/-- Change the events. -/
def mapEvents (f : ω → ω') (computation : Recorded ω ε α) : Recorded ω' ε α :=
  ⟨computation.events.map f, computation.outcome⟩

/-- Change the failure. -/
def mapError (f : ε → ε') (computation : Recorded ω ε α) : Recorded ω ε' α :=
  ⟨computation.events, computation.outcome.mapError f⟩

@[simp]
theorem pure_eq (result : α) : (pure result : Recorded ω ε α) = ⟨[], .ok result⟩ :=
  rfl

@[simp]
theorem mk_ok_bind (events : List ω) (result : α) (next : α → Recorded ω ε β) :
    (⟨events, .ok result⟩ : Recorded ω ε α) >>= next =
      ⟨events ++ (next result).events, (next result).outcome⟩ :=
  rfl

@[simp]
theorem mk_error_bind (events : List ω) (error : ε) (next : α → Recorded ω ε β) :
    (⟨events, .error error⟩ : Recorded ω ε α) >>= next = ⟨events, .error error⟩ :=
  rfl

/-- A computation in two parts succeeds exactly if both parts do. -/
theorem bind_outcome_eq_ok_iff {first : Recorded ω ε α} {next : α → Recorded ω ε β}
    {result : β} :
    (first >>= next).outcome = .ok result ↔
      ∃ middle, first.outcome = .ok middle ∧ (next middle).outcome = .ok result := by
  obtain ⟨events, outcome⟩ := first
  cases outcome <;> simp

instance : LawfulMonad (Recorded ω ε) :=
  LawfulMonad.mk' (Recorded ω ε)
    (fun computation => by
      obtain ⟨events, outcome⟩ := computation
      cases outcome with
      | error error => rfl
      | ok result =>
        exact congrArg (fun events => Recorded.mk events (.ok result)) (List.append_nil events))
    (fun result next => rfl)
    (fun first next last => by
      obtain ⟨events, outcome⟩ := first
      cases outcome with
      | error error => rfl
      | ok result =>
        simp only [mk_ok_bind]
        generalize next result = second
        obtain ⟨secondEvents, secondOutcome⟩ := second
        cases secondOutcome <;> simp)

end Recorded

end TypedImp
