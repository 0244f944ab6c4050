import VbanStream.Library.Fallible

/-! Fallible stages over a state that keeps what they changed, also when they
fail. A chain of them is all-or-nothing if only its end changes anything. -/

namespace VbanStream.Library

/-- A stage answers a value or an error, and the state it leaves either way. -/
abbrev Stage (State Error α : Type*) := State → Except Error α × State

namespace Stage

variable {State Error α β : Type*}

/-- Go on with the answer of a stage; an error ends the chain. -/
def andThen (first : Stage State Error α) (next : α → Stage State Error β) :
    Stage State Error β := fun state =>
  match first state with
  | (.error message, after) => (.error message, after)
  | (.ok value, after) => next value after

/-- Look at the state and answer, without changing it. -/
def check (answer : State → Except Error α) : Stage State Error α := fun state =>
  (answer state, state)

/-- Change the state, without failing. -/
def change (next : State → State) : Stage State Error Unit := fun state => (.ok (), next state)

/-- A failure leaves the state as it was, with an error of a certain kind. -/
def Atomic (described : Error → Prop) (stage : Stage State Error α) : Prop :=
  ∀ state message after, stage state = (.error message, after) → after = state ∧ described message

/-- As `Atomic`, and nothing is changed by success either. -/
structure Reads (described : Error → Prop) (stage : Stage State Error α) : Prop where
  atomic : Atomic described stage
  unchanged : ∀ state, (stage state).2 = state

theorem andThen_error {first : Stage State Error α} {next : α → Stage State Error β}
    {state after : State} {message : Error}
    (failure : first.andThen next state = (.error message, after)) :
    first state = (.error message, after) ∨
      ∃ value middle, first state = (.ok value, middle) ∧
        next value middle = (.error message, after) := by
  unfold andThen at failure
  split at failure
  · rename_i failed
    cases failure
    exact .inl failed
  · rename_i value middle passed
    exact .inr ⟨value, middle, passed, failure⟩

theorem andThen_ok {first : Stage State Error α} {next : α → Stage State Error β}
    {state after : State} {result : β} (success : first.andThen next state = (.ok result, after)) :
    ∃ value middle, first state = (.ok value, middle) ∧
      next value middle = (.ok result, after) := by
  unfold andThen at success
  split at success
  · cases success
  · rename_i value middle passed
    exact ⟨value, middle, passed, success⟩

theorem reads_check {described : Error → Prop} {answer : State → Except Error α}
    {good : State → α → Prop} (meets : ∀ state, Meets described (good state) (answer state)) :
    Reads described (check answer) where
  atomic := by
    intro state message after failure
    obtain ⟨answered, same⟩ := Prod.mk.inj failure
    exact ⟨same.symm, (meets state).error answered⟩
  unchanged _ := rfl

theorem Reads.andThen {described : Error → Prop} {first : Stage State Error α}
    {next : α → Stage State Error β} (reads : Reads described first)
    (atomic : ∀ value, Atomic described (next value)) : Atomic described (first.andThen next) := by
  intro state message after failure
  rcases andThen_error failure with failed | ⟨value, middle, passed, failed⟩
  · exact reads.atomic state message after failed
  · have unchanged := reads.unchanged state
    rw [passed] at unchanged
    subst unchanged
    exact atomic value middle message after failed

theorem Atomic.andThen_change {described : Error → Prop} {first : Stage State Error α}
    (atomic : Atomic described first) (next : α → State → State) :
    Atomic described (first.andThen fun value => change (next value)) := by
  intro state message after failure
  rcases andThen_error failure with failed | ⟨value, middle, _, failed⟩
  · exact atomic state message after failed
  · cases failed

end Stage

end VbanStream.Library
