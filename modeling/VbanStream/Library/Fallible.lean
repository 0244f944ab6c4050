import Mathlib.Tactic

namespace VbanStream.Library

variable {ε α : Type*}

/-- Every error is of one kind, every answer of another. -/
def Meets (described : ε → Prop) (good : α → Prop) : Except ε α → Prop
  | .error message => described message
  | .ok value => good value

variable {described : ε → Prop} {good : α → Prop}

theorem Meets.error {outcome : Except ε α} (meets : Meets described good outcome) {message : ε}
    (failed : outcome = .error message) : described message := by
  subst failed
  exact meets

theorem Meets.ok {outcome : Except ε α} (meets : Meets described good outcome) {value : α}
    (passed : outcome = .ok value) : good value := by
  subst passed
  exact meets

theorem meets_ite {condition : Prop} [Decidable condition] {first second : Except ε α}
    (yes : Meets described good first) (no : Meets described good second) :
    Meets described good (if condition then first else second) := by
  split
  · exact yes
  · exact no

theorem meets_dite {condition : Prop} [Decidable condition] {first : condition → Except ε α}
    {second : ¬ condition → Except ε α} (yes : ∀ holds, Meets described good (first holds))
    (no : ∀ fails, Meets described good (second fails)) :
    Meets described good (if holds : condition then first holds else second holds) := by
  split
  · exact yes _
  · exact no _

/-- The values of all computations, or the error of the first one that fails. -/
def collect : {n : Nat} → (Fin n → Except ε α) → Except ε (Fin n → α)
  | 0, _ => .ok Fin.elim0
  | _ + 1, values =>
    match values 0 with
    | .error message => .error message
    | .ok first =>
      match collect fun i => values i.succ with
      | .error message => .error message
      | .ok rest => .ok (Fin.cons first rest)

theorem meets_collect {n : Nat} {values : Fin n → Except ε α} {good : Fin n → α → Prop}
    (each : ∀ i, Meets described (good i) (values i)) :
    Meets described (fun results => ∀ i, good i (results i)) (collect values) := by
  induction n with
  | zero => exact fun i => i.elim0
  | succ n ih =>
    have first := each 0
    have rest := ih fun i => each i.succ
    rw [collect]
    cases head : values 0 with
    | error message => exact first.error head
    | ok value =>
      dsimp only
      cases tail : collect fun i => values i.succ with
      | error message => exact rest.error tail
      | ok others =>
        intro i
        cases i using Fin.cases with
        | zero => exact first.ok head
        | succ i => exact rest.ok tail i

end VbanStream.Library
