import Mathlib.Tactic

/-! A gate that lets items through at a steady period. Each item that passes moves the due
time on by one period, or to one period after the item when it came very late. -/

namespace VbanStream.Library

/-- The due time after an item at `time` has passed. -/
def rescheduled (period due time : Nat) : Nat :=
  if period < time - due then time + period else due + period

/-- The decision on every item, from a due time on. -/
def cadence (period : Nat) : Nat → List Nat → List (Nat × Bool)
  | _, [] => []
  | due, time :: rest =>
    if time < due then (time, false) :: cadence period due rest
    else (time, true) :: cadence period (rescheduled period due time) rest

/-- How many items have passed. -/
def passed {α : Type*} (marks : List (α × Bool)) : Nat := marks.countP Prod.snd

variable {period due time : Nat}

theorem rescheduled_lower (period due time : Nat) : due + period ≤ rescheduled period due time := by
  unfold rescheduled
  split <;> omega

theorem rescheduled_punctual (punctual : time ≤ due + period) :
    rescheduled period due time = due + period := by
  rw [rescheduled, if_neg (by omega)]

theorem cadence_lower {times : List Nat} {middle back : List (Nat × Bool)} {later : Nat}
    (marks : cadence period due times = middle ++ (later, true) :: back) :
    due + passed middle * period ≤ later := by
  induction middle generalizing due times with
  | nil =>
    cases times with
    | nil => cases marks
    | cons time rest =>
      rw [cadence] at marks
      split at marks
      · cases marks
      · rename_i reached
        simp only [List.nil_append, List.cons.injEq, Prod.mk.injEq, and_true] at marks
        simp only [passed, List.countP_nil]
        omega
  | cons mark middle ih =>
    cases times with
    | nil => cases marks
    | cons time rest =>
      rw [cadence] at marks
      split at marks
      · obtain ⟨rfl, onward⟩ := List.cons.inj marks
        exact ih onward
      · obtain ⟨rfl, onward⟩ := List.cons.inj marks
        have bound := ih onward
        have moved := rescheduled_lower period due time
        simp only [passed, List.countP_cons_of_pos, Nat.add_mul] at bound ⊢
        omega

/-- Items at most a period apart pass within a period of the due time, each time. -/
theorem cadence_upper {last : Nat} {times : List Nat} {middle back : List (Nat × Bool)}
    {later : Nat} (marks : cadence period due times = middle ++ (later, true) :: back)
    (reached : last ≤ due)
    (spaced : (last :: times).IsChain fun earlier later => later ≤ earlier + period) :
    later ≤ due + (passed middle + 1) * period := by
  induction middle generalizing due times last with
  | nil =>
    cases times with
    | nil => cases marks
    | cons time rest =>
      obtain ⟨near, _⟩ := List.isChain_cons_cons.mp spaced
      rw [cadence] at marks
      split at marks
      · cases marks
      · simp only [List.nil_append, List.cons.injEq, Prod.mk.injEq, and_true] at marks
        simp only [passed, List.countP_nil]
        omega
  | cons mark middle ih =>
    cases times with
    | nil => cases marks
    | cons time rest =>
      obtain ⟨near, onward_spaced⟩ := List.isChain_cons_cons.mp spaced
      rw [cadence] at marks
      split at marks
      · rename_i early
        obtain ⟨rfl, onward⟩ := List.cons.inj marks
        exact ih onward early.le onward_spaced
      · obtain ⟨rfl, onward⟩ := List.cons.inj marks
        rw [rescheduled_punctual (by omega)] at onward
        have bound := ih onward (by omega) onward_spaced
        simp only [passed, List.countP_cons_of_pos, Nat.add_mul] at bound ⊢
        omega

end VbanStream.Library
