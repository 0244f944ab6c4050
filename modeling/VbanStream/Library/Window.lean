import VbanStream.Library.Slots

/-! A ring of tagged cells stands for a map from time to value, from a cursor on. Times
enter less than one turn ahead of the cursor, so a cell is taken over only by a later time. -/

namespace VbanStream.Library

variable {α : Type*}

/-- A cell and the time it was written for; `-1` marks an empty one. -/
structure Tagged (α : Type*) where
  tag : Int
  value : α

/-- The cell of a time that is not negative. -/
def cellAt (size : Nat) (time : Int) : Nat := time.toNat % size

theorem cellAt_inj {size : Nat} {first second : Int} (early : 0 ≤ first) (late : 0 ≤ second)
    (ahead : first < second + size) (behind : second < first + size)
    (same : cellAt size first = cellAt size second) : first = second := by
  have equal := cell_inj (by omega) (by omega) same
  omega

/-- From the cursor on, the cells hold what is planned; before it they may hold less. -/
structure Represents (size : Nat) (cells : Nat → Tagged α) (cursor : Int)
    (planned : Int → Option α) : Prop where
  nonneg : 0 ≤ cursor
  tagged : ∀ cell, (cells cell).tag ≠ -1 → planned (cells cell).tag = some (cells cell).value
  live : ∀ time value, cursor ≤ time → planned time = some value →
    cells (cellAt size time) = ⟨time, value⟩ ∧ time < cursor + size

namespace Represents

variable {size : Nat} {cells : Nat → Tagged α} {cursor time : Int} {planned : Int → Option α}

theorem blank (nonneg : 0 ≤ cursor) (empty : ∀ cell, (cells cell).tag = -1) :
    Represents size cells cursor fun _ => none :=
  ⟨nonneg, fun cell marked => absurd (empty cell) marked, nofun⟩

theorem lookup (represents : Represents size cells cursor planned) (reached : cursor ≤ time) :
    planned time = if (cells (cellAt size time)).tag = time
      then some (cells (cellAt size time)).value else none := by
  have nonneg := represents.nonneg
  split
  · rename_i same
    have marked : (cells (cellAt size time)).tag ≠ -1 := by omega
    rw [← represents.tagged _ marked, same]
  · rename_i other
    cases found : planned time with
    | none => rfl
    | some value =>
      rw [(represents.live time value reached found).1] at other
      exact absurd rfl other

theorem advance (represents : Represents size cells cursor planned) {later : Int}
    (order : cursor ≤ later) : Represents size cells later planned := by
  refine ⟨represents.nonneg.trans order, represents.tagged, ?_⟩
  intro time value reached found
  obtain ⟨held, near⟩ := represents.live time value (order.trans reached) found
  exact ⟨held, by omega⟩

/-- A time inside the window that is not planned yet. -/
theorem store (represents : Represents size cells cursor planned) (reached : cursor ≤ time)
    (near : time < cursor + size) (fresh : planned time = none) (value : α) :
    Represents size (Function.update cells (cellAt size time) ⟨time, value⟩) cursor
      (Function.update planned time (some value)) := by
  have nonneg := represents.nonneg
  refine ⟨nonneg, ?_, ?_⟩
  · intro cell marked
    by_cases here : cell = cellAt size time
    · subst here
      simp
    · rw [Function.update_of_ne here] at marked ⊢
      have kept := represents.tagged cell marked
      have other : (cells cell).tag ≠ time := by
        intro same
        rw [same, fresh] at kept
        cases kept
      rw [Function.update_of_ne other, kept]
  · intro other found ahead plan
    by_cases same : other = time
    · subst same
      simp only [Function.update_self, Option.some.injEq] at plan
      subst plan
      exact ⟨Function.update_self .., near⟩
    · rw [Function.update_of_ne same] at plan
      obtain ⟨held, inside⟩ := represents.live other found ahead plan
      have apart : cellAt size other ≠ cellAt size time := fun equal =>
        same (cellAt_inj (by omega) (by omega) (by omega) (by omega) equal)
      rw [Function.update_of_ne apart]
      exact ⟨held, inside⟩

theorem take (represents : Represents size cells cursor planned) (value : α) :
    Represents size (Function.update cells (cellAt size cursor) ⟨-1, value⟩) (cursor + 1)
      planned := by
  have nonneg := represents.nonneg
  refine ⟨by omega, ?_, ?_⟩
  · intro cell marked
    by_cases here : cell = cellAt size cursor
    · rw [here, Function.update_self] at marked
      exact absurd rfl marked
    · rw [Function.update_of_ne here] at marked ⊢
      exact represents.tagged cell marked
  · intro time found reached plan
    obtain ⟨held, inside⟩ := represents.live time found (by omega) plan
    have apart : cellAt size time ≠ cellAt size cursor := by
      intro equal
      have same := cellAt_inj (by omega) (by omega) (by omega) (by omega) equal
      omega
    rw [Function.update_of_ne apart]
    exact ⟨held, by omega⟩

end Represents

end VbanStream.Library
