import Mathlib.Tactic

namespace VbanStream.Library

theorem cell_inj {size first second : Nat} (ahead : first < second + size)
    (behind : second < first + size) (same : first % size = second % size) : first = second := by
  rcases Nat.le_total first second with order | order
  · have divides := (Nat.modEq_iff_dvd' order).mp same
    have gap := Nat.eq_zero_of_dvd_of_lt divides (by omega)
    omega
  · have divides := (Nat.modEq_iff_dvd' order).mp same.symm
    have gap := Nat.eq_zero_of_dvd_of_lt divides (by omega)
    omega

variable {α : Type*}

/-- The items lie in the cells from position `head` on. -/
def Stored (size : Nat) (cells : Nat → α) (head : Nat) (items : List α) : Prop :=
  ∀ i (bound : i < items.length), cells ((head + i) % size) = items[i]

namespace Stored

variable {size head : Nat} {cells : Nat → α} {items : List α}

theorem nil : Stored size cells head [] := fun _ bound => absurd bound (Nat.not_lt_zero _)

theorem front {item : α} (stored : Stored size cells head (item :: items)) :
    cells (head % size) = item :=
  stored 0 (Nat.zero_lt_succ _)

theorem pop {item : α} (stored : Stored size cells head (item :: items)) :
    Stored size cells (head + 1) items := by
  intro i bound
  have next := stored (i + 1) (Nat.succ_lt_succ bound)
  rwa [Nat.add_right_comm, Nat.add_assoc]

theorem store (stored : Stored size cells head items) (room : items.length < size) (value : α) :
    Stored size (Function.update cells ((head + items.length) % size) value) head items := by
  intro i bound
  have apart : (head + i) % size ≠ (head + items.length) % size := by
    intro same
    have equal := cell_inj (by omega) (by omega) same
    omega
  rw [Function.update_of_ne apart]
  exact stored i bound

theorem push (stored : Stored size cells head items) :
    Stored size cells head (items ++ [cells ((head + items.length) % size)]) := by
  intro i bound
  rw [List.getElem_append]
  split
  · rename_i inside
    exact stored i inside
  · rename_i outside
    have last : i = items.length := by
      rw [List.length_append, List.length_singleton] at bound
      omega
    simp [last]

theorem read (stored : Stored size cells head items) :
    (List.range items.length).map (fun i => cells ((head + i) % size)) = items := by
  apply List.ext_getElem
  · simp
  · intro i left right
    simpa using stored i right

end Stored

end VbanStream.Library
