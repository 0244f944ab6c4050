import Mathlib.Tactic
import Mathlib.Algebra.BigOperators.Group.Finset.Basic

namespace VbanStream.Library

open Finset

variable {weight time : ℕ → ℕ} {total whole rate unit : ℕ}

theorem shares_upper (weight : ℕ → ℕ) (total whole count : ℕ) :
    (∑ i ∈ range count, weight i * total / whole) * whole ≤
      (∑ i ∈ range count, weight i) * total := by
  rw [sum_mul, sum_mul]
  apply sum_le_sum
  intro i _
  exact Nat.div_mul_le_self ..

theorem shares_lower (weight : ℕ → ℕ) (total : ℕ) (positive : 0 < whole) (count : ℕ) :
    (∑ i ∈ range count, weight i) * total ≤
      (∑ i ∈ range count, weight i * total / whole + count) * whole := by
  induction count with
  | zero => simp
  | succ count ih =>
    have share : weight count * total ≤ (weight count * total / whole + 1) * whole := by
      rw [Nat.succ_mul]
      exact (Nat.lt_div_mul_add positive).le
    rw [sum_range_succ, sum_range_succ, Nat.add_mul]
    calc (∑ i ∈ range count, weight i) * total + weight count * total
        ≤ (∑ i ∈ range count, weight i * total / whole + count) * whole +
            (weight count * total / whole + 1) * whole := Nat.add_le_add ih share
      _ = _ := by ring

theorem shares_le_total (positive : 0 < whole) {count : ℕ}
    (fits : ∑ i ∈ range count, weight i ≤ whole) :
    ∑ i ∈ range count, weight i * total / whole ≤ total := by
  have upper := shares_upper weight total whole count
  apply Nat.le_of_mul_le_mul_right _ positive
  calc (∑ i ∈ range count, weight i * total / whole) * whole
      ≤ (∑ i ∈ range count, weight i) * total := upper
    _ ≤ whole * total := Nat.mul_le_mul_right _ fits
    _ = total * whole := Nat.mul_comm ..

theorem spaced_lower {gap : ℕ → ℕ} (apart : ∀ k, time k + gap k ≤ time (k + 1)) (count : ℕ) :
    time 0 + ∑ i ∈ range count, gap i ≤ time count := by
  induction count with
  | zero => simp
  | succ count ih =>
    rw [sum_range_succ, ← Nat.add_assoc]
    exact (Nat.add_le_add_right ih _).trans (apart count)

/-- A total that lasts as long as the whole at a rate keeps the weights under the rate, up to
one unit of time for each event and one more. -/
theorem spaced_rate (positive : 0 < whole) (slow : whole * unit ≤ (total + 1) * rate)
    (apart : ∀ k, time k + weight k * total / whole ≤ time (k + 1)) {count : ℕ}
    (fits : ∑ i ∈ range count, weight i ≤ whole) :
    (∑ i ∈ range count, weight i) * unit ≤ (time count - time 0 + (count + 1)) * rate := by
  have spaced := spaced_lower apart count
  have lower := shares_lower weight total positive count
  generalize ∑ i ∈ range count, weight i * total / whole = shares at spaced lower
  generalize ∑ i ∈ range count, weight i = sent at fits lower ⊢
  have paid : sent * (total + 1) ≤ (shares + (count + 1)) * whole := by
    calc sent * (total + 1) = sent * total + sent := Nat.mul_succ ..
      _ ≤ (shares + count) * whole + whole := Nat.add_le_add lower fits
      _ = (shares + (count + 1)) * whole := by ring
  have earned : shares + (count + 1) ≤ time count - time 0 + (count + 1) := by omega
  apply Nat.le_of_mul_le_mul_left _ positive
  calc whole * (sent * unit) = sent * (whole * unit) := by ring
    _ ≤ sent * ((total + 1) * rate) := Nat.mul_le_mul_left _ slow
    _ = sent * (total + 1) * rate := (Nat.mul_assoc ..).symm
    _ ≤ (shares + (count + 1)) * whole * rate := Nat.mul_le_mul_right _ paid
    _ = whole * ((shares + (count + 1)) * rate) := by ring
    _ ≤ whole * ((time count - time 0 + (count + 1)) * rate) := by gcongr

end VbanStream.Library
