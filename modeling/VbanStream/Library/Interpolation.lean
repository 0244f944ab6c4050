import Mathlib.Tactic
import Mathlib.Algebra.Module.Rat

/-! Linear interpolation between the neighbours of a list, and the places at which a sequence
of blocks is read when each block is stretched to another length. -/

namespace VbanStream.Library

section Between

variable {V : Type*} [AddCommGroup V] [Module ℚ V]

/-- `value` is what lies at `place` between two neighbours of the list. -/
def Between (points : List V) (place : ℚ) (value : V) : Prop :=
  ∃ (k : ℕ) (weight : ℚ) (left right : V), points[k]? = some left ∧ points[k + 1]? = some right ∧
    0 ≤ weight ∧ weight ≤ 1 ∧ place = k + weight ∧ value = (1 - weight) • left + weight • right

variable {points : List V} {place : ℚ} {value : V}

theorem Between.append (between : Between points place value) (back : List V) :
    Between (points ++ back) place value := by
  obtain ⟨k, weight, left, right, below, above, rest⟩ := between
  obtain ⟨inside, _⟩ := List.getElem?_eq_some_iff.mp above
  refine ⟨k, weight, left, right, ?_, ?_, rest⟩
  · rwa [List.getElem?_append_left (by omega)]
  · rwa [List.getElem?_append_left inside]

theorem Between.prepend (between : Between points place value) (front : List V) :
    Between (front ++ points) (front.length + place) value := by
  obtain ⟨k, weight, left, right, below, above, low, high, rfl, same⟩ := between
  refine ⟨front.length + k, weight, left, right, ?_, ?_, low, high, ?_, same⟩
  · rwa [List.getElem?_append_right (by omega), Nat.add_sub_cancel_left]
  · rwa [List.getElem?_append_right (by omega), Nat.add_assoc, Nat.add_sub_cancel_left]
  · push_cast
    ring

theorem between_point {k : ℕ} (found : points[k + 1]? = some value) :
    Between points (k + 1) value := by
  obtain ⟨inside, _⟩ := List.getElem?_eq_some_iff.mp found
  refine ⟨k, 1, points[k], value, List.getElem?_eq_getElem (by omega), found, zero_le_one, le_rfl,
    rfl, ?_⟩
  simp

/-- A neighbour above that is held back at the last point still gives what lies between two
neighbours, up to the last point. -/
theorem between_held {before left right : V} {k : ℕ} (low : k ≤ place) (near : place < k + 1)
    (high : place ≤ points.length) (below : (before :: points)[k]? = some left)
    (above : points[min k (points.length - 1)]? = some right) :
    Between (before :: points) place ((1 - (place - k)) • left + (place - k) • right) := by
  obtain ⟨inside, _⟩ := List.getElem?_eq_some_iff.mp above
  have most : k ≤ points.length := by exact_mod_cast low.trans high
  rcases most.lt_or_eq with inner | rfl
  · rw [Nat.min_eq_left (by omega)] at above
    exact ⟨k, place - k, left, right, below, above, by linarith, by linarith, by ring, rfl⟩
  · obtain rfl : place = points.length := le_antisymm high low
    obtain ⟨count, size⟩ : ∃ count, points.length = count + 1 :=
      ⟨points.length - 1, by omega⟩
    rw [Nat.min_eq_right (by omega), size, Nat.add_sub_cancel] at above
    have found : (before :: points)[count + 1]? = some right := above
    have same : left = right := Option.some.inj (below.symm.trans (size ▸ found))
    rw [sub_self, sub_zero, one_smul, zero_smul, add_zero, same, size, Nat.cast_succ]
    exact between_point found

end Between

section Places

/-- The places of a block that follows `before` points. The last one is the block's last point. -/
def stretched (before : ℕ) (shape : ℕ × ℕ) : List ℚ :=
  (List.range shape.2).map fun i => before + ((i + 1 : ℕ) * (shape.1 : ℚ) / shape.2 - 1)

/-- The places of one block after the other. -/
def places : ℕ → List (ℕ × ℕ) → List ℚ
  | _, [] => []
  | before, shape :: rest => stretched before shape ++ places (before + shape.1) rest

/-- Forward, by two points at most. -/
def Onward (one next : ℚ) : Prop := one < next ∧ next ≤ one + 2

/-- A block of some points that is not shrunk to less than half. -/
def Shape (shape : ℕ × ℕ) : Prop := 0 < shape.1 ∧ 0 < shape.2 ∧ shape.1 ≤ 2 * shape.2

variable {shape : ℕ × ℕ} {before : ℕ}

@[simp] theorem length_stretched (before : ℕ) (shape : ℕ × ℕ) :
    (stretched before shape).length = shape.2 := by
  simp [stretched]

theorem stretched_shift (before : ℕ) (shape : ℕ × ℕ) :
    stretched before shape = (stretched 0 shape).map fun place : ℚ => before + place := by
  simp [stretched]

theorem stretched_last (before : ℕ) (some : 0 < shape.2) :
    (stretched before shape).getLast? = .some (before + shape.1 - 1 : ℚ) := by
  have nonzero : (shape.2 : ℚ) ≠ 0 := Nat.cast_ne_zero.mpr some.ne'
  obtain ⟨count, same⟩ := Nat.exists_eq_add_of_lt some
  rw [Nat.zero_add] at same
  rw [stretched, same, List.range_succ, List.map_append, List.map_singleton,
    List.getLast?_concat, ← same, mul_div_cancel_left₀ _ nonzero, ← add_sub_assoc]

theorem stretched_onward (before : ℕ) (shaped : Shape shape) :
    ((before - 1 : ℚ) :: stretched before shape).IsChain Onward := by
  obtain ⟨some, room, wide⟩ := shaped
  have positive : (0 : ℚ) < shape.2 := Nat.cast_pos.mpr room
  have step : (0 : ℚ) < shape.1 / shape.2 ∧ (shape.1 : ℚ) / shape.2 ≤ 2 := by
    refine ⟨div_pos (Nat.cast_pos.mpr some) positive, ?_⟩
    rw [div_le_iff₀ positive]
    exact_mod_cast wide
  have all : (before - 1 : ℚ) :: stretched before shape =
      (List.range (shape.2 + 1)).map fun i : ℕ => before + (i * (shape.1 : ℚ) / shape.2 - 1) := by
    rw [List.range_succ_eq_map, List.map_cons, List.map_map, stretched]
    simp [Function.comp_def]
    ring
  rw [all, List.isChain_map, List.isChain_range_succ]
  intro i _
  have next : ((i + 1 : ℕ) * (shape.1 : ℚ) / shape.2) =
      i * (shape.1 : ℚ) / shape.2 + shape.1 / shape.2 := by
    push_cast
    ring
  rw [Onward, Nat.succ_eq_add_one, next]
  constructor <;> linarith [step.1, step.2]

theorem places_onward (shapes : List (ℕ × ℕ)) (shaped : ∀ shape ∈ shapes, Shape shape)
    (before : ℕ) : ((before - 1 : ℚ) :: places before shapes).IsChain Onward := by
  induction shapes generalizing before with
  | nil => exact List.isChain_singleton _
  | cons shape rest ih =>
    have first := shaped shape List.mem_cons_self
    have one := stretched_onward before first
    have later := ih (fun other member => shaped other (List.mem_cons_of_mem _ member))
      (before + shape.1)
    obtain ⟨joint, later⟩ := List.isChain_cons.mp later
    rw [places, ← List.cons_append]
    apply List.IsChain.append one later
    intro last final next begins
    rw [List.getLast?_cons, stretched_last before first.2.1, Option.getD_some,
      Option.mem_some_iff] at final
    have onward := joint next begins
    push_cast at onward
    exact final ▸ onward

theorem places_last (shapes : List (ℕ × ℕ)) (shaped : ∀ shape ∈ shapes, Shape shape)
    (some : shapes ≠ []) (before : ℕ) :
    (places before shapes).getLast? = .some (before + (shapes.map Prod.fst).sum - 1 : ℚ) := by
  induction shapes generalizing before with
  | nil => exact absurd rfl some
  | cons shape rest ih =>
    have first := shaped shape List.mem_cons_self
    rw [places, List.getLast?_append]
    by_cases more : rest = []
    · rw [more, places, stretched_last before first.2.1]
      simp
    · rw [ih (fun other member => shaped other (List.mem_cons_of_mem _ member)) more]
      simp [add_assoc]

theorem places_shift (before : ℕ) (shapes : List (ℕ × ℕ)) :
    places before shapes = (places 0 shapes).map fun place : ℚ => before + place := by
  induction shapes generalizing before with
  | nil => rfl
  | cons shape rest ih =>
    rw [places, places, List.map_append, ← stretched_shift, ih (before + shape.1),
      ih (0 + shape.1), List.map_map]
    simp [Function.comp_def, add_assoc]

section Unchanged

variable {V : Type*} [AddCommGroup V] [Module ℚ V]

theorem between_points (before : V) (points : List V) :
    List.Forall₂ (fun place value => Between (before :: points) (place + 1) value)
      (stretched 0 (points.length, points.length)) points := by
  rw [List.forall₂_iff_get]
  refine ⟨by simp, fun i within inside => ?_⟩
  have nonzero : (points.length : ℚ) ≠ 0 := Nat.cast_ne_zero.mpr (by omega)
  have place : (stretched 0 (points.length, points.length)).get ⟨i, within⟩ = (i : ℚ) := by
    simp [stretched, mul_div_cancel_right₀ _ nonzero]
  rw [place]
  exact between_point (List.getElem?_eq_getElem inside)

end Unchanged

end Places

end VbanStream.Library
