import Mathlib.Tactic

/-! A regulator holds a queue near its target depth. Each round takes one block, or one
item more or less. What has been produced rises by `gain` a round and an item is worth
`unit` of it, but the depth that the regulator sees lags behind and runs ahead. -/

namespace VbanStream.Library

/-- What one round takes from a queue of this depth. -/
def regulate (block margin target depth : Nat) : Nat :=
  if depth > target + margin then block + 1
  else if depth + margin < target ∧ depth ≥ block ∧ block > 1 then block - 1
  else block

theorem regulate_cases (block margin target depth : Nat) :
    (target + margin < depth ∧ regulate block margin target depth = block + 1) ∨
      (depth ≤ target + margin ∧ block ≤ depth ∧ regulate block margin target depth + 1 = block) ∨
      (depth ≤ target + margin ∧ (target ≤ depth + margin ∨ depth < block ∨ block ≤ 1) ∧
        regulate block margin target depth = block) := by
  unfold regulate
  split
  · rename_i full
    exact .inl ⟨full, rfl⟩
  · rename_i spare
    have high := Nat.le_of_not_lt spare
    split
    · rename_i low
      exact .inr (.inl ⟨high, low.2.1, Nat.sub_add_cancel (Nat.le_of_lt low.2.2)⟩)
    · rename_i enough
      refine .inr (.inr ⟨high, ?_, rfl⟩)
      simp only [not_and_or] at enough
      omega

/-- One item a round makes up for the drift, and the target for the errors of sight: the
depth falls short of the produced level by at most `early`, and exceeds it by `excess`. -/
structure Regulated (unit gain block target top early excess : Nat) : Prop where
  positive : 1 < block
  slow : block * unit < gain + unit
  fast : gain < (block + 1) * unit
  short : early ≤ unit
  covered : 2 * block * unit + excess + early ≤ target * unit
  above : target + block + 3 ≤ top

/-- The produced level before a round, with what earlier rounds have taken. -/
structure Level (unit block top early level served : Nat) : Prop where
  lower : (block + served) * unit + early < level + unit
  upper : level < (top + served) * unit

/-- What the regulator sees of it. -/
structure Sighted (unit early excess level served depth : Nat) : Prop where
  low : level ≤ (depth + served) * unit + early
  high : (depth + served) * unit ≤ level + excess

section Round

variable {unit gain block target top early excess level served depth : Nat}

theorem Level.fed (held : Level unit block top early level served)
    (sighted : Sighted unit early excess level served depth) : block ≤ depth := by
  have lower := held.lower
  have low := sighted.low
  have reached : (block + served) * unit < (depth + served + 1) * unit := by
    rw [Nat.succ_mul]
    omega
  have counted := Nat.lt_of_mul_lt_mul_right reached
  omega

/-- Nor does the queue ever grow far above its target. -/
theorem Level.bounded (held : Level unit block top early level served)
    (regulated : Regulated unit gain block target top early excess)
    (high : (depth + served) * unit ≤ level + excess) :
    depth + 2 * block < top + target := by
  have upper := held.upper
  have covered := regulated.covered
  have reached : (depth + served + 2 * block) * unit < (top + served + target) * unit := by
    rw [Nat.add_mul _ (2 * block), Nat.add_mul _ target]
    omega
  have counted := Nat.lt_of_mul_lt_mul_right reached
  omega

theorem Level.round (held : Level unit block top early level served)
    (regulated : Regulated unit gain block target top early excess)
    (sighted : Sighted unit early excess level served depth) :
    Level unit block top early (level + gain)
      (served + regulate block block target depth) := by
  have fed := held.fed sighted
  obtain ⟨lower, upper⟩ := held
  obtain ⟨low, high⟩ := sighted
  obtain ⟨positive, slow, fast, short, covered, above⟩ := regulated
  have top := Nat.mul_le_mul_right unit above
  simp only [Nat.add_mul, Nat.mul_assoc, Nat.one_mul] at *
  rcases regulate_cases block block target depth with
    ⟨full, taken⟩ | ⟨spare, _, taken⟩ | ⟨spare, enough, taken⟩
  · have deep := Nat.mul_le_mul_right unit (Nat.succ_le_of_lt full)
    simp only [Nat.succ_eq_add_one, Nat.add_mul, Nat.one_mul] at deep
    rw [taken]
    constructor
    · simp only [Nat.add_mul, Nat.one_mul]
      omega
    · simp only [Nat.add_mul, Nat.one_mul]
      omega
  · have shallow := Nat.mul_le_mul_right unit spare
    have less := congrArg (· * unit) taken
    simp only [Nat.add_mul, Nat.one_mul] at shallow less
    constructor
    · simp only [Nat.add_mul]
      omega
    · simp only [Nat.add_mul]
      omega
  · have shallow := Nat.mul_le_mul_right unit spare
    have deep : target ≤ depth + block := by omega
    have deep := Nat.mul_le_mul_right unit deep
    simp only [Nat.add_mul] at shallow deep
    rw [taken]
    constructor
    · simp only [Nat.add_mul]
      omega
    · simp only [Nat.add_mul]
      omega

end Round

end VbanStream.Library
