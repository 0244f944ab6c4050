import Mathlib.Tactic
import Mathlib.Data.Int.Log
import Mathlib.Data.Rat.Floor

/-! Rounding of exact rationals: to integers, and to binary floating-point
formats read and written as exact values. -/

namespace VbanStream.Library

/-- Nearest integer, halves away from zero. -/
def roundHalfAway (value : ℚ) : ℤ :=
  if 0 ≤ value then ⌊value + 1 / 2⌋ else ⌈value - 1 / 2⌉

/-- Nearest integer, halves to the even neighbour. -/
def roundHalfEven (value : ℚ) : ℤ :=
  let low := ⌊value⌋
  if value - low < 1 / 2 then low
  else if 1 / 2 < value - low then low + 1
  else if low % 2 = 0 then low else low + 1

/-- Restrict a number to an interval, as `std::clamp` does. -/
def clamp {α : Type*} [LT α] [DecidableLT α] (value low high : α) : α :=
  if value < low then low else if high < value then high else value

@[simp] theorem roundHalfAway_intCast (value : ℤ) : roundHalfAway (value : ℚ) = value := by
  unfold roundHalfAway
  split
  · rw [Int.floor_eq_iff]
    constructor <;> norm_num
  · rw [Int.ceil_eq_iff]
    constructor <;> norm_num

@[simp] theorem roundHalfEven_intCast (value : ℤ) : roundHalfEven (value : ℚ) = value := by
  simp [roundHalfEven]

theorem clamp_of_mem {value low high : ℚ} (lower : low ≤ value) (upper : value ≤ high) :
    clamp value low high = value := by
  simp [clamp, not_lt.mpr lower, not_lt.mpr upper]

/-- A binary floating-point format: significand bits (the implicit one
included), exponent bits, and the exponent of the smallest normal number. -/
structure BinaryFormat where
  precision : ℕ
  exponentBits : ℕ
  minExponent : ℤ
deriving DecidableEq, Repr

def binary32 : BinaryFormat := ⟨24, 8, -126⟩
def binary64 : BinaryFormat := ⟨53, 11, -1022⟩

namespace BinaryFormat

/-- The exact value of an encoding, `none` for infinities and NaNs. -/
def value (format : BinaryFormat) (bits : ℕ) : Option ℚ :=
  let fractionBits := format.precision - 1
  let fraction := bits % 2 ^ fractionBits
  let exponent := bits / 2 ^ fractionBits % 2 ^ format.exponentBits
  let sign : ℚ := if bits / 2 ^ (fractionBits + format.exponentBits) % 2 = 0 then 1 else -1
  if exponent = 2 ^ format.exponentBits - 1 then none
  else if exponent = 0 then
    some (sign * fraction * 2 ^ (format.minExponent - fractionBits : ℤ))
  else
    some (sign * (2 ^ fractionBits + fraction) *
      2 ^ (format.minExponent + (exponent - 1) - fractionBits : ℤ))

theorem value_eq_none (format : BinaryFormat) {bits : ℕ} : format.value bits = none ↔
    bits / 2 ^ (format.precision - 1) % 2 ^ format.exponentBits = 2 ^ format.exponentBits - 1 := by
  rw [value]
  split
  · simp [*]
  · rename_i finite
    refine iff_of_false ?_ finite
    split <;> exact Option.some_ne_none _

/-- Spacing of the representable numbers around a value. -/
def quantum (format : BinaryFormat) (value : ℚ) : ℚ :=
  2 ^ (max (Int.log 2 |value|) format.minExponent - (format.precision - 1 : ℕ) : ℤ)

/-- Nearest representable number; overflow to infinity is not modelled. -/
def round (format : BinaryFormat) (value : ℚ) : ℚ :=
  roundHalfEven (value / format.quantum value) * format.quantum value

theorem quantum_pos (format : BinaryFormat) (value : ℚ) : 0 < format.quantum value := by
  unfold quantum
  positivity

theorem round_of_multiple (format : BinaryFormat) {value : ℚ} (multiple : ℤ)
    (exact : value = multiple * format.quantum value) : format.round value = value := by
  have positive := format.quantum_pos value
  have quotient : value / format.quantum value = multiple := by
    rw [div_eq_iff positive.ne']
    exact exact
  rw [round, quotient, roundHalfEven_intCast, ← exact]

/-- Fixed-point fractions no wider than the significand are representable. -/
theorem round_fixed (format : BinaryFormat) (numerator : ℤ) {bits : ℕ}
    (fits : bits ≤ format.precision - 1) (normal : format.minExponent ≤ 0)
    (bound : |numerator| ≤ 2 ^ bits) :
    format.round (numerator / 2 ^ bits) = numerator / 2 ^ bits := by
  set value : ℚ := numerator / 2 ^ bits with valueEq
  have atMostOne : |value| ≤ 1 := by
    rw [valueEq, abs_div, abs_of_pos (by positivity : (0 : ℚ) < 2 ^ bits), div_le_one (by positivity)]
    exact_mod_cast bound
  have exponent : Int.log 2 |value| ≤ 0 := by
    rcases (abs_nonneg value).lt_or_eq with positive | zero
    · have mono : Int.log 2 |value| ≤ Int.log 2 (1 : ℚ) := Int.log_mono_right positive atMostOne
      simpa using mono
    · rw [← zero]
      simp
  obtain ⟨shift, shiftEq⟩ : ∃ shift : ℕ, (format.precision - 1 : ℕ) -
      max (Int.log 2 |value|) format.minExponent = (bits + shift : ℕ) := by
    have top : max (Int.log 2 |value|) format.minExponent ≤ 0 := max_le exponent normal
    refine ⟨((format.precision - 1 : ℕ) - max (Int.log 2 |value|) format.minExponent - bits).toNat, ?_⟩
    have room : (bits : ℤ) ≤ (format.precision - 1 : ℕ) := by exact_mod_cast fits
    push_cast
    rw [Int.toNat_of_nonneg (by omega)]
    ring
  have spacing : format.quantum value = 1 / 2 ^ (bits + shift) := by
    have exponentEq : max (Int.log 2 |value|) format.minExponent - (format.precision - 1 : ℕ) =
        -((bits + shift : ℕ) : ℤ) := by rw [← shiftEq]; ring
    rw [quantum, exponentEq, zpow_neg, zpow_natCast, one_div]
  apply format.round_of_multiple (numerator * 2 ^ shift)
  rw [spacing, valueEq, pow_add]
  push_cast
  field_simp

/-- A significand with its sign, at an exponent that suits it, is representable. -/
theorem round_significand (format : BinaryFormat) {sign : ℤ} (unit : |sign| = 1)
    (significand : ℕ) (exponent : ℤ) (fits : significand < 2 ^ (format.precision - 1 + 1))
    (low : format.minExponent ≤ exponent)
    (normal : significand < 2 ^ (format.precision - 1) → exponent = format.minExponent) {value : ℚ}
    (same : value = sign * significand * 2 ^ (exponent - (format.precision - 1 : ℕ) : ℤ)) :
    format.round value = value := by
  rcases Nat.eq_zero_or_pos significand with rfl | positive
  · apply format.round_of_multiple 0
    simp [same]
  · suffices spacing : max (Int.log 2 |value|) format.minExponent = exponent by
      apply format.round_of_multiple (sign * significand)
      rw [quantum, spacing, same]
      push_cast
      rfl
    set p := format.precision - 1 with precision
    have size : |value| = significand * 2 ^ (exponent - p : ℤ) := by
      have one : |(sign : ℚ)| = 1 := by exact_mod_cast unit
      rw [same, abs_mul, abs_mul, one, one_mul, Nat.abs_cast, abs_of_pos (by positivity)]
    have scaled (bits : ℕ) : (2 : ℚ) ^ (exponent - p : ℤ) * 2 ^ bits = 2 ^ (exponent - p + bits) := by
      rw [zpow_add₀ (by norm_num), zpow_natCast]
    have some : 0 < |value| := by rw [size]; positivity
    by_cases full : 2 ^ p ≤ significand
    · have above : (2 : ℚ) ^ exponent ≤ |value| := by
        calc (2 : ℚ) ^ exponent = 2 ^ (exponent - p : ℤ) * 2 ^ p := by rw [scaled]; ring_nf
          _ ≤ 2 ^ (exponent - p : ℤ) * significand := by
            gcongr
            exact_mod_cast full
          _ = |value| := by rw [size, mul_comm]
      have below : |value| < (2 : ℚ) ^ (exponent + 1) := by
        calc |value| = 2 ^ (exponent - p : ℤ) * significand := by rw [size, mul_comm]
          _ < 2 ^ (exponent - p : ℤ) * 2 ^ (p + 1) := by
            gcongr
            exact_mod_cast fits
          _ = 2 ^ (exponent + 1) := by rw [scaled]; push_cast; ring_nf
      have least : exponent ≤ Int.log 2 |value| :=
        (Int.zpow_le_iff_le_log (by norm_num) some).mp above
      have most : Int.log 2 |value| < exponent + 1 :=
        (Int.lt_zpow_iff_log_lt (by norm_num) some).mp below
      rw [max_eq_left (low.trans least)]
      exact le_antisymm (Int.lt_add_one_iff.mp most) least
    · have below : |value| < (2 : ℚ) ^ exponent := by
        calc |value| = 2 ^ (exponent - p : ℤ) * significand := by rw [size, mul_comm]
          _ < 2 ^ (exponent - p : ℤ) * 2 ^ p := by
            gcongr
            exact_mod_cast Nat.lt_of_not_le full
          _ = 2 ^ exponent := by rw [scaled]; ring_nf
      have most : Int.log 2 |value| < exponent :=
        (Int.lt_zpow_iff_log_lt (by norm_num) some).mp below
      rw [normal (Nat.lt_of_not_le full)] at most ⊢
      exact max_eq_right most.le

theorem round_value (format : BinaryFormat) {bits : ℕ} {value : ℚ}
    (finite : format.value bits = some value) : format.round value = value := by
  simp only [BinaryFormat.value] at finite
  generalize signed : (if bits / 2 ^ (format.precision - 1 + format.exponentBits) % 2 = 0 then
    (1 : ℚ) else -1) = sign at finite
  obtain ⟨unit, whole, rfl⟩ : ∃ unit : ℤ, |unit| = 1 ∧ sign = unit := by
    split at signed
    · exact ⟨1, by norm_num, by simp [← signed]⟩
    · exact ⟨-1, by norm_num, by simp [← signed]⟩
  have small : bits % 2 ^ (format.precision - 1) < 2 ^ (format.precision - 1) :=
    Nat.mod_lt _ (by positivity)
  generalize bits % 2 ^ (format.precision - 1) = fraction at finite small
  generalize bits / 2 ^ (format.precision - 1) % 2 ^ format.exponentBits = exponent at finite
  split at finite
  · cases finite
  · split at finite
    · apply format.round_significand whole fraction _ (by omega) le_rfl (fun _ => rfl)
      exact (Option.some.inj finite).symm
    · have least : (1 : ℤ) ≤ exponent := by omega
      apply format.round_significand whole (2 ^ (format.precision - 1) + fraction)
        (format.minExponent + (exponent - 1)) (by omega) (by omega) (fun small => by omega)
      rw [← Option.some.inj finite]
      push_cast
      rfl
end BinaryFormat

end VbanStream.Library
