import Mathlib.Tactic

namespace VbanStream.Library

def productWithin (a b : UInt64) : Option UInt64 :=
  if a.toNat * b.toNat < 2 ^ 64 then some (a * b) else none

def sumWithin (a b : UInt64) : Option UInt64 :=
  if a.toNat + b.toNat < 2 ^ 64 then some (a + b) else none

/-- A division fails by zero only. -/
def quotientWithin (a b : UInt64) : Option UInt64 := if b = 0 then none else some (a / b)

/-- A word in a 32-bit `int`. -/
def intWithin (word : UInt64) : Option Int := if word.toNat < 2 ^ 31 then some word.toNat else none

/-- `std::clamp`, for bounds in their order. -/
def clampWithin (value low high : Int) : Option Int :=
  if low ≤ high then some (if value < low then low else if high < value then high else value)
  else none

/-- The numbers of a signed word. -/
def Signed (value : Int) : Prop := -2 ^ 63 ≤ value ∧ value < 2 ^ 63

instance (value : Int) : Decidable (Signed value) := inferInstanceAs (Decidable (_ ∧ _))

def signedProductWithin (a b : Int64) : Option Int64 :=
  if Signed (a.toInt * b.toInt) then some (a * b) else none

def signedSumWithin (a b : Int64) : Option Int64 :=
  if Signed (a.toInt + b.toInt) then some (a + b) else none

theorem productWithin_eq_some {a b c : UInt64} :
    productWithin a b = some c ↔ c.toNat = a.toNat * b.toNat := by
  unfold productWithin
  constructor
  · intro made
    obtain ⟨fits, ⟨⟩⟩ := Option.ite_none_right_eq_some.mp made
    rw [UInt64.toNat_mul, Nat.mod_eq_of_lt fits]
  · intro exact
    have fits : a.toNat * b.toNat < 2 ^ 64 := exact ▸ c.toNat_lt
    rw [if_pos fits, Option.some_inj, ← UInt64.toNat_inj, UInt64.toNat_mul, Nat.mod_eq_of_lt fits,
      exact]

theorem sumWithin_eq_some {a b c : UInt64} :
    sumWithin a b = some c ↔ c.toNat = a.toNat + b.toNat := by
  unfold sumWithin
  constructor
  · intro made
    obtain ⟨fits, ⟨⟩⟩ := Option.ite_none_right_eq_some.mp made
    rw [UInt64.toNat_add, Nat.mod_eq_of_lt fits]
  · intro exact
    have fits : a.toNat + b.toNat < 2 ^ 64 := exact ▸ c.toNat_lt
    rw [if_pos fits, Option.some_inj, ← UInt64.toNat_inj, UInt64.toNat_add, Nat.mod_eq_of_lt fits,
      exact]

theorem productWithin_of_lt {a b : UInt64} (fits : a.toNat * b.toNat < 2 ^ 64) :
    ∃ c, productWithin a b = some c ∧ c.toNat = a.toNat * b.toNat :=
  ⟨a * b, if_pos fits, by rw [UInt64.toNat_mul, Nat.mod_eq_of_lt fits]⟩

theorem sumWithin_of_lt {a b : UInt64} (fits : a.toNat + b.toNat < 2 ^ 64) :
    ∃ c, sumWithin a b = some c ∧ c.toNat = a.toNat + b.toNat :=
  ⟨a + b, if_pos fits, by rw [UInt64.toNat_add, Nat.mod_eq_of_lt fits]⟩

theorem quotientWithin_of_pos {a b : UInt64} (positive : 0 < b.toNat) :
    ∃ c, quotientWithin a b = some c ∧ c.toNat = a.toNat / b.toNat := by
  refine ⟨a / b, if_neg ?_, UInt64.toNat_div a b⟩
  rintro rfl
  exact absurd positive (lt_irrefl 0)

theorem clampWithin_eq {value low high : Int} (ordered : low ≤ high) :
    clampWithin value low high = some (max low (min value high)) := by
  rw [clampWithin, if_pos ordered]
  congr 1
  split
  · omega
  · split <;> omega

theorem Signed.bmod {value : Int} (fits : Signed value) : value.bmod (2 ^ 64) = value := by
  obtain ⟨low, high⟩ := fits
  exact Int.bmod_eq_of_le (by omega) (by omega)

theorem Signed.of_word (word : Int64) : Signed word.toInt := ⟨word.le_toInt, word.toInt_lt⟩

theorem signedProductWithin_eq_some {a b c : Int64} :
    signedProductWithin a b = some c ↔ c.toInt = a.toInt * b.toInt := by
  unfold signedProductWithin
  constructor
  · intro made
    obtain ⟨fits, ⟨⟩⟩ := Option.ite_none_right_eq_some.mp made
    rw [Int64.toInt_mul, fits.bmod]
  · intro exact
    have fits : Signed (a.toInt * b.toInt) := exact ▸ Signed.of_word c
    rw [if_pos fits, Option.some_inj, ← Int64.toInt_inj, Int64.toInt_mul, fits.bmod, exact]

theorem signedSumWithin_eq_some {a b c : Int64} :
    signedSumWithin a b = some c ↔ c.toInt = a.toInt + b.toInt := by
  unfold signedSumWithin
  constructor
  · intro made
    obtain ⟨fits, ⟨⟩⟩ := Option.ite_none_right_eq_some.mp made
    rw [Int64.toInt_add, fits.bmod]
  · intro exact
    have fits : Signed (a.toInt + b.toInt) := exact ▸ Signed.of_word c
    rw [if_pos fits, Option.some_inj, ← Int64.toInt_inj, Int64.toInt_add, fits.bmod, exact]

theorem Signed.of_natAbs {value : Int} (small : value.natAbs < 2 ^ 63) : Signed value := by
  constructor <;> omega

theorem Signed.word {value : Int} (fits : Signed value) : (Int64.ofInt value).toInt = value :=
  Int64.toInt_ofInt_of_le fits.1 fits.2

end VbanStream.Library
