import Mathlib.Tactic

/-! Serial numbers on the 32-bit circle: forward distances, and how a circular
comparison recovers the order of numbers that were wrapped. -/

namespace VbanStream.Library

/-- How many increments lead from one serial number to another. -/
def ahead (start target : UInt32) : Nat := (target - start).toNat

theorem ahead_eq (start target : UInt32) :
    ahead start target = (target.toNat + 2 ^ 32 - start.toNat) % 2 ^ 32 := by
  have low := start.toNat_lt
  rw [ahead, UInt32.toNat_sub]
  congr 1
  omega

@[simp] theorem ahead_self (start : UInt32) : ahead start start = 0 := by simp [ahead]

theorem ahead_eq_zero {start target : UInt32} : ahead start target = 0 ↔ target = start := by
  have low := start.toNat_lt
  have high := target.toNat_lt
  rw [ahead_eq, ← UInt32.toNat_inj]
  omega

/-- Less than half a turn ahead. -/
def Newer (old new : UInt32) : Prop := 0 < ahead old new ∧ ahead old new < 2 ^ 31

theorem newer_iff {old new : UInt32} : Newer old new ↔ new ≠ old ∧ ¬ new - old ≥ 0x80000000 := by
  rw [Newer, Nat.pos_iff_ne_zero, Ne, ahead_eq_zero, ge_iff_le, UInt32.le_iff_toNat_le, Nat.not_le]
  rfl

theorem add_ahead (start target : UInt32) : start + UInt32.ofNat (ahead start target) = target := by
  simp [ahead, UInt32.add_comm start]

theorem ahead_succ {start target : UInt32} (apart : target ≠ start) :
    ahead (start + 1) target = ahead start target - 1 := by
  have distinct := mt UInt32.toNat_inj.mp apart
  have low := start.toNat_lt
  have high := target.toNat_lt
  simp only [ahead_eq, UInt32.toNat_add, UInt32.reduceToNat]
  omega

theorem ahead_of_le {start middle target : UInt32}
    (between : ahead start middle ≤ ahead start target) :
    ahead middle target = ahead start target - ahead start middle := by
  have low := start.toNat_lt
  have mid := middle.toNat_lt
  have high := target.toNat_lt
  simp only [ahead_eq] at *
  omega

/-- The serial number of a count that is kept without wrapping. -/
def serial (start : UInt32) (count : Nat) : UInt32 := start + UInt32.ofNat count

@[simp] theorem serial_zero (start : UInt32) : serial start 0 = start := by simp [serial]

theorem serial_add (start : UInt32) (first second : Nat) :
    serial start (first + second) = serial start first + UInt32.ofNat second := by
  simp [serial, UInt32.ofNat_add, UInt32.add_assoc]

theorem serial_succ (start : UInt32) (count : Nat) :
    serial start (count + 1) = serial start count + 1 := by
  rw [serial_add]
  rfl

theorem serial_toNat (start : UInt32) (count : Nat) :
    (serial start count).toNat = (start.toNat + count) % 2 ^ 32 := by
  simp only [serial, UInt32.toNat_add, UInt32.toNat_ofNat']
  omega

/-- Equal serial numbers are whole turns of the circle apart. -/
theorem serial_eq_iff {start : UInt32} {first second : Nat} :
    serial start first = serial start second ↔ first % 2 ^ 32 = second % 2 ^ 32 := by
  have low := start.toNat_lt
  rw [← UInt32.toNat_inj, serial_toNat, serial_toNat]
  omega

theorem ahead_serial (start : UInt32) {first second : Nat} (order : first ≤ second)
    (near : second < first + 2 ^ 32) :
    ahead (serial start first) (serial start second) = second - first := by
  simp only [ahead_eq, serial_toNat]
  omega

/-- A number less than half a turn behind looks at least half a turn ahead. -/
theorem ahead_serial_behind (start : UInt32) {first second : Nat} (behind : second < first)
    (near : first ≤ second + 2 ^ 31) :
    2 ^ 31 ≤ ahead (serial start first) (serial start second) := by
  simp only [ahead_eq, serial_toNat]
  omega

end VbanStream.Library
