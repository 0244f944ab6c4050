import Mathlib.Tactic
import Mathlib.Data.List.Basic
import Mathlib.Data.List.GetD

/-! Memory behind a pointer: total byte reads, block writes at an offset, and
the little-endian layout of fixed-width numbers. -/

namespace VbanStream.Library

/-- The bytes at and after a pointer. Reads are total; a size travels separately. -/
abbrev Memory := Nat → UInt8

namespace Memory

/-- The memory behind a pointer to the first byte of a string. -/
def ofBytes (bytes : List UInt8) : Memory := fun index => bytes.getD index 0

/-- The `size` bytes found at `offset`. -/
def read (memory : Memory) (offset size : Nat) : List UInt8 :=
  (List.range size).map fun index => memory (offset + index)

/-- Copy a block of bytes to `offset`; every other byte stays. -/
def write (memory : Memory) (offset : Nat) (bytes : List UInt8) : Memory := fun index =>
  if offset ≤ index ∧ index < offset + bytes.length then bytes.getD (index - offset) 0
  else memory index

/-- Set `size` bytes at `offset` to one value. -/
def fill (memory : Memory) (offset size : Nat) (value : UInt8) : Memory :=
  memory.write offset (List.replicate size value)

@[simp] theorem length_read (memory : Memory) (offset size : Nat) :
    (memory.read offset size).length = size := by simp [read]

@[simp] theorem getElem_read (memory : Memory) (offset size index : Nat)
    (bound : index < (memory.read offset size).length) :
    (memory.read offset size)[index] = memory (offset + index) := by simp [read]

theorem read_congr {first second : Memory} {offset size : Nat}
    (same : ∀ index, index < size → first (offset + index) = second (offset + index)) :
    first.read offset size = second.read offset size := by
  apply List.map_congr_left
  intro index member
  exact same index (List.mem_range.mp member)

theorem read_append (memory : Memory) (offset first second : Nat) :
    memory.read offset (first + second) =
      memory.read offset first ++ memory.read (offset + first) second := by
  simp [read, List.range_add, List.map_append, List.map_map, Function.comp_def, Nat.add_assoc]

theorem write_inside (memory : Memory) (offset : Nat) (bytes : List UInt8) {index : Nat}
    (bound : index < bytes.length) : memory.write offset bytes (offset + index) = bytes[index] := by
  simp [write, bound]

theorem write_outside (memory : Memory) (offset : Nat) (bytes : List UInt8) {index : Nat}
    (outside : index < offset ∨ offset + bytes.length ≤ index) :
    memory.write offset bytes index = memory index := by
  simp only [write]
  rw [if_neg (by omega)]

theorem read_write (memory : Memory) (offset : Nat) (bytes : List UInt8) :
    (memory.write offset bytes).read offset bytes.length = bytes := by
  apply List.ext_getElem (by simp)
  intro index _ bound
  simp [write_inside _ _ _ bound]

theorem read_write_outside (memory : Memory) (offset : Nat) (bytes : List UInt8) {start size : Nat}
    (outside : start + size ≤ offset ∨ offset + bytes.length ≤ start) :
    (memory.write offset bytes).read start size = memory.read start size := by
  apply read_congr
  intro index bound
  exact write_outside _ _ _ (by omega)

theorem write_present (memory : Memory) (offset : Nat) {bytes : List UInt8}
    (present : memory.read offset bytes.length = bytes) : memory.write offset bytes = memory := by
  funext index
  by_cases inside : offset ≤ index ∧ index < offset + bytes.length
  · obtain ⟨place, rfl⟩ := Nat.exists_eq_add_of_le inside.1
    have bound : place < bytes.length := by omega
    have found := memory.getElem_read offset bytes.length place (by simpa using bound)
    rw [memory.write_inside offset bytes bound, ← found]
    exact (List.getElem_of_eq present _).symm
  · exact memory.write_outside offset bytes (by omega)

theorem write_append (memory : Memory) (offset : Nat) (first second : List UInt8) :
    (memory.write offset first).write (offset + first.length) second =
      memory.write offset (first ++ second) := by
  funext index
  simp only [write, List.length_append]
  by_cases early : index < offset + first.length
  · rw [if_neg (by omega)]
    by_cases inside : offset ≤ index
    · rw [if_pos ⟨inside, early⟩, if_pos (by omega), List.getD_append _ _ _ _ (by omega)]
    · rw [if_neg (by omega), if_neg (by omega)]
  · by_cases inside : index < offset + first.length + second.length
    · rw [if_pos (by omega), if_pos (by omega), List.getD_append_right _ _ _ _ (by omega)]
      congr 1
      omega
    · rw [if_neg (by omega), if_neg (by omega), if_neg (by omega)]

theorem write_write (memory : Memory) (offset : Nat) {first second : List UInt8}
    (same : second.length = first.length) :
    (memory.write offset first).write offset second = memory.write offset second := by
  funext index
  simp only [write, same]
  split <;> rfl

theorem write_comm (memory : Memory) {first second : Nat} {low high : List UInt8}
    (apart : first + low.length ≤ second) :
    (memory.write first low).write second high = (memory.write second high).write first low := by
  funext index
  simp only [write]
  by_cases early : index < second
  · rw [if_neg (by omega)]
    split
    · rfl
    · rw [if_neg (by omega)]
  · have outside : ¬ (first ≤ index ∧ index < first + low.length) := by omega
    rw [if_neg outside, if_neg outside]

/-- A block written over the middle of a longer one. -/
theorem write_over (memory : Memory) (offset : Nat) (front middle back fresh : List UInt8)
    (same : fresh.length = middle.length) :
    (memory.write offset (front ++ (middle ++ back))).write (offset + front.length) fresh =
      memory.write offset (front ++ (fresh ++ back)) := by
  have apart : offset + front.length + fresh.length ≤ offset + front.length + middle.length :=
    (congrArg _ same).le
  rw [← write_append, ← write_append, ← write_comm _ apart, write_write _ _ same, ← same,
    write_append, write_append]

theorem read_write_middle (memory : Memory) (offset : Nat) (front middle back : List UInt8) :
    (memory.write offset (front ++ (middle ++ back))).read (offset + front.length) middle.length =
      middle := by
  rw [← write_append, ← write_append, read_write_outside _ _ _ (.inl le_rfl), read_write]

theorem ofBytes_read (memory : Memory) {size index : Nat} (bound : index < size) :
    ofBytes (memory.read 0 size) index = memory index := by
  simp [ofBytes, List.getD_eq_getElem?_getD, read, bound]

end Memory

/-- The number whose bytes are listed lowest first. -/
def littleEndian : List UInt8 → Nat
  | [] => 0
  | byte :: rest => byte.toNat + 256 * littleEndian rest

theorem littleEndian_lt (bytes : List UInt8) : littleEndian bytes < 256 ^ bytes.length := by
  induction bytes with
  | nil => exact Nat.one_pos
  | cons byte rest ih =>
    have small := byte.toNat_lt
    rw [littleEndian, List.length_cons, Nat.pow_succ']
    omega

/-- The lowest `count` bytes of a number, lowest first. -/
def littleEndianBytes : Nat → Nat → List UInt8
  | 0, _ => []
  | count + 1, value => UInt8.ofNat value :: littleEndianBytes count (value / 256)

@[simp] theorem length_littleEndianBytes (count value : Nat) :
    (littleEndianBytes count value).length = count := by
  induction count generalizing value with
  | zero => rfl
  | succ count ih => simp [littleEndianBytes, ih]

theorem littleEndian_littleEndianBytes (count value : Nat) :
    littleEndian (littleEndianBytes count value) = value % 256 ^ count := by
  induction count generalizing value with
  | zero => simp [littleEndianBytes, littleEndian, Nat.mod_one]
  | succ count ih =>
    have head : (UInt8.ofNat value).toNat = value % 256 := by simp
    simp only [littleEndianBytes, littleEndian, ih, head, Nat.pow_succ']
    exact (Nat.mod_mul).symm

end VbanStream.Library
