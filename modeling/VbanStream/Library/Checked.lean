import VbanStream.Library.Memory

namespace VbanStream.Library

variable {α β : Type}

/-- The `size` bytes at `offset`, unless one of them lies outside the string. -/
def readWithin (bytes : List UInt8) (offset size : Nat) : Option (List UInt8) :=
  if offset + size ≤ bytes.length then some ((bytes.drop offset).take size) else none

theorem byte_within {bytes : List UInt8} {index : Nat} (inside : index < bytes.length) :
    bytes[index]? = some (Memory.ofBytes bytes index) := by
  rw [Memory.ofBytes, List.getD_eq_getElem _ _ inside, List.getElem?_eq_getElem inside]

theorem read_ofBytes {bytes : List UInt8} {offset size : Nat}
    (inside : offset + size ≤ bytes.length) :
    (Memory.ofBytes bytes).read offset size = (bytes.drop offset).take size := by
  apply List.ext_getElem
  · simp only [Memory.length_read, List.length_take, List.length_drop]
    omega
  · intro index bound _
    rw [Memory.length_read] at bound
    rw [Memory.getElem_read, Memory.ofBytes, List.getD_eq_getElem _ _ (by omega),
      List.getElem_take, List.getElem_drop]

theorem readWithin_eq {bytes : List UInt8} {offset size : Nat}
    (inside : offset + size ≤ bytes.length) :
    readWithin bytes offset size = some ((Memory.ofBytes bytes).read offset size) := by
  rw [readWithin, if_pos inside, read_ofBytes inside]

/-- Two computations in a row that read inside the bounds. -/
theorem bind_within {first : OptionT Option α} {value : Option α} (inside : first.run = some value)
    {next : α → OptionT Option β} {body : α → Option β}
    (later : ∀ given, value = some given → (next given).run = some (body given)) :
    (first >>= next).run = some (value.bind body) := by
  rw [OptionT.run_bind, inside]
  cases value with
  | none => rfl
  | some given => exact later given rfl

theorem mapM_within {list : List α} {reading : α → OptionT Option β} {body : α → Option β}
    (inside : ∀ value ∈ list, (reading value).run = some (body value)) :
    (list.mapM reading).run = some (list.mapM body) := by
  induction list with
  | nil => rfl
  | cons head rest ih =>
    have later := ih fun value member => inside value (List.mem_cons_of_mem head member)
    rw [List.mapM_cons, List.mapM_cons]
    apply bind_within (inside head List.mem_cons_self)
    intro given _
    exact bind_within later fun others _ => rfl

theorem mapM_eq_map {list : List α} {fallible : α → Option β} (total : α → β)
    (same : ∀ value ∈ list, fallible value = some (total value)) :
    list.mapM fallible = some (list.map total) := by
  induction list with
  | nil => rfl
  | cons head rest ih =>
    have first := same head List.mem_cons_self
    have later := ih fun value member => same value (List.mem_cons_of_mem head member)
    simp [List.mapM_cons, first, later]

theorem mapM_eq_none {list : List α} {fallible : α → Option β} {value : α}
    (member : value ∈ list) (fails : fallible value = none) : list.mapM fallible = none := by
  induction list with
  | nil => cases member
  | cons head rest ih =>
    rw [List.mapM_cons]
    rcases List.mem_cons.mp member with rfl | later
    · rw [fails]; rfl
    · rw [ih later]
      cases fallible head <;> rfl

/-- One of the equally long blocks of a sequence. -/
theorem flatMap_block {block : Nat → List α} {width : Nat}
    (wide : ∀ i, (block i).length = width) {count i : Nat} (inside : i < count) :
    ∃ front back, (List.range count).flatMap block = front ++ (block i ++ back) ∧
      front.length = i * width := by
  induction count with
  | zero => cases inside
  | succ count ih =>
    rw [List.range_succ, List.flatMap_append]
    rcases Nat.lt_succ_iff_lt_or_eq.mp inside with earlier | rfl
    · obtain ⟨front, back, same, length⟩ := ih earlier
      exact ⟨front, back ++ block count, by simp [same], length⟩
    · refine ⟨(List.range i).flatMap block, [], by simp, ?_⟩
      simp [List.length_flatMap, wide]

theorem getElem?_flatMap_block {block : Nat → List α} {width : Nat}
    (wide : ∀ i, (block i).length = width) {count i : Nat} (inside : i < count) {offset : Nat}
    (small : offset < width) :
    ((List.range count).flatMap block)[i * width + offset]? = (block i)[offset]? := by
  obtain ⟨front, back, same, length⟩ := flatMap_block wide inside
  rw [same, ← length, List.getElem?_append_right (Nat.le_add_right ..), Nat.add_sub_cancel_left,
    List.getElem?_append_left (by rwa [wide])]

end VbanStream.Library
