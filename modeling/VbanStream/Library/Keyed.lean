import Mathlib.Tactic
import Mathlib.Data.List.Nodup

/-! Finite maps whose key is a field of the stored value. Distinct keys are part
of the type, so a lookup never has two answers. -/

namespace VbanStream.Library

structure Keyed {α κ : Type*} (key : α → κ) where
  values : List α
  distinct : (values.map key).Nodup

namespace Keyed

variable {α κ : Type*} {key : α → κ}

@[ext] theorem ext {first second : Keyed key} (same : first.values = second.values) :
    first = second := by
  cases first
  cases second
  cases same
  rfl

instance : Membership α (Keyed key) := ⟨fun map value => value ∈ map.values⟩

theorem mem_def {map : Keyed key} {value : α} : value ∈ map ↔ value ∈ map.values := Iff.rfl

def empty : Keyed key := ⟨[], List.nodup_nil⟩

instance : EmptyCollection (Keyed key) := ⟨empty⟩

def size (map : Keyed key) : Nat := map.values.length

def isEmpty (map : Keyed key) : Bool := map.values.isEmpty

@[simp] theorem not_mem_empty (value : α) : value ∉ (∅ : Keyed key) := List.not_mem_nil

@[simp] theorem size_empty : (∅ : Keyed key).size = 0 := rfl

@[simp] theorem values_empty : (∅ : Keyed key).values = [] := rfl

theorem isEmpty_iff {map : Keyed key} : map.isEmpty = true ↔ map = ∅ := by
  constructor
  · intro none
    exact ext (List.isEmpty_iff.mp none)
  · rintro rfl
    rfl

theorem unique {map : Keyed key} {first second : α} (one : first ∈ map) (two : second ∈ map)
    (same : key first = key second) : first = second :=
  List.inj_on_of_nodup_map map.distinct one two same

section Lookup

variable [DecidableEq κ]

def find? (map : Keyed key) (name : κ) : Option α :=
  map.values.find? fun value => key value = name

def contains (map : Keyed key) (name : κ) : Bool := (map.find? name).isSome

/-- Insert a value unless its key is taken. -/
def emplace (map : Keyed key) (value : α) : Keyed key :=
  if fresh : key value ∈ map.values.map key then map
  else ⟨map.values ++ [value], by
    rw [List.map_append, List.nodup_append]
    refine ⟨map.distinct, List.nodup_singleton _, ?_⟩
    intro first one second two same
    simp only [List.map_cons, List.map_nil, List.mem_singleton] at two
    exact fresh (by rw [← two, ← same]; exact one)⟩

def erase (map : Keyed key) (name : κ) : Keyed key :=
  ⟨map.values.filter fun value => key value ≠ name,
    (List.filter_sublist.map key).nodup map.distinct⟩

theorem find?_eq_some {map : Keyed key} {name : κ} {value : α} :
    map.find? name = some value ↔ value ∈ map ∧ key value = name := by
  constructor
  · intro found
    exact ⟨List.mem_of_find?_eq_some found, by simpa using List.find?_some found⟩
  · rintro ⟨member, rfl⟩
    cases found : map.find? (key value) with
    | none =>
      have missing := List.find?_eq_none.mp found value member
      simp at missing
    | some other =>
      have same : key other = key value := by simpa using List.find?_some found
      rw [map.unique (List.mem_of_find?_eq_some found) member same]

theorem find?_eq_none {map : Keyed key} {name : κ} :
    map.find? name = none ↔ ∀ value ∈ map, key value ≠ name := by
  simp [find?, mem_def]

theorem contains_iff {map : Keyed key} {name : κ} :
    map.contains name = true ↔ ∃ value ∈ map, key value = name := by
  simp [contains, find?, mem_def]

theorem mem_emplace {map : Keyed key} {value other : α}
    (fresh : map.contains (key value) = false) :
    other ∈ map.emplace value ↔ other ∈ map ∨ other = value := by
  have missing : key value ∉ map.values.map key := by
    intro present
    obtain ⟨stored, member, same⟩ := List.mem_map.mp present
    rw [contains_iff.mpr ⟨stored, member, same⟩] at fresh
    cases fresh
  simp [emplace, missing, mem_def]

theorem mem_erase {map : Keyed key} {name : κ} {value : α} :
    value ∈ map.erase name ↔ value ∈ map ∧ key value ≠ name := by
  simp [erase, mem_def]

theorem erase_values_perm {map : Keyed key} {value : α} (member : value ∈ map) :
    map.values.Perm (value :: (map.erase (key value)).values) := by
  obtain ⟨front, back, split⟩ := List.append_of_mem member
  have distinct := map.distinct
  simp only [split, List.map_append, List.map_cons, List.nodup_append, List.nodup_cons,
    List.mem_map] at distinct
  obtain ⟨_, ⟨behind, _⟩, ahead⟩ := distinct
  have frontKept : front.filter (fun other => key other ≠ key value) = front := by
    apply List.filter_eq_self.mpr
    intro other present
    simpa using ahead (key other) ⟨other, present, rfl⟩ (key value) (by simp)
  have backKept : back.filter (fun other => key other ≠ key value) = back := by
    apply List.filter_eq_self.mpr
    intro other present
    simp only [decide_eq_true_eq]
    exact fun same => behind ⟨other, present, same⟩
  have erased : (map.erase (key value)).values = front ++ back := by
    change map.values.filter (fun other => key other ≠ key value) = _
    rw [split, List.filter_append, frontKept, List.filter_cons_of_neg (by simp), backKept]
  rw [erased, split]
  exact List.perm_middle

theorem size_erase {map : Keyed key} {value : α} (member : value ∈ map) :
    (map.erase (key value)).size + 1 = map.size := by
  have same := (map.erase_values_perm member).length_eq
  simp only [List.length_cons] at same
  exact same.symm

end Lookup

/-- The first stored value whose distance is least and below `bound`. -/
def nearest? (map : Keyed key) (distance : α → Nat) (bound : Nat) : Option α :=
  (map.values.foldl (fun (best : Nat × Option α) value =>
    if distance value < best.1 then (distance value, some value) else best) (bound, none)).2

private theorem nearest_fold (distance : α → Nat) (values : List α) (gap : Nat)
    (best : Option α) :
    let result := values.foldl (fun (best : Nat × Option α) value =>
      if distance value < best.1 then (distance value, some value) else best) (gap, best)
    result.1 ≤ gap ∧ (∀ value ∈ values, result.1 ≤ distance value) ∧
      ((result = (gap, best)) ∨
        ∃ value ∈ values, distance value < gap ∧ result = (distance value, some value)) := by
  induction values generalizing gap best with
  | nil => simp
  | cons head rest ih =>
    simp only [List.foldl_cons]
    split
    · rename_i closer
      obtain ⟨least, below, found⟩ := ih (distance head) (some head)
      refine ⟨by omega, ?_, ?_⟩
      · intro value member
        rcases List.mem_cons.mp member with rfl | member
        · exact least
        · exact below value member
      · right
        rcases found with same | ⟨value, member, nearer, same⟩
        · exact ⟨head, by simp, closer, same⟩
        · exact ⟨value, by simp [member], by omega, same⟩
    · rename_i farther
      obtain ⟨least, below, found⟩ := ih gap best
      refine ⟨least, ?_, ?_⟩
      · intro value member
        rcases List.mem_cons.mp member with rfl | member
        · omega
        · exact below value member
      · rcases found with same | ⟨value, member, nearer, same⟩
        · exact .inl same
        · exact .inr ⟨value, by simp [member], nearer, same⟩

theorem nearest?_some {map : Keyed key} {distance : α → Nat} {bound : Nat} {value : α}
    (found : map.nearest? distance bound = some value) :
    value ∈ map ∧ distance value < bound ∧ ∀ other ∈ map, distance value ≤ distance other := by
  obtain ⟨_, below, outcome⟩ := nearest_fold distance map.values bound none
  unfold nearest? at found
  rcases outcome with same | ⟨chosen, member, nearer, same⟩
  · rw [same] at found
    cases found
  · rw [same] at found below
    cases found
    exact ⟨member, nearer, below⟩

theorem nearest?_none {map : Keyed key} {distance : α → Nat} {bound : Nat}
    (missing : map.nearest? distance bound = none) : ∀ value ∈ map, bound ≤ distance value := by
  obtain ⟨_, below, outcome⟩ := nearest_fold distance map.values bound none
  unfold nearest? at missing
  rcases outcome with same | ⟨chosen, member, nearer, same⟩
  · rw [same] at below
    exact below
  · rw [same] at missing
    cases missing

end Keyed

end VbanStream.Library
