import Mathlib.Tactic

/-! Values that carry what they were made from. Generic code that runs on them computes with
the values and keeps the record. -/

namespace VbanStream.Library

structure Traced (O V : Type*) where
  value : V
  origins : List O

namespace Traced

variable {O V : Type*}

instance [Zero V] : Zero (Traced O V) := ⟨⟨0, []⟩⟩

instance [Add V] : Add (Traced O V) := ⟨fun a b => ⟨a.value + b.value, a.origins ++ b.origins⟩⟩

instance [Mul V] : Mul (Traced O V) := ⟨fun a b => ⟨a.value * b.value, a.origins ++ b.origins⟩⟩

/-- A function of two values, on traced ones. -/
def join (combine : V → V → ℚ → V) (a b : Traced O V) (weight : ℚ) : Traced O V :=
  ⟨combine a.value b.value weight, a.origins ++ b.origins⟩

/-- Every origin is a good one. -/
def Within (good : O → Prop) (a : Traced O V) : Prop := ∀ origin ∈ a.origins, good origin

variable {good other : O → Prop} {a b : Traced O V}

theorem Within.imp (within : a.Within good) (weaker : ∀ origin, good origin → other origin) :
    a.Within other := fun origin member => weaker origin (within origin member)

theorem within_zero [Zero V] : (0 : Traced O V).Within good := nofun

theorem Within.add [Add V] (first : a.Within good) (second : b.Within good) :
    (a + b).Within good := List.forall_mem_append.mpr ⟨first, second⟩

theorem Within.mul [Mul V] (first : a.Within good) (second : b.Within good) :
    (a * b).Within good := List.forall_mem_append.mpr ⟨first, second⟩

theorem Within.join (combine : V → V → ℚ → V) (first : a.Within good) (second : b.Within good)
    (weight : ℚ) : (Traced.join combine a b weight).Within good :=
  List.forall_mem_append.mpr ⟨first, second⟩

end Traced

end VbanStream.Library
