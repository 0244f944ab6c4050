import Mathlib.Tactic

namespace VbanStream.Library

/-- A reference to a target, told from the others to it by a number. -/
structure Handle (α : Type*) where
  target : α
  number : ℕ
deriving DecidableEq, Repr

structure Ledger (α : Type*) where
  obtained : List (Handle α) := []
  released : List (Handle α) := []
deriving DecidableEq, Repr

namespace Ledger

variable {α : Type*}

def obtain (ledger : Ledger α) (target : α) : Ledger α × Handle α :=
  let reference := ⟨target, ledger.obtained.length⟩
  ({ ledger with obtained := ledger.obtained ++ [reference] }, reference)

def release (ledger : Ledger α) (reference : Handle α) : Ledger α :=
  { ledger with released := ledger.released ++ [reference] }

/-- Every reference was released once, or is one of those that are held. -/
structure Accounts (ledger : Ledger α) (held : List (Handle α)) : Prop where
  numbered : ledger.obtained.map Handle.number = List.range ledger.obtained.length
  settled : ledger.obtained.Perm (ledger.released ++ held)

namespace Accounts

variable {ledger : Ledger α} {held : List (Handle α)}

theorem empty : Accounts ({} : Ledger α) [] := ⟨rfl, .refl []⟩

theorem nodup (accounts : Accounts ledger held) : ledger.obtained.Nodup := by
  apply List.Nodup.of_map Handle.number
  rw [accounts.numbered]
  exact List.nodup_range

theorem obtain (accounts : Accounts ledger held) (target : α) :
    Accounts (ledger.obtain target).1 ((ledger.obtain target).2 :: held) where
  numbered := by
    rw [Ledger.obtain, List.map_append, List.length_append, List.length_singleton,
      List.range_succ, accounts.numbered]
    rfl
  settled := by
    have last := List.perm_append_singleton (ledger.obtain target).2 ledger.obtained
    exact last.trans ((accounts.settled.cons _).trans List.perm_middle.symm)

theorem release {reference : Handle α} (accounts : Accounts ledger (reference :: held)) :
    Accounts (ledger.release reference) held where
  numbered := accounts.numbered
  settled := by
    rw [Ledger.release, List.append_assoc, List.singleton_append]
    exact accounts.settled

theorem reorder {other : List (Handle α)} (accounts : Accounts ledger held)
    (same : held.Perm other) : Accounts ledger other :=
  ⟨accounts.numbered, accounts.settled.trans (same.append_left _)⟩

end Accounts

end Ledger

end VbanStream.Library
