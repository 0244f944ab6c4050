import VbanStream.Library.Circular
import VbanStream.Library.Run
import VbanStream.Protocol.Audio

/-! What one session should sound like: its sequence numbers in order, counted
without wrapping, each with the audio of its packet, with silence, or skipped. -/

namespace VbanStream

open Library

inductive Event where
  | stored (packet : Packet)
  | played (packet : Packet)
  | concealed
  | jumped (next : Packet)

/-- The playout of one session. Positions count from its first packet. -/
structure Reference where
  position : Nat := 0
  pending : Set Packet := ∅
  previous : Option Packet := none
  stream : List ℚ := []
  visited : List Nat := []
  missing : List Nat := []

namespace Reference

/-- How far a packet lies ahead of the next number, on the 32-bit circle. -/
def distance (first : UInt32) (r : Reference) (packet : Packet) : Nat :=
  ahead (serial first r.position) packet.sequence

/-- Nothing pends at the next number, and nothing pends nearer than `next`. -/
structure Nearest (first : UInt32) (r : Reference) (next : Packet) : Prop where
  member : next ∈ r.pending
  least : ∀ packet ∈ r.pending, r.distance first next ≤ r.distance first packet
  apart : r.distance first next ≠ 0

/-- A gap short enough to be filled with silence, between packets of one length. -/
def Bridged (first : UInt32) (r : Reference) (next last : Packet) : Prop :=
  r.distance first next ≤ 8 ∧ r.previous = some last ∧ last.frames = next.frames

inductive Step (first : UInt32) (channels : Nat) (r : Reference) : Event → Reference → Prop where
  | stored (fresh : ∀ other ∈ r.pending, other.sequence ≠ packet.sequence)
      (near : r.distance first packet ≤ 512) :
      Step first channels r (.stored packet) { r with pending := insert packet r.pending }
  | played (member : packet ∈ r.pending) (here : r.distance first packet = 0) :
      Step first channels r (.played packet) { r with
        position := r.position + 1
        pending := r.pending \ {packet}
        previous := some packet
        stream := r.stream ++ packet.samples
        visited := r.visited ++ [r.position] }
  | concealed (nearest : r.Nearest first next) (bridged : r.Bridged first next last) :
      Step first channels r .concealed { r with
        position := r.position + 1
        stream := r.stream ++ List.replicate (last.frames.toNat * channels) 0
        visited := r.visited ++ [r.position]
        missing := r.missing ++ [r.position] }
  | jumped (nearest : r.Nearest first next)
      (unlike : ∀ last, ¬ r.Bridged first next last) :
      Step first channels r (.jumped next) { r with
        position := r.position + r.distance first next
        missing := r.missing ++ List.range' r.position (r.distance first next) }

/-- Visited positions only move forward. -/
structure Ordered (r : Reference) : Prop where
  forward : r.visited.Pairwise (· < ·)
  behind : ∀ position ∈ r.visited, position < r.position

theorem ordered_visit {r : Reference} (inv : Ordered r) :
    (r.visited ++ [r.position]).Pairwise (· < ·) ∧
      ∀ position ∈ r.visited ++ [r.position], position < r.position + 1 := by
  refine ⟨List.pairwise_append.mpr ⟨inv.forward, List.pairwise_singleton _ _, ?_⟩, ?_⟩
  · intro position member other same
    rw [List.mem_singleton.mp same]
    exact inv.behind position member
  · intro position member
    rcases List.mem_append.mp member with old | new
    · exact Nat.lt_succ_of_lt (inv.behind position old)
    · rw [List.mem_singleton.mp new]
      exact Nat.lt_succ_self _

theorem ordered_step {first : UInt32} {channels : Nat} (r : Reference) (event : Event)
    (next : Reference) (inv : Ordered r) (taken : Step first channels r event next) :
    Ordered next := by
  cases taken with
  | stored => exact ⟨inv.forward, inv.behind⟩
  | played | concealed => exact ⟨(ordered_visit inv).1, (ordered_visit inv).2⟩
  | jumped =>
    refine ⟨inv.forward, fun position member => ?_⟩
    exact Nat.lt_add_right _ (inv.behind position member)

/-- Two visits of one sequence number are whole turns of the circle apart. -/
theorem visits_apart {first : UInt32} {channels : Nat} {events : List Event} {final : Reference}
    (path : Path (Step first channels) {} events final) :
    final.visited.Pairwise fun early late =>
      early < late ∧ (serial first early = serial first late → early + 2 ^ 32 ≤ late) := by
  have ordered := path.invariant ordered_step ⟨List.Pairwise.nil, by simp⟩
  apply ordered.forward.imp
  intro early late before
  refine ⟨before, fun same => ?_⟩
  have turns := serial_eq_iff.mp same
  omega

end Reference

end VbanStream
