import VbanStream.Library.Circular
import VbanStream.Buffer.Steps

namespace VbanStream.StreamBuffer

open Library

/-- What one turn of the loop finds at, or nearest after, the next number. -/
inductive Found (b : StreamBuffer) : Option Visit → Prop where
  | played (member : packet ∈ b.pending) (here : packet.sequence = b.expected) :
      Found b (some (.played packet))
  | empty (empty : ∀ packet, packet ∉ b.pending) : Found b none
  | unreachable (far : ∀ packet ∈ b.pending, 0xffffffff ≤ ahead b.expected packet.sequence) :
      Found b none
  | concealed (absent : ∀ packet ∈ b.pending, packet.sequence ≠ b.expected)
      (member : next ∈ b.pending)
      (nearest : ∀ packet ∈ b.pending,
        ahead b.expected next.sequence ≤ ahead b.expected packet.sequence)
      (close : ahead b.expected next.sequence ≤ 8) (same : b.previousFrames = next.frames)
      (sized : b.previousFrames ≠ 0) : Found b (some .concealed)
  | jumped (absent : ∀ packet ∈ b.pending, packet.sequence ≠ b.expected)
      (member : next ∈ b.pending)
      (nearest : ∀ packet ∈ b.pending,
        ahead b.expected next.sequence ≤ ahead b.expected packet.sequence)
      (unlike : ¬ (ahead b.expected next.sequence ≤ 8 ∧ b.previousFrames ≠ 0 ∧
        b.previousFrames = next.frames)) : Found b (some (.jumped next))

theorem nextVisit_cases (b : StreamBuffer) : Found b b.nextVisit := by
  unfold nextVisit
  cases here : b.pending.find? b.expected with
  | some packet =>
    obtain ⟨member, same⟩ := Keyed.find?_eq_some.mp here
    exact .played member same
  | none =>
    have absent := Keyed.find?_eq_none.mp here
    dsimp only
    split
    · rename_i empty
      apply Found.empty
      intro packet
      rw [Keyed.isEmpty_iff.mp empty]
      exact Keyed.not_mem_empty packet
    · cases found : b.pending.nearest? (fun packet => (packet.sequence - b.expected).toNat)
          0xffffffff with
      | none => exact .unreachable (Keyed.nearest?_none found)
      | some next =>
        obtain ⟨member, _, nearest⟩ := Keyed.nearest?_some found
        dsimp only
        split
        · rename_i short
          obtain ⟨close, sized, same⟩ := short
          exact .concealed absent member nearest (UInt32.le_iff_toNat_le.mp close) same sized
        · rename_i unlike
          apply Found.jumped absent member nearest
          rintro ⟨close, sized, same⟩
          exact unlike ⟨UInt32.le_iff_toNat_le.mpr close, sized, same⟩

theorem mem_play {b : StreamBuffer} {packet other : Packet} (here : packet.sequence = b.expected) :
    other ∈ (b.play packet).pending ↔ other ∈ b.pending ∧ other.sequence ≠ packet.sequence := by
  rw [here]
  exact Keyed.mem_erase

/-- Silent turns left before the nearest packet is reached, at most eight of
which can be concealment. -/
def silence (b : StreamBuffer) : Nat :=
  match b.pending.nearest? (fun packet => ahead b.expected packet.sequence) 0xffffffff with
  | none => 0
  | some next => min 9 (ahead b.expected next.sequence)

theorem silence_le (b : StreamBuffer) : b.silence ≤ 9 := by
  unfold silence
  split <;> omega

/-- Decreases with every turn of the loop. -/
def measure (b : StreamBuffer) : Nat := 10 * b.pending.size + b.silence

theorem silence_of_nearest {b : StreamBuffer} {next : Packet} (member : next ∈ b.pending)
    (nearest : ∀ packet ∈ b.pending,
      ahead b.expected next.sequence ≤ ahead b.expected packet.sequence)
    (reach : ahead b.expected next.sequence < 0xffffffff) :
    b.silence = min 9 (ahead b.expected next.sequence) := by
  unfold silence
  split
  · rename_i missing
    have far := Keyed.nearest?_none missing next member
    omega
  · rename_i chosen found
    obtain ⟨inside, _, least⟩ := Keyed.nearest?_some found
    have same : ahead b.expected chosen.sequence = ahead b.expected next.sequence :=
      Nat.le_antisymm (least next member) (nearest chosen inside)
    rw [same]

theorem silence_concealed {b : StreamBuffer} {next : Packet}
    (absent : ∀ packet ∈ b.pending, packet.sequence ≠ b.expected) (member : next ∈ b.pending)
    (nearest : ∀ packet ∈ b.pending,
      ahead b.expected next.sequence ≤ ahead b.expected packet.sequence)
    (close : ahead b.expected next.sequence ≤ 8) :
    (b.visit .concealed).silence + 1 = b.silence := by
  have positive : ahead b.expected next.sequence ≠ 0 :=
    mt ahead_eq_zero.mp (absent next member)
  have later : ∀ packet ∈ b.pending,
      ahead (b.expected + 1) packet.sequence = ahead b.expected packet.sequence - 1 :=
    fun packet inside => ahead_succ (absent packet inside)
  have after : (b.visit .concealed).silence =
      min 9 (ahead (b.visit .concealed).expected next.sequence) := by
    apply silence_of_nearest (b := b.visit .concealed) member
    · intro packet inside
      have closest := nearest packet inside
      change ahead (b.expected + 1) next.sequence ≤ ahead (b.expected + 1) packet.sequence
      rw [later next member, later packet inside]
      omega
    · change ahead (b.expected + 1) next.sequence < _
      rw [later next member]
      omega
  have step : ahead (b.visit .concealed).expected next.sequence =
      ahead b.expected next.sequence - 1 := later next member
  rw [after, step, silence_of_nearest member nearest (by omega)]
  omega

theorem measure_visit {b : StreamBuffer} {visit : Visit} (found : b.nextVisit = some visit) :
    (b.visit visit).measure < b.measure := by
  have outcome := b.nextVisit_cases
  rw [found] at outcome
  cases outcome with
  | @played packet member here =>
    have smaller := Keyed.size_erase member
    rw [here] at smaller
    have bound := (b.visit (.played packet)).silence_le
    change 10 * (b.pending.erase b.expected).size + (b.visit (.played packet)).silence <
      10 * b.pending.size + b.silence
    omega
  | @concealed next absent member nearest close =>
    have shorter := silence_concealed absent member nearest close
    change 10 * b.pending.size + (b.visit .concealed).silence < 10 * b.pending.size + b.silence
    omega
  | @jumped next absent member =>
    have smaller := Keyed.size_erase member
    have bound := (b.visit (.jumped next)).silence_le
    change 10 * (b.pending.erase next.sequence).size + (b.visit (.jumped next)).silence <
      10 * b.pending.size + b.silence
    omega

/-- The turns that the loop performs. -/
def fillVisits (frames : Nat) : Nat → StreamBuffer → List Visit
  | 0, _ => []
  | turns + 1, b =>
    if b.fifo.length / b.format.outputChannels < frames then
      match b.nextVisit with
      | none => []
      | some visit => visit :: fillVisits frames turns (b.visit visit)
    else []

/-- The loop ends because the queue is long enough or nothing is left to visit,
never because its bound is used up. -/
inductive Filled (frames : Nat) : StreamBuffer → List Visit → StreamBuffer → Bool → Prop where
  | enough (long : frames ≤ b.fifo.length / b.format.outputChannels) : Filled frames b [] b true
  | starved (short : b.fifo.length / b.format.outputChannels < frames)
      (stuck : b.nextVisit = none) : Filled frames b [] b false
  | turn (short : b.fifo.length / b.format.outputChannels < frames)
      (found : b.nextVisit = some next) (rest : Filled frames (b.visit next) visits after ok) :
      Filled frames b (next :: visits) after ok

theorem fillLoop_filled (frames turns : Nat) (b : StreamBuffer) (bound : b.measure < turns) :
    Filled frames b (fillVisits frames turns b) (fillLoop frames turns b).1
      (fillLoop frames turns b).2 := by
  induction turns generalizing b with
  | zero => exact absurd bound (Nat.not_lt_zero _)
  | succ turns ih =>
    unfold fillLoop fillVisits
    split
    · rename_i short
      cases found : b.nextVisit with
      | none => exact .starved short found
      | some visit =>
        have closer := measure_visit found
        exact .turn short found (ih (b.visit visit) (by omega))
    · rename_i long
      exact .enough (Nat.le_of_not_lt long)

theorem measure_lt (b : StreamBuffer) : b.measure < 10 * b.pending.size + 10 := by
  have bound := b.silence_le
  unfold measure
  omega

/-- The visits of one call of `fill`. -/
def visits (b : StreamBuffer) (frames : Nat) : List Visit :=
  fillVisits frames (10 * b.pending.size + 10) b

theorem fill_filled (b : StreamBuffer) (frames : Nat) :
    Filled frames b (b.visits frames) (b.fill frames).1 (b.fill frames).2 :=
  fillLoop_filled frames _ b b.measure_lt

namespace Filled

theorem appends {frames : Nat} {b after : StreamBuffer} {visits : List Visit} {ok : Bool}
    (filled : Filled frames b visits after ok) : b.fifo <+: after.fifo := by
  induction filled with
  | enough | starved => exact List.prefix_rfl
  | @turn next _ _ b _ _ _ _ ih =>
    refine List.IsPrefix.trans ?_ ih
    cases next <;> exact List.prefix_append _ _

theorem long {frames : Nat} {b after : StreamBuffer} {visits : List Visit}
    (filled : Filled frames b visits after true) :
    frames * b.format.outputChannels ≤ after.fifo.length := by
  generalize success : true = ok at filled
  induction filled with
  | enough long => exact (Nat.mul_le_mul_right _ long).trans (Nat.div_mul_le_self _ _)
  | starved => cases success
  | turn _ _ _ ih => exact (visit_frame _ _).format ▸ ih success

theorem short {frames : Nat} {b after : StreamBuffer} {visits : List Visit}
    (filled : Filled frames b visits after false) :
    after.fifo.length / b.format.outputChannels < frames ∧ after.nextVisit = none := by
  generalize failure : false = ok at filled
  induction filled with
  | enough => cases failure
  | starved short stuck => exact ⟨short, stuck⟩
  | turn _ _ _ ih => exact (visit_frame _ _).format ▸ ih failure

end Filled

end VbanStream.StreamBuffer
