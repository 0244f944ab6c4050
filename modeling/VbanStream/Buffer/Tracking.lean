import VbanStream.Buffer.Filling
import VbanStream.Buffer.Reference

namespace VbanStream

open Library StreamBuffer

/-- A packet as the decoder produces it. -/
structure Packet.WellFormed (packet : Packet) : Prop where
  channels : 1 ≤ packet.format.channels.toNat ∧ packet.format.channels.toNat ≤ 8
  frames : 1 ≤ packet.frames.toNat ∧ packet.frames.toNat ≤ 256
  samples : packet.samples.length = packet.frames.toNat * packet.format.outputChannels

/-- What one turn of the loop of `fill` plays. -/
def Visit.events : Visit → List Event
  | .played packet => [.played packet]
  | .concealed => [.concealed]
  | .jumped next => [.jumped next, .played next]

namespace StreamBuffer

/-- The buffer stands where the reference stands: `consumed` has left its queue,
and `before` packets were lost in earlier sessions. -/
structure Tracks (opening : Packet) (consumed : List ℚ) (before : Nat) (b : StreamBuffer)
    (r : Reference) : Prop where
  format : b.format = opening.format
  expected : b.expected = serial opening.sequence r.position
  pending : ∀ packet, packet ∈ r.pending ↔ packet ∈ b.pending
  previous : b.previousFrames = (r.previous.map Packet.frames).getD 0
  window : ∀ packet ∈ b.pending, ahead b.expected packet.sequence ≤ 512
  decoded : ∀ packet ∈ b.pending, packet.WellFormed
  stream : r.stream = consumed ++ b.fifo
  lost : b.counters.lost = before + r.missing.length

section Visits

variable {opening : Packet} {consumed : List ℚ} {before : Nat} {b : StreamBuffer} {r : Reference}

theorem Tracks.distance (inv : Tracks opening consumed before b r) (packet : Packet) :
    r.distance opening.sequence packet = ahead b.expected packet.sequence := by
  rw [Reference.distance, inv.expected]

theorem Tracks.nearest (inv : Tracks opening consumed before b r) {next : Packet}
    (absent : ∀ packet ∈ b.pending, packet.sequence ≠ b.expected) (member : next ∈ b.pending)
    (nearest : ∀ packet ∈ b.pending,
      ahead b.expected next.sequence ≤ ahead b.expected packet.sequence) :
    r.Nearest opening.sequence next := by
  refine ⟨(inv.pending next).mpr member, ?_, ?_⟩
  · intro packet inside
    rw [inv.distance, inv.distance]
    exact nearest packet ((inv.pending packet).mp inside)
  · rw [inv.distance]
    exact mt ahead_eq_zero.mp (absent next member)

theorem tracks_play (inv : Tracks opening consumed before b r) {packet : Packet}
    (member : packet ∈ b.pending) (here : packet.sequence = b.expected) :
    ∃ next, Reference.Step opening.sequence opening.format.outputChannels r (.played packet) next ∧
      Tracks opening consumed before (b.play packet) next := by
  refine ⟨_, .played ((inv.pending packet).mpr member) ?_, ?_⟩
  · rw [inv.distance, here, ahead_self]
  · constructor
    · exact inv.format
    · exact (serial_succ _ _ ▸ congrArg (· + 1) inv.expected)
    · intro other
      rw [mem_play here, Set.mem_sdiff, inv.pending, Set.mem_singleton_iff]
      refine and_congr_right fun inside => not_congr ?_
      exact ⟨fun same => same ▸ rfl, fun same => Keyed.unique inside member same⟩
    · rfl
    · intro other kept
      obtain ⟨inside, apart⟩ := (mem_play here).mp kept
      change ahead (b.expected + 1) other.sequence ≤ 512
      rw [ahead_succ (here ▸ apart)]
      exact (Nat.sub_le _ _).trans (inv.window other inside)
    · intro other kept
      exact inv.decoded other ((mem_play here).mp kept).1
    · simp [play, inv.stream]
    · exact inv.lost

theorem tracks_conceal (inv : Tracks opening consumed before b r) {next : Packet}
    (absent : ∀ packet ∈ b.pending, packet.sequence ≠ b.expected) (member : next ∈ b.pending)
    (nearest : ∀ packet ∈ b.pending,
      ahead b.expected next.sequence ≤ ahead b.expected packet.sequence)
    (close : ahead b.expected next.sequence ≤ 8) (same : b.previousFrames = next.frames)
    (sized : b.previousFrames ≠ 0) :
    ∃ after, Reference.Step opening.sequence opening.format.outputChannels r .concealed after ∧
      Tracks opening consumed before (b.visit .concealed) after := by
  have spoken := inv.previous
  cases previous : r.previous with
  | none => exact absurd (by simpa [previous] using spoken) sized
  | some last =>
    have length : last.frames = b.previousFrames := by simp [spoken, previous]
    have near := inv.nearest absent member nearest
    refine ⟨_, .concealed near ⟨inv.distance next ▸ close, previous, length.trans same⟩, ?_⟩
    constructor
    · exact inv.format
    · exact (serial_succ _ _ ▸ congrArg (· + 1) inv.expected)
    · exact inv.pending
    · have kept : (b.visit .concealed).previousFrames = b.previousFrames := rfl
      simp [kept, previous, length]
    · intro packet inside
      change ahead (b.expected + 1) packet.sequence ≤ 512
      rw [ahead_succ (absent packet inside)]
      exact (Nat.sub_le _ _).trans (inv.window packet inside)
    · exact inv.decoded
    · simp [visit, count, inv.stream, length, inv.format]
    · simp [visit, count, inv.lost, Nat.add_assoc]

/-- The state between a jump and the packet it lands on. -/
def landed (b : StreamBuffer) (next : Packet) : StreamBuffer :=
  { b.count fun c => { c with
      lost := c.lost + (next.sequence - b.expected).toNat
      discontinuities := c.discontinuities + 1 } with
    expected := next.sequence }

theorem tracks_jump (inv : Tracks opening consumed before b r) {next : Packet}
    (absent : ∀ packet ∈ b.pending, packet.sequence ≠ b.expected) (member : next ∈ b.pending)
    (nearest : ∀ packet ∈ b.pending,
      ahead b.expected next.sequence ≤ ahead b.expected packet.sequence)
    (unlike : ¬ (ahead b.expected next.sequence ≤ 8 ∧ b.previousFrames ≠ 0 ∧
      b.previousFrames = next.frames)) :
    ∃ after, Reference.Step opening.sequence opening.format.outputChannels r (.jumped next) after ∧
      Tracks opening consumed before (b.landed next) after := by
  have spoken := inv.previous
  have near := inv.nearest absent member nearest
  refine ⟨_, .jumped near ?_, ?_⟩
  · rintro last ⟨close, previous, length⟩
    have sized := (inv.decoded next member).frames.1
    have same : b.previousFrames = next.frames := by simp [spoken, previous, length]
    refine unlike ⟨inv.distance next ▸ close, ?_, same⟩
    rw [same]
    intro zero
    simp [zero] at sized
  · constructor
    · exact inv.format
    · change next.sequence = serial opening.sequence (r.position + r.distance opening.sequence next)
      rw [serial_add, ← inv.expected, inv.distance, add_ahead]
    · exact inv.pending
    · exact inv.previous
    · intro packet inside
      change ahead next.sequence packet.sequence ≤ 512
      rw [ahead_of_le (nearest packet inside)]
      exact (Nat.sub_le _ _).trans (inv.window packet inside)
    · exact inv.decoded
    · exact inv.stream
    · have gap : (next.sequence - b.expected).toNat = r.distance opening.sequence next :=
        (inv.distance next).symm
      simp [landed, count, inv.lost, gap, Nat.add_assoc]

/-- One turn of the loop is one or two steps of the reference. -/
theorem tracks_visit (inv : Tracks opening consumed before b r) {visit : Visit}
    (found : b.nextVisit = some visit) :
    ∃ next, Path (Reference.Step opening.sequence opening.format.outputChannels) r visit.events next ∧
      Tracks opening consumed before (b.visit visit) next := by
  have outcome := b.nextVisit_cases
  rw [found] at outcome
  cases outcome with
  | played member here =>
    obtain ⟨next, taken, tracks⟩ := tracks_play inv member here
    exact ⟨next, .single taken, tracks⟩
  | concealed absent member nearest close same sized =>
    obtain ⟨next, taken, tracks⟩ := tracks_conceal inv absent member nearest close same sized
    exact ⟨next, .single taken, tracks⟩
  | jumped absent member nearest unlike =>
    obtain ⟨middle, jumped, landed⟩ := tracks_jump inv absent member nearest unlike
    obtain ⟨next, played, tracks⟩ := tracks_play landed member rfl
    exact ⟨next, .snoc (.single jumped) played, tracks⟩

/-- A call of `fill` is a playout of the reference. -/
theorem tracks_filled {frames : Nat} {visits : List Visit} {after : StreamBuffer} {ok : Bool}
    (filled : Filled frames b visits after ok) (inv : Tracks opening consumed before b r) :
    ∃ next, Path (Reference.Step opening.sequence opening.format.outputChannels) r
        (visits.flatMap Visit.events) next ∧
      Tracks opening consumed before after next := by
  induction filled generalizing r with
  | enough | starved => exact ⟨r, .nil, inv⟩
  | turn _ found _ ih =>
    obtain ⟨middle, first, tracks⟩ := tracks_visit inv found
    obtain ⟨next, rest, ended⟩ := ih tracks
    exact ⟨next, first.append rest, ended⟩

theorem Tracks.exhausted (inv : Tracks opening consumed before b r) (stuck : b.nextVisit = none) :
    r.pending = ∅ := by
  have outcome := b.nextVisit_cases
  rw [stuck] at outcome
  apply Set.eq_empty_iff_forall_notMem.mpr
  intro packet pending
  have inside := (inv.pending packet).mp pending
  cases outcome with
  | empty empty => exact empty packet inside
  | unreachable far =>
    have near := inv.window packet inside
    have beyond := far packet inside
    omega

/-- Only the fields that filling reads matter. -/
theorem Tracks.transfer (inv : Tracks opening consumed before b r) {after : StreamBuffer}
    (format : after.format = b.format) (expected : after.expected = b.expected)
    (pending : after.pending = b.pending) (previous : after.previousFrames = b.previousFrames)
    (fifo : after.fifo = b.fifo) (lost : after.counters.lost = b.counters.lost) :
    Tracks opening consumed before after r := by
  constructor
  · rw [format]; exact inv.format
  · rw [expected]; exact inv.expected
  · rw [pending]; exact inv.pending
  · rw [previous]; exact inv.previous
  · rw [pending, expected]; exact inv.window
  · rw [pending]; exact inv.decoded
  · rw [fifo]; exact inv.stream
  · rw [lost]; exact inv.lost

theorem prepare_filled (b : StreamBuffer) :
    ∃ filled, Filled b.consume b.correct (b.correct.visits b.consume) filled b.prepare.2 ∧
      b.prepare.1.format = filled.format ∧ b.prepare.1.expected = filled.expected ∧
      b.prepare.1.pending = filled.pending ∧
      b.prepare.1.previousFrames = filled.previousFrames ∧ b.prepare.1.fifo = filled.fifo ∧
      b.prepare.1.counters.lost = filled.counters.lost := by
  refine ⟨(b.correct.fill b.consume).1, b.correct.fill_filled b.consume, ?_⟩
  unfold prepare
  dsimp only
  split <;> simp [count]

theorem tracks_prepare (inv : Tracks opening consumed before b r) :
    ∃ next, Path (Reference.Step opening.sequence opening.format.outputChannels) r
        ((b.correct.visits b.consume).flatMap Visit.events) next ∧
      Tracks opening consumed before b.prepare.1 next := by
  obtain ⟨filled, turns, format, expected, pending, previous, fifo, lost⟩ := b.prepare_filled
  have corrected : Tracks opening consumed before b.correct r :=
    inv.transfer rfl rfl rfl rfl rfl rfl
  obtain ⟨next, path, tracks⟩ := tracks_filled turns corrected
  exact ⟨next, path, tracks.transfer format expected pending previous fifo lost⟩

end Visits

theorem prepare_appends (b : StreamBuffer) : b.fifo <+: b.prepare.1.fifo := by
  obtain ⟨filled, turns, _, _, _, _, fifo, _⟩ := b.prepare_filled
  rw [fifo]
  exact turns.appends

theorem prepare_long {b : StreamBuffer} (fed : b.prepare.2 = true) :
    b.consume * b.format.outputChannels ≤ b.prepare.1.fifo.length := by
  obtain ⟨filled, turns, _, _, _, _, fifo, _⟩ := b.prepare_filled
  rw [fed] at turns
  rw [fifo]
  exact turns.long

/-- A starved block empties the queue, and nothing is left to visit. -/
theorem prepare_short {b : StreamBuffer} (starved : b.prepare.2 = false)
    (channels : 0 < b.format.outputChannels) :
    b.prepare.1.fifo.length < b.consume * b.format.outputChannels ∧
      b.prepare.1.nextVisit = none := by
  obtain ⟨filled, turns, _, expected, pending, previous, fifo, _⟩ := b.prepare_filled
  rw [starved] at turns
  obtain ⟨short, stuck⟩ := turns.short
  refine ⟨?_, ?_⟩
  · rw [fifo]
    exact (Nat.div_lt_iff_lt_mul channels).mp short
  · rw [nextVisit, expected, pending, previous]
    exact stuck

end StreamBuffer

end VbanStream
