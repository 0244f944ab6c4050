import VbanStream.Buffer.Replay
import VbanStream.Return.RoundTrip

namespace VbanStream

open Library StreamBuffer

/-- The counters that a clean run leaves at zero. -/
def Counters.faults (c : Counters) : List Nat :=
  [c.underruns, c.overruns, c.lost, c.late, c.discontinuities]

namespace StreamBuffer

theorem store_faults {b : StreamBuffer} {packet : Packet} {now : UInt64}
    (fits : b.overflows packet = false) :
    (b.store packet now).counters.faults = b.counters.faults := by
  unfold store
  dsimp only
  rw [fits, if_neg Bool.false_ne_true]
  split
  · rfl
  · rfl

theorem store_overrun {b : StreamBuffer} {packet : Packet} {now : UInt64}
    (overflow : b.overflows packet = true) :
    (b.store packet now).counters.overruns = b.counters.overruns + 1 ∧
      (b.store packet now).counters.discontinuities = b.counters.discontinuities + 1 := by
  unfold store
  dsimp only
  rw [if_pos overflow]
  split
  · exact ⟨rfl, rfl⟩
  · exact ⟨rfl, rfl⟩

theorem push_faults {b : StreamBuffer} {packet : Packet} {now : UInt64}
    (accepted : b.accepts packet now = true) (stays : b.restarts packet now = false) :
    (b.push packet now).counters.faults = b.counters.faults := by
  rw [StreamBuffer.restarts, accepted, Bool.true_and, Bool.or_eq_false_iff] at stays
  rw [push_of_accepts accepted, store_faults stays.2, enter_of_not_opens stays.1]
  rfl

theorem push_faults_opening {b : StreamBuffer} (silent : b.initialized = false) (packet : Packet)
    (now : UInt64) : (b.push packet now).counters.faults = b.counters.faults := by
  have opens : b.opens packet now = true := by simp [opens, silent]
  obtain ⟨counters, entered⟩ := enter_of_opens opens
  have fits : (b.enter packet now).overflows packet = false := by
    rw [entered, begin_overflows]
  rw [push_of_accepts (accepts_of_opens opens), store_faults fits]
  unfold enter
  dsimp only
  split
  · rw [if_neg (by simp [count, silent])]
    rfl
  · rfl

end StreamBuffer

/-- The parser lets every packet of the stream through, and all have one length. -/
structure Stream.Steady (stream : Stream) (frames : Nat) : Prop where
  parsed : ∀ k, ∃ data size, decode data size = .ok (stream.packet k)
  frames : ∀ k, (stream.packet k).frames.toNat = frames

namespace Stream.Steady

variable {stream : Stream} {frames : Nat}

theorem wellFormed (steady : stream.Steady frames) (k : Nat) : (stream.packet k).WellFormed := by
  obtain ⟨data, size, parsed⟩ := steady.parsed k
  exact (decode_wellFormed parsed).1

theorem listed (steady : stream.Steady frames) :
    (stream.packet 0).format.rate ∈ sampleRates := by
  obtain ⟨data, size, parsed⟩ := steady.parsed 0
  exact (decode_wellFormed parsed).2

theorem positive (steady : stream.Steady frames) : 0 < frames := by
  have sized := (steady.wellFormed 0).frames.1
  rwa [steady.frames 0] at sized

end Stream.Steady

/-- The buffer holds the packets of the stream from `played` up to `sent`, and nothing
else; it remembers the numbers right before them. -/
structure Lined (stream : Stream) (frames played sent : Nat) (b : StreamBuffer) : Prop where
  running : b.initialized = true
  format : b.format = (stream.packet 0).format
  expected : b.expected = serial stream.start played
  order : played ≤ sent
  reach : sent ≤ played + 512
  pending : ∀ packet, packet ∈ b.pending ↔
    ∃ k, played ≤ k ∧ k < sent ∧ packet = stream.packet k
  size : b.pending.size = sent - played
  waiting : b.pendingFrames = (sent - played) * frames
  recent : b.recent =
    (List.range' (played - b.recent.length) b.recent.length).map (serial stream.start)
  remembered : b.recent.length ≤ played

namespace Lined

variable {stream : Stream} {frames played sent : Nat} {b : StreamBuffer}

/-- Everything but the counters, the clocks, the queue and the schedule matters. -/
theorem transfer (lined : Lined stream frames played sent b) {after : StreamBuffer}
    (running : after.initialized = b.initialized) (format : after.format = b.format)
    (pending : after.pending = b.pending) (expected : after.expected = b.expected)
    (recent : after.recent = b.recent) : Lined stream frames played sent after := by
  constructor
  · rw [running]; exact lined.running
  · rw [format]; exact lined.format
  · rw [expected]; exact lined.expected
  · exact lined.order
  · exact lined.reach
  · rw [pending]; exact lined.pending
  · rw [pending]; exact lined.size
  · rw [pendingFrames, pending]; exact lined.waiting
  · rw [recent]; exact lined.recent
  · rw [recent]; exact lined.remembered

theorem distinct {first second : Nat} (order : first < second) (near : second < first + 2 ^ 32) :
    serial stream.start second ≠ serial stream.start first := by
  rw [Ne, serial_eq_iff]
  omega

theorem unremembered (lined : Lined stream frames played sent b) (bounded : b.recent.length ≤ 128)
    {k : Nat} (later : played ≤ k) (near : k ≤ played + 512) :
    (stream.packet k).sequence ∉ b.recent := by
  rw [stream.numbered, lined.recent]
  intro member
  obtain ⟨old, inside, same⟩ := List.mem_map.mp member
  obtain ⟨above, below⟩ := List.mem_range'_1.mp inside
  have remembered := lined.remembered
  exact distinct (by omega) (by omega) same.symm

theorem unsent (lined : Lined stream frames played sent b) :
    b.pending.contains (stream.packet sent).sequence = false := by
  rw [Bool.eq_false_iff]
  intro present
  obtain ⟨packet, member, same⟩ := Keyed.contains_iff.mp present
  obtain ⟨k, later, before, rfl⟩ := (lined.pending packet).mp member
  have reach := lined.reach
  rw [stream.numbered, stream.numbered] at same
  exact distinct before (by omega) same.symm

theorem stays (lined : Lined stream frames played sent b) (k : Nat) {now : UInt64}
    (recent : ¬ now - b.lastProgress > 250000000) : b.opens (stream.packet k) now = false := by
  simp [opens, lined.running, stream.layout, lined.format, recent]

theorem away (lined : Lined stream frames played sent b) :
    ahead b.expected (stream.packet sent).sequence = sent - played := by
  have reach := lined.reach
  rw [lined.expected, stream.numbered, ahead_serial _ lined.order (by omega)]

theorem accepts (lined : Lined stream frames played sent b) (bounded : Bounded b) {now : UInt64}
    (recent : ¬ now - b.lastProgress > 250000000) :
    b.accepts (stream.packet sent) now = true := by
  have reach := lined.reach
  have away := lined.away
  have fresh : b.duplicate (stream.packet sent) = false := by
    rw [duplicate, lined.unsent, Bool.false_or, List.contains_eq_mem, decide_eq_false_iff_not]
    exact lined.unremembered bounded.recent lined.order reach
  have near : b.tooLate (stream.packet sent) = false := by
    rw [tooLate, decide_eq_false_iff_not, ge_iff_le, UInt32.le_iff_toNat_le]
    change ¬ 2147483648 ≤ ahead b.expected (stream.packet sent).sequence
    omega
  rw [StreamBuffer.accepts, enter_of_not_opens (lined.stays sent recent)]
  change (!b.duplicate _ && !b.tooLate _) = true
  rw [fresh, near]
  rfl

/-- It joins the session where there is room for it. -/
theorem joins (lined : Lined stream frames played sent b) (bounded : Bounded b)
    (room : sent < played + 512) (spare : b.bufferedFrames ≤ b.format.rate.toNat / 4)
    {now : UInt64} (recent : ¬ now - b.lastProgress > 250000000) :
    b.accepts (stream.packet sent) now = true ∧ b.restarts (stream.packet sent) now = false := by
  have away := lined.away
  have size := lined.size
  have accepted := lined.accepts bounded recent
  have stays := lined.stays sent recent
  have fits : b.overflows (stream.packet sent) = false := by
    simp only [overflows, Bool.or_eq_false_iff, decide_eq_false_iff_not, gt_iff_lt,
      UInt32.lt_iff_toNat_lt]
    refine ⟨⟨?_, by omega⟩, by omega⟩
    change ¬ 512 < ahead b.expected (stream.packet sent).sequence
    omega
  refine ⟨accepted, ?_⟩
  rw [StreamBuffer.restarts, stays, accepted, enter_of_not_opens stays]
  exact fits

/-- It starts a new session where 512 packets wait. -/
theorem overruns (lined : Lined stream frames played sent b) (bounded : Bounded b)
    (full : sent = played + 512) {now : UInt64} (recent : ¬ now - b.lastProgress > 250000000) :
    b.restarts (stream.packet sent) now = true ∧
      (b.push (stream.packet sent) now).counters.overruns = b.counters.overruns + 1 ∧
      (b.push (stream.packet sent) now).counters.discontinuities =
        b.counters.discontinuities + 1 := by
  have size := lined.size
  have accepted := lined.accepts bounded recent
  have stays := lined.stays sent recent
  have overflow : (b.enter (stream.packet sent) now).overflows (stream.packet sent) = true := by
    rw [enter_of_not_opens stays]
    change b.overflows (stream.packet sent) = true
    simp only [overflows, Bool.or_eq_true, decide_eq_true_eq]
    exact .inl (.inr (by omega))
  refine ⟨by rw [StreamBuffer.restarts, stays, accepted, overflow]; rfl, ?_⟩
  rw [push_of_accepts accepted, (store_overrun overflow).1, (store_overrun overflow).2,
    enter_of_not_opens stays]
  exact ⟨rfl, rfl⟩

theorem pushed (lined : Lined stream frames played sent b) (steady : stream.Steady frames)
    {counters : Counters} {newest : UInt32} {now : UInt64} (room : sent < played + 512) :
    Lined stream frames played (sent + 1) { b with
      counters := counters, newest := newest, lastValid := now, lastProgress := now
      pending := b.pending.emplace (stream.packet sent) } := by
  have order := lined.order
  obtain ⟨waiting, size⟩ := pendingFrames_emplace lined.unsent
  refine ⟨lined.running, lined.format, lined.expected, by omega, by omega, ?_, ?_, ?_,
    lined.recent, lined.remembered⟩
  · intro packet
    dsimp only
    rw [Keyed.mem_emplace lined.unsent, lined.pending]
    constructor
    · rintro (⟨k, later, before, rfl⟩ | rfl)
      · exact ⟨k, later, by omega, rfl⟩
      · exact ⟨sent, order, by omega, rfl⟩
    · rintro ⟨k, later, before, rfl⟩
      rcases Nat.lt_succ_iff_lt_or_eq.mp before with earlier | rfl
      · exact .inl ⟨k, later, earlier, rfl⟩
      · exact .inr rfl
  · have before := lined.size
    dsimp only
    omega
  · have before := lined.waiting
    rw [pendingFrames] at before ⊢
    rw [waiting, before, steady.frames, Nat.succ_sub order, Nat.succ_mul]

/-- The packet that opens a session stands alone in it. -/
theorem opened (steady : stream.Steady frames) (b : StreamBuffer) (k : Nat) (now : UInt64)
    (counters : Counters) (newest : UInt32) :
    Lined stream frames k (k + 1) { b.begin (stream.packet k) now with
      counters := counters, newest := newest, lastValid := now
      pending := (∅ : Keyed Packet.sequence).emplace (stream.packet k) } := by
  have alone : (∅ : Keyed Packet.sequence).contains (stream.packet k).sequence = false := rfl
  obtain ⟨waiting, size⟩ := pendingFrames_emplace alone
  refine ⟨rfl, stream.layout k, stream.numbered k, by omega, by omega, ?_, ?_, ?_, rfl, ?_⟩
  · intro packet
    dsimp only
    rw [Keyed.mem_emplace alone]
    constructor
    · rintro (absent | rfl)
      · exact absurd absent (Keyed.not_mem_empty _)
      · exact ⟨k, le_rfl, by omega, rfl⟩
    · rintro ⟨other, later, before, rfl⟩
      rw [Nat.le_antisymm (Nat.le_of_lt_succ before) later]
      exact .inr rfl
  · dsimp only
    rw [size, Keyed.size_empty]
    omega
  · rw [pendingFrames, waiting, steady.frames]
    simp
  · exact Nat.zero_le _

theorem head (lined : Lined stream frames played sent b) (some : played < sent) :
    stream.packet played ∈ b.pending ∧ (stream.packet played).sequence = b.expected :=
  ⟨(lined.pending _).mpr ⟨played, le_rfl, some, rfl⟩, by rw [stream.numbered, lined.expected]⟩

theorem visits (lined : Lined stream frames played sent b) {visit : Visit}
    (found : b.nextVisit = some visit) : played < sent ∧ visit = .played (stream.packet played) := by
  have reach := lined.reach
  have outcome := b.nextVisit_cases
  rw [found] at outcome
  have waits {packet : Packet} (member : packet ∈ b.pending) : played < sent := by
    obtain ⟨k, later, before, _⟩ := (lined.pending packet).mp member
    omega
  cases outcome with
  | @played packet member here =>
    obtain ⟨k, later, before, rfl⟩ := (lined.pending packet).mp member
    rcases Nat.lt_or_eq_of_le later with apart | rfl
    · rw [stream.numbered, lined.expected] at here
      exact absurd here (distinct apart (by omega))
    · exact ⟨before, rfl⟩
  | concealed absent member | jumped absent member =>
    obtain ⟨first, here⟩ := lined.head (waits member)
    exact absurd here (absent _ first)

theorem recent_play (lined : Lined stream frames played sent b) (packet : Packet) :
    (b.play packet).recent =
        (List.range' (played + 1 - (b.play packet).recent.length)
          (b.play packet).recent.length).map (serial stream.start) ∧
      (b.play packet).recent.length ≤ played + 1 := by
  have remembered := lined.remembered
  generalize length : b.recent.length = count at remembered
  have grown : b.recent ++ [b.expected] =
      (List.range' (played - count) (count + 1)).map (serial stream.start) := by
    rw [List.range'_concat, List.map_append, ← length, ← lined.recent, lined.expected, length]
    congr
    omega
  simp only [play, grown]
  split
  · rw [← List.map_tail, List.tail_range', List.length_map, List.length_range']
    refine ⟨?_, by omega⟩
    congr 2
    omega
  · rw [List.length_map, List.length_range']
    refine ⟨?_, by omega⟩
    congr 2
    omega

theorem play (lined : Lined stream frames played sent b) (steady : stream.Steady frames)
    (some : played < sent) :
    Lined stream frames (played + 1) sent (b.play (stream.packet played)) := by
  obtain ⟨member, here⟩ := lined.head some
  obtain ⟨recent, remembered⟩ := lined.recent_play (stream.packet played)
  refine ⟨lined.running, lined.format, ?_, some, ?_, ?_, ?_, ?_, recent, remembered⟩
  · rw [serial_succ, ← lined.expected]
    rfl
  · have reach := lined.reach
    omega
  · intro packet
    rw [mem_play here, lined.pending]
    constructor
    · rintro ⟨⟨k, later, before, rfl⟩, apart⟩
      refine ⟨k, ?_, before, rfl⟩
      rcases Nat.lt_or_eq_of_le later with after | rfl
      · exact after
      · exact absurd rfl apart
    · rintro ⟨k, later, before, rfl⟩
      have reach := lined.reach
      refine ⟨⟨k, by omega, before, rfl⟩, ?_⟩
      rw [stream.numbered, stream.numbered]
      exact distinct later (by omega)
  · have size := Keyed.size_erase member
    have before := lined.size
    rw [here] at size
    change (b.pending.erase b.expected).size = _
    omega
  · have waiting := pendingFrames_play member here
    have before := lined.waiting
    obtain ⟨rest, total⟩ := Nat.exists_eq_add_of_lt some
    have left : sent - played = rest + 1 := by omega
    have later : sent - (played + 1) = rest := by omega
    rw [steady.frames, before, left, Nat.succ_mul] at waiting
    rw [later]
    omega

/-- Filling moves whole packets from the line to the queue. -/
theorem filled (lined : Lined stream frames played sent b) (ordered : Ordered b)
    (steady : stream.Steady frames) {wanted : Nat} {visits : List Visit} {after : StreamBuffer}
    {ok : Bool} (filled : Filled wanted b visits after ok) :
    ∃ later, Lined stream frames later sent after ∧ after.bufferedFrames = b.bufferedFrames ∧
      after.counters.faults = b.counters.faults := by
  induction filled generalizing played with
  | enough | starved => exact ⟨played, lined, rfl, rfl⟩
  | turn short found rest ih =>
    obtain ⟨some, rfl⟩ := lined.visits found
    obtain ⟨member, here⟩ := lined.head some
    obtain ⟨later, after, kept, clean⟩ :=
      ih (lined.play steady some) (ordered_play ordered member here)
    have queued := queuedFrames_play ordered member
    have waiting := pendingFrames_play member here
    refine ⟨later, after, kept.trans ?_, clean⟩
    rw [bufferedFrames_eq, bufferedFrames_eq]
    change StreamBuffer.queuedFrames (StreamBuffer.play _ _) +
      StreamBuffer.pendingFrames (StreamBuffer.play _ _) = _
    omega

/-- A block that is fed finds its frames among the buffered ones. -/
theorem prepared (lined : Lined stream frames played sent b) (ordered : Ordered b)
    (steady : stream.Steady frames) (fed : b.prepare.2 = true) :
    ∃ later, Lined stream frames later sent b.prepare.1 ∧
      b.prepare.1.bufferedFrames = b.bufferedFrames ∧
      b.prepare.1.counters.faults = b.counters.faults ∧
      b.consume ≤ b.prepare.1.queuedFrames := by
  have long := prepare_long fed
  obtain ⟨_, _, _, prepared⟩ := b.prepare_eq
  have corrected : Lined stream frames played sent b.correct := lined.transfer rfl rfl rfl rfl rfl
  obtain ⟨later, after, kept, clean⟩ := corrected.filled
    (ordered.transfer rfl rfl rfl rfl rfl rfl) steady (b.correct.fill_filled b.consume)
  rw [← prepared fed] at after kept clean
  refine ⟨later, after, kept, clean, ?_⟩
  rw [queuedFrames, b.prepare_frame.format]
  exact (Nat.le_div_iff_mul_le ordered.channels).mpr long

/-- A block is never fed with more than what is buffered. -/
theorem starves (lined : Lined stream frames played sent b) (ordered : Ordered b)
    (steady : stream.Steady frames) (short : b.bufferedFrames < b.consume) :
    b.prepare.2 = false := by
  cases fed : b.prepare.2 with
  | false => rfl
  | true =>
    obtain ⟨_, _, kept, _, long⟩ := lined.prepared ordered steady fed
    rw [bufferedFrames_eq b.prepare.1] at kept
    omega

/-- A block of a deep enough buffer takes its frames, and nothing else changes. -/
theorem emit (lined : Lined stream frames played sent b) (ordered : Ordered b)
    (steady : stream.Steady frames) (enough : b.blockFrames ≤ b.bufferedFrames) :
    b.prepare.2 = true ∧ (∃ later, Lined stream frames later sent b.emit.1) ∧
      b.emit.1.bufferedFrames + b.consume = b.bufferedFrames ∧
      b.emit.1.counters.faults = b.counters.faults := by
  have fed := fed_of_buffered ordered enough
  have format := b.prepare_frame.format
  obtain ⟨later, after, kept, clean, long⟩ := lined.prepared ordered steady fed
  have emitted : b.emit.1 = { b.prepare.1 with
      fifo := b.prepare.1.fifo.drop (b.consume * b.format.outputChannels)
      emitted := b.emitted + UInt64.ofNat b.blockFrames
      lastEnd := b.base + framesToNs (b.emitted + UInt64.ofNat b.blockFrames) b.format.rate } := by
    unfold StreamBuffer.emit
    dsimp only
    rw [if_pos fed]
  refine ⟨fed, ⟨later, ?_⟩, ?_, ?_⟩
  · rw [emitted]
    exact after.transfer rfl rfl rfl rfl rfl
  · have taken : b.emit.1.queuedFrames = b.prepare.1.queuedFrames - b.consume := by
      rw [emitted, queuedFrames, queuedFrames, format]
      dsimp only
      rw [List.length_drop, Nat.mul_comm, Nat.sub_mul_div]
    have same : b.emit.1.pendingFrames = b.prepare.1.pendingFrames := by rw [emitted]; rfl
    rw [bufferedFrames_eq] at kept
    rw [bufferedFrames_eq b.emit.1]
    omega
  · rw [emitted]
    exact clean

end Lined

/-- Silence in the stereo format of the return streams. -/
def silence (rate : UInt32) (frames : Nat) : Stream where
  start := 0
  packet := fun k => {
    format := ⟨rate, 2, 1⟩
    sequence := serial 0 k
    name := ascii "A"
    frames := UInt16.ofNat frames
    samples := (List.range (frames * 2)).map fun _ => heardSample 16 none }
  numbered := fun _ => rfl
  layout := fun _ => rfl

theorem silence_steady {rate : UInt32} {frames : Nat} (encodable : Encodable rate frames 16) :
    (silence rate frames).Steady frames := by
  have valid : validStreamName (ascii "A") = true := by decide
  have few := encodable.few
  constructor
  · intro k
    have written := write_returnPacket (fun _ => 0) valid rate (serial 0 k) (fun _ => none) frames 16
    exact ⟨_, _, written.decode encodable valid⟩
  · intro _
    change (UInt16.ofNat frames).toNat = frames
    rw [UInt16.toNat_ofNat']
    omega

end VbanStream
