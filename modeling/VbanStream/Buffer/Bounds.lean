import VbanStream.Buffer.Playout

namespace VbanStream

open Library StreamBuffer

theorem mapM_some {α β : Type*} {list : List α} {fallible : α → Option β} {results : List β}
    (mapped : list.mapM fallible = some results) :
    results.length = list.length ∧ ∀ result ∈ results, ∃ value, fallible value = some result := by
  induction list generalizing results with
  | nil =>
    cases mapped
    simp
  | cons head rest ih =>
    simp only [List.mapM_cons, Option.pure_def, Option.bind_eq_bind,
      Option.bind_eq_some_iff, Option.some.injEq] at mapped
    obtain ⟨first, found, others, mapped, rfl⟩ := mapped
    obtain ⟨length, produced⟩ := ih mapped
    refine ⟨by simp [length], ?_⟩
    intro result member
    rcases List.mem_cons.mp member with rfl | member
    · exact ⟨head, found⟩
    · exact produced result member

theorem length_decodeSamples {data : Memory} {type width frames channels outputChannels : Nat}
    {samples : List ℚ} (enough : channels ≤ outputChannels)
    (decoded : decodeSamples data type width frames channels outputChannels = some samples) :
    samples.length = frames * outputChannels := by
  unfold decodeSamples at decoded
  obtain ⟨lanes, mapped, rfl⟩ := Option.map_eq_some_iff.mp decoded
  obtain ⟨length, produced⟩ := mapM_some mapped
  have wide : ∀ lane ∈ lanes, lane.length = outputChannels := by
    intro lane member
    obtain ⟨frame, made⟩ := produced lane member
    obtain ⟨lane, mapped, rfl⟩ := Option.map_eq_some_iff.mp made
    have inner := (mapM_some mapped).1
    simp only [List.length_range] at inner
    simp only [List.length_append, List.length_replicate, inner]
    omega
  rw [List.length_flatten, List.map_congr_left wide, List.map_const', List.sum_replicate, length,
    List.length_range, smul_eq_mul]

theorem decode_wellFormed {data : Memory} {size : Nat} {packet : Packet}
    (parsed : decode data size = .ok packet) :
    packet.WellFormed ∧ packet.format.rate ∈ sampleRates := by
  unfold decode at parsed
  split at parsed
  · cases parsed
  split at parsed
  · cases parsed
  split at parsed
  · cases parsed
  split at parsed
  · cases parsed
  split at parsed
  · cases parsed
  dsimp only at parsed
  split at parsed
  · cases parsed
  rename_i rateIndex
  split at parsed
  · cases parsed
  rename_i channels
  split at parsed
  · cases parsed
  split at parsed
  · cases parsed
  split at parsed
  · cases parsed
  · split at parsed
    · cases parsed
    · rename_i samples made
      cases parsed
      have byte := (data 5).toNat_lt
      have lane : (UInt8.ofNat ((data 6).toNat + 1)).toNat = (data 6).toNat + 1 := by
        rw [UInt8.toNat_ofNat']
        omega
      have frames : (UInt16.ofNat ((data 5).toNat + 1)).toNat = (data 5).toNat + 1 := by
        rw [UInt16.toNat_ofNat']
        omega
      refine ⟨⟨?_, ?_, ?_⟩, ?_⟩
      · dsimp only
        omega
      · dsimp only
        omega
      · dsimp only
        rw [frames]
        apply length_decodeSamples ?_ made
        unfold Format.outputChannels
        dsimp only
        split <;> omega
      · dsimp only
        rw [List.getD_eq_getElem _ _ (Nat.lt_of_not_le rateIndex)]
        exact List.getElem_mem _

def Operation.Parsed : Operation → Prop
  | .push packet _ => ∃ data size, decode data size = .ok packet
  | .pull _ | .reset => True

namespace StreamBuffer

def perform (b : StreamBuffer) : Operation → StreamBuffer
  | .push packet now => b.push packet now
  | .pull now => (b.pull now).1
  | .reset => b.reset

def ofRun (targetMs : UInt32) (operations : List Operation) : StreamBuffer :=
  operations.foldl perform { targetMs }

/-- The frames that wait in packets. -/
def pendingFrames (b : StreamBuffer) : Nat :=
  (b.pending.values.map fun packet => packet.frames.toNat).sum

/-- The frames that wait in the sample queue. -/
def queuedFrames (b : StreamBuffer) : Nat := b.fifo.length / b.format.outputChannels

theorem bufferedFrames_eq (b : StreamBuffer) :
    b.bufferedFrames = b.queuedFrames + b.pendingFrames := by
  unfold bufferedFrames
  split
  · rfl
  · rename_i silent
    have none : b.format.outputChannels = 0 := by
      simp [Format.outputChannels, not_not.mp silent]
    rw [queuedFrames, none, Nat.div_zero]
    rfl

/-- What every visit of `fill` keeps. -/
structure Ordered (b : StreamBuffer) : Prop where
  channels : 0 < b.format.outputChannels
  pending : b.pending.size ≤ 512
  recent : b.recent.length ≤ 128
  window : ∀ packet ∈ b.pending, ahead b.expected packet.sequence ≤ 512
  fresh : ∀ packet ∈ b.pending, packet.sequence ∉ b.recent
  decoded : ∀ packet ∈ b.pending, packet.WellFormed ∧ packet.format = b.format
  previous : b.previousFrames.toNat ≤ 256
  whole : b.format.outputChannels ∣ b.fifo.length
  stored : b.pendingFrames ≤ b.format.rate.toNat / 4 + 256

section Visits

variable {b : StreamBuffer}

theorem pendingFrames_play {packet : Packet} (member : packet ∈ b.pending)
    (here : packet.sequence = b.expected) :
    packet.frames.toNat + (b.play packet).pendingFrames = b.pendingFrames := by
  have split := (Keyed.erase_values_perm member).map fun packet => packet.frames.toNat
  have sums := split.sum_eq
  rw [List.map_cons, List.sum_cons, here] at sums
  exact sums.symm

theorem queuedFrames_append (channels : 0 < b.format.outputChannels) (samples : List ℚ)
    {frames : Nat} (sized : samples.length = frames * b.format.outputChannels) :
    (b.fifo ++ samples).length / b.format.outputChannels = b.queuedFrames + frames := by
  rw [List.length_append, sized, Nat.add_mul_div_right _ _ channels, queuedFrames]

theorem queuedFrames_play (inv : Ordered b) {packet : Packet} (member : packet ∈ b.pending) :
    (b.play packet).queuedFrames = b.queuedFrames + packet.frames.toNat := by
  obtain ⟨decoded, format⟩ := inv.decoded packet member
  exact queuedFrames_append inv.channels packet.samples (format ▸ decoded.samples)

theorem mem_recent_play {packet : Packet} {number : UInt32}
    (member : number ∈ (b.play packet).recent) : number ∈ b.recent ∨ number = b.expected := by
  have kept : number ∈ b.recent ++ [b.expected] := by
    simp only [play] at member
    split at member
    · exact List.mem_of_mem_tail member
    · exact member
  simpa using kept

theorem ordered_play (inv : Ordered b) {packet : Packet} (member : packet ∈ b.pending)
    (here : packet.sequence = b.expected) : Ordered (b.play packet) := by
  have left (other : Packet) (kept : other ∈ (b.play packet).pending) :
      other ∈ b.pending ∧ other.sequence ≠ b.expected := here ▸ (mem_play here).mp kept
  obtain ⟨decoded, format⟩ := inv.decoded packet member
  have frames := pendingFrames_play member here
  have size := Keyed.size_erase member
  rw [here] at size
  constructor
  · exact inv.channels
  · have bound := inv.pending
    change (b.pending.erase b.expected).size ≤ 512
    omega
  · have bound := inv.recent
    simp only [play]
    split
    · rw [List.length_tail, List.length_append, List.length_singleton]
      omega
    · omega
  · intro other kept
    obtain ⟨inside, apart⟩ := left other kept
    have near := inv.window other inside
    change ahead (b.expected + 1) other.sequence ≤ 512
    rw [ahead_succ apart]
    omega
  · intro other kept old
    obtain ⟨inside, apart⟩ := left other kept
    rcases mem_recent_play old with before | same
    · exact inv.fresh other inside before
    · exact apart same
  · exact fun other kept => inv.decoded other (left other kept).1
  · exact decoded.frames.2
  · change b.format.outputChannels ∣ (b.fifo ++ packet.samples).length
    rw [List.length_append, decoded.samples, format]
    exact Nat.dvd_add inv.whole (Nat.dvd_mul_left _ _)
  · have bound := inv.stored
    change (b.play packet).pendingFrames ≤ b.format.rate.toNat / 4 + 256
    omega

theorem ordered_conceal (inv : Ordered b)
    (absent : ∀ packet ∈ b.pending, packet.sequence ≠ b.expected) :
    Ordered (b.visit .concealed) := by
  refine ⟨inv.channels, inv.pending, inv.recent, ?_, inv.fresh, inv.decoded, inv.previous, ?_,
    inv.stored⟩
  · intro packet member
    have near := inv.window packet member
    change ahead (b.expected + 1) packet.sequence ≤ 512
    rw [ahead_succ (absent packet member)]
    omega
  · simp only [visit, count, List.length_append, List.length_replicate]
    exact Nat.dvd_add inv.whole (Nat.dvd_mul_left _ _)

theorem ordered_landed (inv : Ordered b) {next : Packet}
    (nearest : ∀ packet ∈ b.pending,
      ahead b.expected next.sequence ≤ ahead b.expected packet.sequence) :
    Ordered (b.landed next) := by
  refine ⟨inv.channels, inv.pending, inv.recent, ?_, inv.fresh, inv.decoded, inv.previous,
    inv.whole, inv.stored⟩
  intro packet inside
  have near := inv.window packet inside
  change ahead next.sequence packet.sequence ≤ 512
  rw [ahead_of_le (nearest packet inside)]
  omega

/-- A visit keeps the limits, adds at most one packet's frames to the queue, and
loses none of the buffered frames. -/
theorem ordered_visit (inv : Ordered b) {visit : Visit} (found : b.nextVisit = some visit) :
    Ordered (b.visit visit) ∧ (b.visit visit).queuedFrames ≤ b.queuedFrames + 256 ∧
      b.bufferedFrames ≤ (b.visit visit).bufferedFrames := by
  have outcome := b.nextVisit_cases
  rw [found] at outcome
  rw [bufferedFrames_eq, bufferedFrames_eq]
  cases outcome with
  | @played packet member here =>
    have queued := queuedFrames_play inv member
    have frames := pendingFrames_play member here
    have sized := (inv.decoded packet member).1.frames.2
    refine ⟨ordered_play inv member here, ?_, ?_⟩
    · change (b.play packet).queuedFrames ≤ _
      omega
    · change _ ≤ (b.play packet).queuedFrames + (b.play packet).pendingFrames
      omega
  | @concealed next absent member nearest close same sized =>
    have added : (b.visit .concealed).queuedFrames = b.queuedFrames + b.previousFrames.toNat :=
      queuedFrames_append inv.channels _ List.length_replicate
    have previous := inv.previous
    refine ⟨ordered_conceal inv absent, by omega, ?_⟩
    change _ ≤ (b.visit .concealed).queuedFrames + b.pendingFrames
    omega
  | @jumped next absent member nearest =>
    have landed := ordered_landed inv nearest
    have inside : next ∈ (b.landed next).pending := member
    have queued := queuedFrames_play landed inside
    have frames := pendingFrames_play (b := b.landed next) inside rfl
    have sized := (inv.decoded next member).1.frames.2
    have before : (b.landed next).queuedFrames = b.queuedFrames := rfl
    have waiting : (b.landed next).pendingFrames = b.pendingFrames := rfl
    refine ⟨ordered_play landed inside rfl, ?_, ?_⟩
    · change ((b.landed next).play next).queuedFrames ≤ _
      omega
    · change _ ≤ ((b.landed next).play next).queuedFrames +
        ((b.landed next).play next).pendingFrames
      omega

theorem ordered_filled {frames : Nat} {visits : List Visit} {after : StreamBuffer} {ok : Bool}
    (filled : Filled frames b visits after ok) (inv : Ordered b) :
    Ordered after ∧ after.queuedFrames ≤ max b.queuedFrames (frames + 255) ∧
      b.bufferedFrames ≤ after.bufferedFrames := by
  induction filled with
  | enough | starved => exact ⟨inv, Nat.le_max_left _ _, Nat.le_refl _⟩
  | turn short found _ ih =>
    obtain ⟨next, added, kept⟩ := ordered_visit inv found
    obtain ⟨final, bound, kept'⟩ := ih next
    change StreamBuffer.queuedFrames _ < _ at short
    exact ⟨final, by omega, kept.trans kept'⟩

theorem drained (inv : Ordered b) (stuck : b.nextVisit = none) : b.pending = ∅ := by
  have outcome := b.nextVisit_cases
  rw [stuck] at outcome
  have empty : ∀ packet, packet ∉ b.pending := by
    cases outcome with
    | empty empty => exact empty
    | unreachable far =>
      intro packet member
      have near := inv.window packet member
      have distant := far packet member
      omega
  apply Keyed.isEmpty_iff.mp
  exact List.isEmpty_iff.mpr (List.eq_nil_iff_forall_not_mem.mpr empty)

end Visits

theorem Ordered.transfer {b after : StreamBuffer} (inv : Ordered b)
    (format : after.format = b.format) (pending : after.pending = b.pending)
    (recent : after.recent = b.recent) (expected : after.expected = b.expected)
    (previous : after.previousFrames = b.previousFrames) (fifo : after.fifo = b.fifo) :
    Ordered after := by
  constructor
  · rw [format]; exact inv.channels
  · rw [pending]; exact inv.pending
  · rw [recent]; exact inv.recent
  · rw [pending, expected]; exact inv.window
  · rw [pending, recent]; exact inv.fresh
  · rw [pending, format]; exact inv.decoded
  · rw [previous]; exact inv.previous
  · rw [format, fifo]; exact inv.whole
  · rw [pendingFrames, pending, format]; exact inv.stored

/-- The limits after every operation. -/
structure Bounded (b : StreamBuffer) : Prop where
  running : b.initialized = true → Ordered b ∧ b.queuedFrames ≤ 255
  closed : b.initialized = false → b.pending = ∅ ∧ b.fifo = []
  recent : b.recent.length ≤ 128

theorem bounded_of_ordered {b : StreamBuffer} (running : b.initialized = true) (inv : Ordered b)
    (queued : b.queuedFrames ≤ 255) : Bounded b := by
  refine ⟨fun _ => ⟨inv, queued⟩, fun closed => ?_, inv.recent⟩
  rw [running] at closed
  cases closed

theorem bounded_clear {b : StreamBuffer} (recent : b.recent.length ≤ 128) : Bounded b.clear :=
  ⟨fun running => (Bool.false_ne_true running).elim, fun _ => ⟨rfl, rfl⟩, recent⟩

/-- A packet that joins the session finds room in it. -/
theorem joined_room {b : StreamBuffer} {packet : Packet} {now : UInt64}
    (stays : b.restarts packet now = false) (accepted : b.accepts packet now = true) :
    packet.sequence ∉ b.recent ∧ b.pending.size < 512 ∧
      b.bufferedFrames ≤ b.format.rate.toNat / 4 := by
  simp only [StreamBuffer.restarts, accepted, Bool.true_and, Bool.or_eq_false_iff] at stays
  obtain ⟨opens, fits⟩ := stays
  simp only [accepts, enter_of_not_opens opens] at fits accepted
  simp only [overflows, Bool.or_eq_false_iff, decide_eq_false_iff_not] at fits
  simp only [duplicate, Bool.and_eq_true, Bool.not_eq_true', Bool.or_eq_false_iff] at accepted
  refine ⟨?_, Nat.lt_of_not_le fits.1.2, Nat.le_of_not_lt fits.2⟩
  simpa [count] using accepted.1.2

theorem pendingFrames_emplace {pending : Keyed Packet.sequence} {packet : Packet}
    (fresh : pending.contains packet.sequence = false) :
    ((pending.emplace packet).values.map fun packet => packet.frames.toNat).sum =
      (pending.values.map fun packet => packet.frames.toNat).sum + packet.frames.toNat ∧
    (pending.emplace packet).size = pending.size + 1 := by
  have missing : packet.sequence ∉ pending.values.map Packet.sequence := by
    intro present
    obtain ⟨stored, member, same⟩ := List.mem_map.mp present
    rw [Keyed.contains_iff.mpr ⟨stored, member, same⟩] at fresh
    cases fresh
  simp [Keyed.emplace, missing, Keyed.size]

theorem bounded_restarted {b : StreamBuffer} {packet : Packet} {now : UInt64}
    (decoded : packet.WellFormed) (restarts : b.restarts packet now = true) :
    Bounded (b.push packet now) := by
  obtain ⟨counters, newest, pushed⟩ := push_restarted restarts
  have alone : ∀ other, other ∈ (∅ : Keyed Packet.sequence).emplace packet ↔ other = packet := by
    intro other
    rw [Keyed.mem_emplace rfl]
    simp
  have sized := decoded.frames.2
  have fresh : (∅ : Keyed Packet.sequence).contains packet.sequence = false := rfl
  obtain ⟨frames, size⟩ := pendingFrames_emplace fresh
  rw [pushed]
  refine bounded_of_ordered rfl ?_ (by simp [queuedFrames, begin])
  constructor
  · exact outputChannels_pos decoded
  · change (Keyed.emplace ∅ packet).size ≤ 512
    rw [size]
    simp
  · simp [begin]
  · intro other member
    rw [(alone other).mp member]
    simp [begin]
  · simp [begin]
  · intro other member
    rw [(alone other).mp member]
    exact ⟨decoded, rfl⟩
  · simp [begin]
  · simp [begin]
  · change ((Keyed.emplace ∅ packet).values.map fun packet => packet.frames.toNat).sum ≤ _
    rw [frames]
    simp only [Keyed.values_empty, List.map_nil, List.sum_nil]
    omega

theorem bounded_joined {b : StreamBuffer} {packet : Packet} {now : UInt64}
    (decoded : packet.WellFormed) (inv : Bounded b) (running : b.initialized = true)
    (stays : b.restarts packet now = false) (accepted : b.accepts packet now = true) :
    Bounded (b.push packet now) := by
  obtain ⟨⟨counters, newest, pushed⟩, format, fresh, reach⟩ := push_joined stays accepted
  obtain ⟨unheard, room, spare⟩ := joined_room stays accepted
  obtain ⟨ordered, queued⟩ := inv.running running
  obtain ⟨frames, size⟩ := pendingFrames_emplace fresh
  have member (other : Packet) :
      other ∈ b.pending.emplace packet ↔ other ∈ b.pending ∨ other = packet :=
    Keyed.mem_emplace fresh
  have sized := decoded.frames.2
  rw [bufferedFrames_eq] at spare
  rw [pushed]
  refine bounded_of_ordered running ?_ queued
  constructor
  · exact ordered.channels
  · change (b.pending.emplace packet).size ≤ 512
    omega
  · exact ordered.recent
  · intro other inside
    rcases (member other).mp inside with old | rfl
    · exact ordered.window other old
    · exact reach
  · intro other inside
    rcases (member other).mp inside with old | rfl
    · exact ordered.fresh other old
    · exact unheard
  · intro other inside
    rcases (member other).mp inside with old | rfl
    · exact ordered.decoded other old
    · exact ⟨decoded, format⟩
  · exact ordered.previous
  · exact ordered.whole
  · change ((b.pending.emplace packet).values.map fun packet => packet.frames.toNat).sum ≤ _
    rw [frames]
    change b.pendingFrames + packet.frames.toNat ≤ b.format.rate.toNat / 4 + 256
    omega

theorem bounded_push {b : StreamBuffer} (inv : Bounded b) {packet : Packet}
    (decoded : packet.WellFormed) (now : UInt64) : Bounded (b.push packet now) := by
  cases restarts : b.restarts packet now with
  | true => exact bounded_restarted decoded restarts
  | false =>
    have stays := restarts
    simp only [StreamBuffer.restarts, Bool.or_eq_false_iff] at stays
    have running := (not_opens stays.1).1
    cases accepted : b.accepts packet now with
    | true => exact bounded_joined decoded inv running restarts accepted
    | false =>
      obtain ⟨counters, pushed⟩ := push_of_refuses accepted
      obtain ⟨ordered, queued⟩ := inv.running running
      rw [pushed]
      exact bounded_of_ordered running (ordered.transfer rfl rfl rfl rfl rfl rfl) queued

/-- The prepared queue is a filled one, up to the count of an underrun. -/
theorem prepare_eq (b : StreamBuffer) :
    ∃ change : Counters → Counters, b.prepare.1 = (b.correct.fill b.consume).1.count change ∧
      b.prepare.2 = (b.correct.fill b.consume).2 ∧
      (b.prepare.2 = true → b.prepare.1 = (b.correct.fill b.consume).1) := by
  unfold prepare
  dsimp only
  split
  · exact ⟨id, rfl, rfl, fun _ => rfl⟩
  · rename_i failed
    exact ⟨_, rfl, rfl, fun succeeded => absurd succeeded failed⟩

theorem ordered_prepare {b : StreamBuffer} (inv : Ordered b) :
    Ordered b.prepare.1 ∧ b.prepare.1.queuedFrames ≤ max b.queuedFrames (b.consume + 255) ∧
      b.bufferedFrames ≤ b.prepare.1.bufferedFrames := by
  obtain ⟨change, prepared, _, _⟩ := b.prepare_eq
  have corrected : Ordered b.correct := inv.transfer rfl rfl rfl rfl rfl rfl
  obtain ⟨filled, queued, kept⟩ := ordered_filled (b.correct.fill_filled b.consume) corrected
  rw [prepared]
  exact ⟨filled.transfer rfl rfl rfl rfl rfl rfl, queued, kept⟩

theorem bounded_emit {b : StreamBuffer} (running : b.initialized = true) (inv : Ordered b)
    (queued : b.queuedFrames ≤ 255) : Bounded b.emit.1 := by
  have format := b.prepare_frame.format
  have session := b.prepare_frame.initialized
  obtain ⟨prepared, bound, _⟩ := ordered_prepare inv
  unfold emit
  dsimp only
  split
  · have length : (b.prepare.1.fifo.drop (b.consume * b.format.outputChannels)).length =
        b.prepare.1.fifo.length - b.consume * b.format.outputChannels := List.length_drop
    refine bounded_of_ordered (session.trans running) ?_ ?_
    · refine ⟨prepared.channels, prepared.pending, prepared.recent, prepared.window,
        prepared.fresh, prepared.decoded, prepared.previous, ?_, prepared.stored⟩
      have whole := prepared.whole
      dsimp only
      rw [length]
      rw [format] at whole ⊢
      exact Nat.dvd_sub whole (Nat.dvd_mul_left _ _)
    · rw [queuedFrames, format] at bound
      simp only [queuedFrames, length, format]
      rw [Nat.mul_comm, Nat.sub_mul_div]
      change b.prepare.1.fifo.length / b.format.outputChannels ≤ max (b.queuedFrames) _ at bound
      omega
  · exact bounded_clear prepared.recent

theorem bounded_start {b started : StreamBuffer} {now : UInt64} (inv : Bounded b)
    (running : b.initialized = true) (ready : b.start now = some started) :
    started.initialized = true ∧ Ordered started ∧ started.queuedFrames ≤ 255 := by
  obtain ⟨format, _, _, _, session, _, pending, fifo, recent, expected, previous, _⟩ :=
    start_fields ready
  obtain ⟨ordered, queued⟩ := inv.running running
  refine ⟨session.trans running, ordered.transfer format pending recent expected previous fifo, ?_⟩
  rw [queuedFrames, fifo, format]
  exact queued

theorem bounded_pull {b : StreamBuffer} (inv : Bounded b) (now : UInt64) :
    Bounded (b.pull now).1 := by
  generalize pulled : b.pull now = result
  obtain ⟨after, block⟩ := result
  cases pull_cases pulled with
  | idle | waiting => exact inv
  | inactive => exact bounded_clear inv.recent
  | early active ready =>
    obtain ⟨running, ordered, queued⟩ := bounded_start inv active.running ready
    exact bounded_of_ordered running ordered queued
  | suspended active ready =>
    obtain ⟨running, ordered, queued⟩ := bounded_start inv active.running ready
    exact bounded_clear ordered.recent
  | emitted active ready =>
    obtain ⟨running, ordered, queued⟩ := bounded_start inv active.running ready
    exact bounded_emit running ordered queued

theorem bounded_perform {b : StreamBuffer} (inv : Bounded b) {operation : Operation}
    (parsed : operation.Parsed) : Bounded (b.perform operation) := by
  cases operation with
  | push packet now =>
    obtain ⟨data, size, parsed⟩ := parsed
    exact bounded_push inv (decode_wellFormed parsed).1 now
  | pull now => exact bounded_pull inv now
  | reset => exact ⟨fun running => (Bool.false_ne_true running).elim, fun _ => ⟨rfl, rfl⟩, by
      simp [perform, reset]⟩

theorem bounded_ofRun (targetMs : UInt32) {operations : List Operation}
    (parsed : ∀ operation ∈ operations, operation.Parsed) : Bounded (ofRun targetMs operations) := by
  induction operations using List.reverseRecOn with
  | nil => exact ⟨fun running => (Bool.false_ne_true running).elim, fun _ => ⟨rfl, rfl⟩, by
      simp [ofRun]⟩
  | append_singleton earlier last ih =>
    have before := ih fun operation member => parsed operation (List.mem_append_left _ member)
    rw [ofRun, List.foldl_append]
    exact bounded_perform before (parsed last (by simp))

end StreamBuffer

/-- The limits of the buffer after every run of operations: packets and numbers
that it holds, how far ahead they are, and how many frames are buffered. -/
theorem buffer_bounded (targetMs : UInt32) (operations : List Operation)
    (parsed : ∀ operation ∈ operations, operation.Parsed) :
    let b := StreamBuffer.ofRun targetMs operations
    b.pending.size ≤ 512 ∧ b.recent.length ≤ 128 ∧
      (b.initialized = true → ∀ packet ∈ b.pending,
        ahead b.expected packet.sequence ≤ 512 ∧ packet.sequence ∉ b.recent) ∧
      b.format.outputChannels ∣ b.fifo.length ∧
      b.fifo.length ≤ 255 * b.format.outputChannels ∧
      b.bufferedFrames ≤ b.format.rate.toNat / 4 + 511 := by
  intro b
  have inv : StreamBuffer.Bounded b := StreamBuffer.bounded_ofRun targetMs parsed
  cases running : b.initialized with
  | false =>
    obtain ⟨pending, fifo⟩ := inv.closed running
    simp [pending, fifo, inv.recent, StreamBuffer.bufferedFrames]
  | true =>
    obtain ⟨ordered, queued⟩ := inv.running running
    have stored := ordered.stored
    refine ⟨ordered.pending, ordered.recent, ?_, ordered.whole, ?_, ?_⟩
    · exact fun _ packet member => ⟨ordered.window packet member, ordered.fresh packet member⟩
    · rw [← Nat.div_mul_cancel ordered.whole]
      exact Nat.mul_le_mul_right _ queued
    · rw [StreamBuffer.bufferedFrames_eq]
      omega

/-- The push of a received datagram, if the parser accepts it. -/
def heard (bytes : List UInt8) (now : UInt64) : List Operation :=
  match decode (Memory.ofBytes bytes) bytes.length with
  | .ok packet => [.push packet now]
  | .error _ => []

theorem heard_parsed (bytes : List UInt8) (now : UInt64) :
    ∀ operation ∈ heard bytes now, operation.Parsed := by
  intro operation member
  unfold heard at member
  split at member
  · rename_i packet parsed
    rw [List.mem_singleton.mp member]
    exact ⟨_, _, parsed⟩
  · cases member

/-- 10 ms of 8-bit mono at 6 kHz for stream "A". -/
def chirp : List UInt8 :=
  signature ++ [0, 59, 0, 0, 0x41] ++ List.replicate 19 0 ++ List.replicate 60 0xff

theorem buffer_bounded_chirp :
    (StreamBuffer.ofRun 30 (heard chirp 1000)).pending.size = 1 ∧
      (StreamBuffer.ofRun 30 (heard chirp 1000)).bufferedFrames ≤
        (StreamBuffer.ofRun 30 (heard chirp 1000)).format.rate.toNat / 4 + 511 :=
  ⟨by decide +kernel, (buffer_bounded 30 _ (heard_parsed chirp 1000)).2.2.2.2.2⟩

end VbanStream
