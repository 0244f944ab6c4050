import VbanStream.Buffer.Tracking
import VbanStream.Buffer.Schedule

/-! Sessions of one buffer over whole runs: every session plays the reference
stream, consumed block by block. -/

namespace VbanStream

open Library StreamBuffer

def Operation.Decoded : Operation → Prop
  | .push packet _ => packet.WellFormed
  | .pull _ | .reset => True

/-- What one emitted block took from the queue. -/
structure Slice where
  wanted : Nat
  taken : List ℚ
  starved : Bool
  block : AudioBlock

/-- The history of one session: what it stored and visited, the samples that
were appended to the queue, and the blocks that consumed them. -/
structure Session where
  opening : Packet := {}
  events : List Event := []
  appended : List ℚ := []
  slices : List Slice := []
  queue : List ℚ := []
  lost : Nat := 0

/-- The part of the history that one emission adds. -/
def Session.emit (s : Session) (b : StreamBuffer) : Session :=
  let prepared := b.prepare.1
  let wanted := b.consume * b.format.outputChannels
  { s with
    events := s.events ++ (b.correct.visits b.consume).flatMap Visit.events
    appended := s.appended ++ prepared.fifo.drop b.fifo.length
    slices := s.slices ++ [{
      wanted := b.consume
      taken := prepared.fifo.take wanted
      starved := !b.prepare.2
      block := b.block }]
    queue := prepared.fifo.drop wanted
    lost := s.lost + (prepared.counters.lost - b.counters.lost) }

structure Playout where
  buffer : StreamBuffer
  past : List Session := []
  session : Session := {}
  output : List AudioBlock := []

namespace Playout

def close (p : Playout) : Playout :=
  if p.buffer.initialized then { p with past := p.past ++ [p.session] } else p

def push (p : Playout) (packet : Packet) (now : UInt64) : Playout :=
  let recorded :=
    if p.buffer.restarts packet now then
      { p.close with session := { opening := packet, events := [.stored packet] } }
    else if p.buffer.accepts packet now then
      { p with session := { p.session with events := p.session.events ++ [.stored packet] } }
    else p
  { recorded with buffer := p.buffer.push packet now }

/-- An emitted block goes on record with what it took. -/
def record (p : Playout) (now : UInt64) : Option AudioBlock → Playout
  | none => p
  | some block => { p with
      session := (p.buffer.start now).elim p.session p.session.emit
      output := p.output ++ [block] }

def pull (p : Playout) (now : UInt64) : Playout :=
  let (after, block) := p.buffer.pull now
  let recorded := p.record now block
  { (if after.initialized then recorded else recorded.close) with buffer := after }

def step (p : Playout) : Operation → Playout
  | .push packet now => p.push packet now
  | .pull now => p.pull now
  | .reset => { p.close with buffer := p.buffer.reset }

def ofRun (targetMs : UInt32) (operations : List Operation) : Playout :=
  operations.foldl step { buffer := { targetMs } }

/-- All sessions of the run, the open one last. -/
def sessions (p : Playout) : List Session := p.close.past

end Playout

/-- A block takes about its own length from the queue and plays it unchanged when
the lengths agree; only a starved block is padded. -/
structure Slice.Sound (slice : Slice) (layout : Format) : Prop where
  format : slice.block.format = layout
  size : slice.block.frames = max 1 (layout.rate.toNat / 100)
  near : slice.wanted + 1 = slice.block.frames ∨ slice.wanted = slice.block.frames ∨
    slice.wanted = slice.block.frames + 1
  whole : slice.starved = false → slice.taken.length = slice.wanted * layout.outputChannels
  short : slice.starved = true → slice.taken.length < slice.wanted * layout.outputChannels
  samples : slice.block.samples = blockSamples
    (slice.taken ++ List.replicate (slice.wanted * layout.outputChannels - slice.taken.length) 0)
    slice.block.frames slice.wanted layout.outputChannels
  exact : slice.starved = false → slice.wanted = slice.block.frames →
    slice.block.samples = slice.taken

/-- The session's history is a playout of the reference, consumed in order. -/
structure Session.Renders (s : Session) (final : Reference) : Prop where
  path : Path (Reference.Step s.opening.sequence s.opening.format.outputChannels) {} s.events final
  opened : s.events.head? = some (.stored s.opening)
  stream : s.appended = final.stream
  lost : s.lost = final.missing.length
  consumed : s.slices.flatMap Slice.taken ++ s.queue = s.appended
  slices : ∀ slice ∈ s.slices, slice.Sound s.opening.format
  fed : ∀ slice ∈ s.slices.dropLast, slice.starved = false
  exhausted : (∃ slice ∈ s.slices, slice.starved = true) → s.queue = [] ∧ final.pending = ∅


section Sessions

variable {s : Session} {b : StreamBuffer} {before : Nat} {r : Reference}

/-- The session that the buffer is playing. -/
structure Session.Live (s : Session) (b : StreamBuffer) (before : Nat) (r : Reference) : Prop where
  renders : s.Renders r
  tracks : Tracks s.opening (s.slices.flatMap Slice.taken) before b r
  queue : s.queue = b.fifo
  fed : ∀ slice ∈ s.slices, slice.starved = false
  channels : 0 < s.opening.format.outputChannels

theorem outputChannels_pos {packet : Packet} (decoded : packet.WellFormed) :
    0 < packet.format.outputChannels := by
  have some := decoded.channels.1
  unfold Format.outputChannels
  split <;> omega

theorem missing_mono {first : UInt32} {channels : Nat} {events : List Event} {next : Reference}
    (path : Path (Reference.Step first channels) r events next) :
    r.missing.length ≤ next.missing.length := by
  induction path with
  | nil => exact le_rfl
  | snoc _ taken ih =>
    refine ih.trans ?_
    cases taken <;> simp

theorem consume_near (b : StreamBuffer) :
    b.consume + 1 = b.blockFrames ∨ b.consume = b.blockFrames ∨
      b.consume = b.blockFrames + 1 := by
  unfold consume
  dsimp only
  split
  · exact .inr (.inr rfl)
  · split
    · rename_i shorter
      exact .inl (Nat.sub_add_cancel (by omega))
    · exact .inr (.inl rfl)

/-- The slice that one emission records. -/
theorem slice_sound {layout : Format} (format : b.format = layout)
    (channels : 0 < layout.outputChannels) :
    Slice.Sound { wanted := b.consume
                  taken := b.prepare.1.fifo.take (b.consume * b.format.outputChannels)
                  starved := !b.prepare.2
                  block := b.block } layout := by
  subst format
  have padded : b.prepare.1.fifo.take (b.consume * b.format.outputChannels) ++
      List.replicate (b.consume * b.format.outputChannels -
        (b.prepare.1.fifo.take (b.consume * b.format.outputChannels)).length) 0 =
      b.prepare.1.takeInput (b.consume * b.format.outputChannels) := by
    rw [takeInput, List.length_take]
    congr 2
    omega
  constructor
  · rfl
  · rfl
  · exact consume_near b
  · intro fed
    have long := prepare_long (by simpa using fed)
    simpa using long
  · intro starved
    have short := (prepare_short (by simpa using starved) channels).1
    simpa using short
  · rw [padded]
    rfl
  · intro fed same
    have long := prepare_long (by simpa using fed)
    simp only [block] at same ⊢
    rw [blockSamples, if_pos same, takeInput, Nat.sub_eq_zero_of_le long]
    simp

theorem taken_emit (s : Session) (b : StreamBuffer) :
    (s.emit b).slices.flatMap Slice.taken = s.slices.flatMap Slice.taken ++
      b.prepare.1.fifo.take (b.consume * b.format.outputChannels) := by
  simp [Session.emit]

/-- An emission that does not starve only takes its slice from the queue. -/
theorem tracks_emitted {opening : Packet} {consumed : List ℚ}
    (tracks : Tracks opening consumed before b.prepare.1 r) (fed : b.prepare.2 = true) :
    Tracks opening (consumed ++ b.prepare.1.fifo.take (b.consume * b.format.outputChannels)) before
      b.emit.1 r := by
  constructor
  · simpa [StreamBuffer.emit, fed] using tracks.format
  · simpa [StreamBuffer.emit, fed] using tracks.expected
  · simpa [StreamBuffer.emit, fed] using tracks.pending
  · simpa [StreamBuffer.emit, fed] using tracks.previous
  · simpa [StreamBuffer.emit, fed] using tracks.window
  · simpa [StreamBuffer.emit, fed] using tracks.decoded
  · simp [StreamBuffer.emit, fed, tracks.stream]
  · simpa [StreamBuffer.emit, fed] using tracks.lost

/-- One emission extends the playout by its visits and its slice. -/
theorem renders_emit (live : s.Live b before r) {next : Reference}
    (path : Path (Reference.Step s.opening.sequence s.opening.format.outputChannels) r
      ((b.correct.visits b.consume).flatMap Visit.events) next)
    (tracks : Tracks s.opening (s.slices.flatMap Slice.taken) before b.prepare.1 next) :
    (s.emit b).Renders next := by
  obtain ⟨added, appended⟩ := b.prepare_appends
  have format : b.format = s.opening.format := live.tracks.format
  have stream : (s.emit b).appended = next.stream := by
    have old := live.renders.stream.trans live.tracks.stream
    rw [tracks.stream, ← appended]
    simp [Session.emit, ← appended, old]
  have starving (starved : b.prepare.2 = false) :
      b.prepare.1.fifo.drop (b.consume * b.format.outputChannels) = [] ∧ next.pending = ∅ := by
    obtain ⟨short, stuck⟩ := prepare_short starved (format ▸ live.channels)
    exact ⟨List.drop_eq_nil_of_le (Nat.le_of_lt short), tracks.exhausted stuck⟩
  constructor
  · exact live.renders.path.append path
  · simp [Session.emit, List.head?_append, live.renders.opened]
  · exact stream
  · have more := missing_mono path
    have kept := live.renders.lost
    have old := live.tracks.lost
    have new := tracks.lost
    simp only [Session.emit]
    omega
  · rw [taken_emit, stream, tracks.stream, List.append_assoc]
    simp [Session.emit]
  · intro slice member
    rcases List.mem_append.mp member with old | new
    · exact live.renders.slices slice old
    · rw [List.mem_singleton.mp new]
      exact slice_sound format live.channels
  · intro slice member
    simp only [Session.emit, List.dropLast_concat] at member
    exact live.fed slice member
  · rintro ⟨slice, member, starved⟩
    rcases List.mem_append.mp member with old | new
    · rw [live.fed slice old] at starved
      cases starved
    · rw [List.mem_singleton.mp new] at starved
      exact starving (by simpa using starved)

theorem live_emit (live : s.Live b before r) :
    ∃ next, (s.emit b).Renders next ∧
      (b.prepare.2 = true → (s.emit b).Live b.emit.1 before next) := by
  obtain ⟨next, path, tracks⟩ := tracks_prepare live.tracks
  refine ⟨next, renders_emit live path tracks, fun fed => ?_⟩
  constructor
  · exact renders_emit live path tracks
  · rw [taken_emit]
    exact tracks_emitted tracks fed
  · simp [Session.emit, StreamBuffer.emit, fed]
  · intro slice member
    rcases List.mem_append.mp member with old | new
    · exact live.fed slice old
    · rw [List.mem_singleton.mp new]
      simp [fed]
  · exact live.channels

/-- Only the fields that filling reads matter. -/
theorem Session.Live.transfer (live : s.Live b before r) {after : StreamBuffer}
    (format : after.format = b.format) (expected : after.expected = b.expected)
    (pending : after.pending = b.pending) (previous : after.previousFrames = b.previousFrames)
    (fifo : after.fifo = b.fifo) (lost : after.counters.lost = b.counters.lost) :
    s.Live after before r where
  renders := live.renders
  tracks := live.tracks.transfer format expected pending previous fifo lost
  queue := by rw [fifo]; exact live.queue
  fed := live.fed
  channels := live.channels

theorem live_start {started : StreamBuffer} {now : UInt64} (live : s.Live b before r)
    (ready : b.start now = some started) : s.Live started before r := by
  obtain ⟨format, _, _, _, _, _, pending, fifo, _, expected, previous, counters, _⟩ :=
    start_fields ready
  exact live.transfer format expected pending previous fifo (by rw [counters])

/-- A session starts with the packet that opens it. -/
theorem live_restarted {packet : Packet} {now : UInt64} (decoded : packet.WellFormed)
    (restarts : b.restarts packet now = true) :
    ∃ next, Session.Live { opening := packet, events := [.stored packet] }
      (b.push packet now) b.counters.lost next := by
  have lost := b.push_lost packet now
  obtain ⟨counters, newest, pushed⟩ := push_restarted restarts
  rw [pushed] at lost ⊢
  have alone : ∀ other, other ∈ (∅ : Keyed Packet.sequence).emplace packet ↔ other = packet := by
    intro other
    rw [Keyed.mem_emplace rfl]
    simp
  have here : ({} : Reference).distance packet.sequence packet = 0 := by
    simp [Reference.distance]
  refine ⟨_, ⟨.single (.stored (by simp) (by simp [here])), rfl, rfl, rfl, rfl, by simp, by simp,
    by simp⟩, ?_, rfl, by simp, outputChannels_pos decoded⟩
  constructor
  · rfl
  · simp [begin]
  · intro other
    rw [alone]
    simp
  · rfl
  · intro other member
    rw [(alone other).mp member]
    simp [begin]
  · intro other member
    rw [(alone other).mp member]
    exact decoded
  · rfl
  · exact lost

/-- A packet that joins the session becomes pending. -/
theorem live_joined {packet : Packet} {now : UInt64} (decoded : packet.WellFormed)
    (live : s.Live b before r) (stays : b.restarts packet now = false)
    (accepted : b.accepts packet now = true) :
    ∃ next, Session.Live { s with events := s.events ++ [.stored packet] }
      (b.push packet now) before next := by
  have lost := b.push_lost packet now
  obtain ⟨⟨counters, newest, pushed⟩, _, fresh, reach⟩ := push_joined stays accepted
  rw [pushed] at lost ⊢
  have member : ∀ other, other ∈ b.pending.emplace packet ↔ other ∈ b.pending ∨ other = packet :=
    fun other => Keyed.mem_emplace fresh
  have apart : ∀ other ∈ r.pending, other.sequence ≠ packet.sequence := by
    intro other pending same
    have inside := (live.tracks.pending other).mp pending
    rw [Keyed.contains_iff.mpr ⟨other, inside, same⟩] at fresh
    cases fresh
  have near : r.distance s.opening.sequence packet ≤ 512 := by
    rw [live.tracks.distance]
    exact reach
  have renders := live.renders
  have tracks := live.tracks
  refine ⟨_, ⟨.snoc renders.path (.stored apart near), ?_, renders.stream, renders.lost,
    renders.consumed, renders.slices, renders.fed, ?_⟩, ?_, live.queue, live.fed, live.channels⟩
  · simp [List.head?_append, renders.opened]
  · rintro ⟨slice, inside, starved⟩
    rw [live.fed slice inside] at starved
    cases starved
  · constructor
    · exact tracks.format
    · exact tracks.expected
    · intro other
      rw [member, Set.mem_insert_iff, tracks.pending, or_comm]
    · exact tracks.previous
    · intro other inside
      rcases (member other).mp inside with old | rfl
      · exact tracks.window other old
      · exact reach
    · intro other inside
      rcases (member other).mp inside with old | rfl
      · exact tracks.decoded other old
      · exact decoded
    · exact tracks.stream
    · exact lost.trans tracks.lost

end Sessions

namespace Playout

/-- Every session so far plays the reference; the open one is the buffer's. -/
structure Invariant (p : Playout) : Prop where
  past : ∀ session ∈ p.past, ∃ final, session.Renders final
  live : p.buffer.initialized = true → ∃ before r, p.session.Live p.buffer before r
  output : (p.sessions.flatMap Session.slices).map Slice.block = p.output

theorem invariant_renders {p : Playout} (inv : Invariant p) :
    ∀ session ∈ p.sessions, ∃ final, session.Renders final := by
  intro session member
  unfold sessions close at member
  split at member
  · rename_i running
    rcases List.mem_append.mp member with old | new
    · exact inv.past session old
    · obtain ⟨before, r, live⟩ := inv.live running
      rw [List.mem_singleton.mp new]
      exact ⟨r, live.renders⟩
  · exact inv.past session member

theorem close_output (p : Playout) : p.close.output = p.output := by
  unfold close
  split <;> rfl

theorem sessions_closed {p : Playout} {after : StreamBuffer} (closed : after.initialized = false) :
    sessions { p.close with buffer := after } = p.sessions := by
  change (close { p.close with buffer := after }).past = p.close.past
  simp [close, closed]

theorem invariant_closed {p : Playout} (inv : Invariant p) {after : StreamBuffer}
    (closed : after.initialized = false) : Invariant { p.close with buffer := after } := by
  refine ⟨invariant_renders inv, ?_, ?_⟩
  · intro running
    rw [closed] at running
    cases running
  · rw [sessions_closed closed]
    exact inv.output.trans (close_output p).symm

theorem invariant_live {p : Playout} (inv : Invariant p) {after : StreamBuffer}
    (kept : after.initialized = p.buffer.initialized)
    (live : p.buffer.initialized = true → ∃ before r, p.session.Live after before r) :
    Invariant { p with buffer := after } := by
  refine ⟨inv.past, fun running => live (kept ▸ running), ?_⟩
  rw [← inv.output]
  simp only [sessions, close, kept]
  split <;> rfl

theorem sessions_initialized {p : Playout} (running : p.buffer.initialized = true) :
    p.sessions = p.past ++ [p.session] := by
  simp [sessions, close, running]

theorem invariant_push {p : Playout} (inv : Invariant p) {packet : Packet} {now : UInt64}
    (decoded : packet.WellFormed) : Invariant (p.push packet now) := by
  have running := (p.buffer.push_schedule packet now).2.2.2.2.1
  unfold push
  dsimp only
  by_cases restarts : p.buffer.restarts packet now = true
  · rw [if_pos restarts]
    obtain ⟨next, live⟩ := live_restarted decoded restarts
    refine ⟨invariant_renders inv, fun _ => ⟨_, next, live⟩, ?_⟩
    rw [sessions_initialized running]
    change ((p.sessions ++ [_]).flatMap Session.slices).map Slice.block = p.close.output
    rw [close_output, ← inv.output]
    simp
  · rw [if_neg restarts]
    have stays : p.buffer.restarts packet now = false := by simpa using restarts
    have opens : p.buffer.opens packet now = false := by
      simp only [StreamBuffer.restarts, Bool.or_eq_false_iff] at stays
      exact stays.1
    have session := (not_opens opens).1
    obtain ⟨before, r, live⟩ := inv.live session
    have output := inv.output
    rw [sessions_initialized session] at output
    by_cases accepted : p.buffer.accepts packet now = true
    · rw [if_pos accepted]
      obtain ⟨next, joined⟩ := live_joined decoded live stays accepted
      refine ⟨inv.past, fun _ => ⟨before, next, joined⟩, ?_⟩
      rw [sessions_initialized running]
      simpa using output
    · rw [if_neg accepted]
      have refused : p.buffer.accepts packet now = false := by simpa using accepted
      have lost := p.buffer.push_lost packet now
      obtain ⟨counters, pushed⟩ := push_of_refuses refused
      apply invariant_live inv (running.trans session.symm)
      rintro -
      rw [pushed] at lost ⊢
      exact ⟨before, r, live.transfer rfl rfl rfl rfl rfl lost⟩

theorem invariant_emit {p : Playout} (inv : Invariant p) {started : StreamBuffer} {now : UInt64}
    (active : p.buffer.Active now) (ready : p.buffer.start now = some started) :
    let recorded : Playout := { p with
      session := p.session.emit started, output := p.output ++ [started.emit.2] }
    Invariant { (if started.emit.1.initialized then recorded else recorded.close) with
      buffer := started.emit.1 } := by
  intro recorded
  obtain ⟨before, r, live⟩ := inv.live active.running
  obtain ⟨next, renders, continued⟩ := live_emit (live_start live ready)
  have open' : started.initialized = true :=
    (start_fields ready).2.2.2.2.1.trans active.running
  obtain ⟨_, _, _, _, _, _, _, _, fed, starved⟩ := started.emit_schedule
  have output : ((p.past ++ [p.session.emit started]).flatMap Session.slices).map Slice.block =
      recorded.output := by
    have old := inv.output
    rw [sessions_initialized active.running] at old
    simp only [recorded, ← old]
    simp [Session.emit, StreamBuffer.emit]
  cases outcome : started.prepare.2 with
  | true =>
    have running : started.emit.1.initialized = true := (fed outcome).1.trans open'
    rw [if_pos running]
    refine ⟨inv.past, fun _ => ⟨before, next, continued outcome⟩, ?_⟩
    rw [sessions_initialized running]
    exact output
  | false =>
    have closed : started.emit.1.initialized = false := (starved outcome).1
    have history : recorded.sessions = p.past ++ [p.session.emit started] :=
      sessions_initialized (p := recorded) active.running
    have known : ∀ session ∈ recorded.sessions, ∃ final, session.Renders final := by
      rw [history]
      intro session member
      rcases List.mem_append.mp member with old | new
      · exact inv.past session old
      · rw [List.mem_singleton.mp new]
        exact ⟨next, renders⟩
    rw [if_neg (by simp [closed])]
    refine ⟨known, ?_, ?_⟩
    · intro running
      rw [closed] at running
      cases running
    · rw [sessions_closed closed, history]
      exact output.trans (close_output recorded).symm

theorem invariant_pull {p : Playout} (inv : Invariant p) (now : UInt64) :
    Invariant (p.pull now) := by
  unfold pull
  generalize pulled : p.buffer.pull now = result
  obtain ⟨after, block⟩ := result
  dsimp only
  cases pull_cases pulled with
  | idle =>
    simp only [record]
    by_cases running : p.buffer.initialized = true
    · rw [if_pos running]
      exact inv
    · have closed : p.buffer.initialized = false := by simpa using running
      rw [if_neg running]
      exact invariant_closed inv closed
  | inactive | suspended => exact invariant_closed inv rfl
  | waiting active =>
    simp only [record, active.running, ↓reduceIte]
    exact inv
  | early active ready =>
    have kept := (start_fields ready).2.2.2.2.1
    simp only [record, kept, active.running, ↓reduceIte]
    apply invariant_live inv kept
    intro session
    obtain ⟨before, r, live⟩ := inv.live session
    exact ⟨before, r, live_start live ready⟩
  | emitted active ready =>
    simp only [record, ready, Option.elim_some]
    exact invariant_emit inv active ready

theorem invariant_step {p : Playout} (inv : Invariant p) {operation : Operation}
    (decoded : operation.Decoded) : Invariant (p.step operation) := by
  cases operation with
  | push packet now => exact invariant_push inv decoded
  | pull now => exact invariant_pull inv now
  | reset => exact invariant_closed inv rfl

theorem invariant_ofRun (targetMs : UInt32) {operations : List Operation}
    (decoded : ∀ operation ∈ operations, operation.Decoded) :
    Invariant (ofRun targetMs operations) := by
  induction operations using List.reverseRecOn with
  | nil => exact ⟨by simp [ofRun], by simp [ofRun], rfl⟩
  | append_singleton front last ih =>
    have before := ih fun operation member => decoded operation (List.mem_append_left _ member)
    simpa [ofRun] using invariant_step before (decoded last (by simp))

end Playout

/-- In every session of every run the queue receives the reference stream: the
pending packet's own samples, silence across short gaps between packets of one
length, nothing across longer ones. Each skipped or silent number is counted as
lost, no number returns within a turn of the circle, and the blocks take the
stream in consecutive slices. -/
theorem playout_reference (targetMs : UInt32) (operations : List Operation)
    (decoded : ∀ operation ∈ operations, operation.Decoded) :
    let p := Playout.ofRun targetMs operations
    (∀ session ∈ p.sessions, ∃ final, session.Renders final ∧
      final.visited.Pairwise fun early late => early < late ∧
        (serial session.opening.sequence early = serial session.opening.sequence late →
          early + 2 ^ 32 ≤ late)) ∧
    (p.sessions.flatMap Session.slices).map Slice.block = p.output ∧
    (p.buffer.initialized = true → ∃ final, p.session.Renders final ∧
      p.session ∈ p.sessions ∧ p.session.queue = p.buffer.fifo ∧
      p.buffer.expected = serial p.session.opening.sequence final.position ∧
      ∀ packet, packet ∈ final.pending ↔ packet ∈ p.buffer.pending) := by
  intro p
  have inv := Playout.invariant_ofRun targetMs decoded
  refine ⟨?_, inv.output, ?_⟩
  · intro session member
    obtain ⟨final, renders⟩ := Playout.invariant_renders inv session member
    exact ⟨final, renders, Reference.visits_apart renders.path⟩
  · intro running
    obtain ⟨before, r, live⟩ := inv.live running
    have listed : p.session ∈ p.sessions := by
      rw [Playout.sessions_initialized running]
      simp
    exact ⟨r, live.renders, listed, live.queue, live.tracks.expected, live.tracks.pending⟩

/-- Three packets of 10 ms, the middle one lost on the way. -/
def gapRun : List Operation :=
  let packet (number : UInt32) : Packet :=
    { format := ⟨6000, 1, 1⟩, sequence := number, frames := 60, samples := List.replicate 60 1 }
  [.push (packet 7) 1000, .push (packet 9) 1000, .pull 30001000, .pull 40001000, .pull 50001000]

theorem playout_reference_gapRun :
    (Playout.ofRun 30 gapRun).sessions.map Session.lost = [1] ∧
      (Playout.ofRun 30 gapRun).output.length = 3 ∧
      ∀ session ∈ (Playout.ofRun 30 gapRun).sessions, ∃ final, session.Renders final := by
  have decoded : ∀ operation ∈ gapRun, operation.Decoded := by
    intro operation member
    simp only [gapRun, List.mem_cons, List.not_mem_nil, or_false] at member
    rcases member with rfl | rfl | rfl | rfl | rfl
    · exact ⟨by decide, by decide, by decide +kernel⟩
    · exact ⟨by decide, by decide, by decide +kernel⟩
    all_goals trivial
  refine ⟨by decide +kernel, by decide +kernel, fun session member => ?_⟩
  obtain ⟨final, renders, _⟩ := (playout_reference 30 gapRun decoded).1 session member
  exact ⟨final, renders⟩

end VbanStream
