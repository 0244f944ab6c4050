import VbanStream.Buffer.Playout

namespace VbanStream

open Library StreamBuffer

def Event.number : Event → Option UInt32
  | .played packet => some packet.sequence
  | .stored _ | .concealed | .jumped _ => none

/-- The sequence numbers whose packets were played. -/
def Session.numbers (s : Session) : List UInt32 := s.events.filterMap Event.number

/-- Ten milliseconds of silence, numbered on the wire. -/
def wave (rounds : Nat) : Packet :=
  { format := ⟨6000, 1, 1⟩, sequence := UInt32.ofNat rounds, frames := 60
    samples := List.replicate 60 0 }

@[simp] theorem wave_format (rounds : Nat) : (wave rounds).format = ⟨6000, 1, 1⟩ := rfl

@[simp] theorem wave_sequence (rounds : Nat) :
    (wave rounds).sequence = UInt32.ofNat rounds := rfl

@[simp] theorem wave_frames (rounds : Nat) : (wave rounds).frames = 60 := rfl

@[simp] theorem length_wave_samples (rounds : Nat) : (wave rounds).samples.length = 60 :=
  List.length_replicate

def tick (rounds : Nat) : UInt64 := UInt64.ofNat (30001000 + 10000000 * rounds)

/-- One packet ahead of the listener, one packet and one block every 10 ms. -/
def steadyRun : Nat → List Operation
  | 0 => [.push (wave 0) 1000]
  | rounds + 1 => steadyRun rounds ++ [.push (wave (rounds + 1)) (tick rounds), .pull (tick rounds)]

theorem steadyRun_decoded (rounds : Nat) : ∀ operation ∈ steadyRun rounds, operation.Decoded := by
  have wellFormed (number : Nat) : (wave number).WellFormed := by
    constructor <;> simp [Format.outputChannels]
  induction rounds with
  | zero => simpa [steadyRun, Operation.Decoded] using wellFormed 0
  | succ rounds ih =>
    intro operation member
    rcases List.mem_append.mp member with old | new
    · exact ih operation old
    · simp only [List.mem_cons, List.not_mem_nil, or_false] at new
      rcases new with rfl | rfl
      · exact wellFormed (rounds + 1)
      · trivial

/-- The numbers played last, as far back as the buffer remembers them. -/
def lately (rounds : Nat) : List UInt32 :=
  (List.range' (rounds - 128) (min rounds 128)).map UInt32.ofNat

theorem lately_succ (rounds : Nat) :
    (if (lately rounds ++ [UInt32.ofNat rounds]).length > 128 then
      (lately rounds ++ [UInt32.ofNat rounds]).tail else lately rounds ++ [UInt32.ofNat rounds]) =
      lately (rounds + 1) := by
  have grown : lately rounds ++ [UInt32.ofNat rounds] =
      (List.range' (rounds - 128) (min rounds 128 + 1)).map UInt32.ofNat := by
    have last : rounds - 128 + min rounds 128 = rounds := by omega
    rw [List.range'_concat, List.map_append, lately]
    simp [last]
  rw [grown]
  by_cases many : rounds < 128
  · have low : rounds - 128 = 0 := by omega
    have next : rounds + 1 - 128 = 0 := by omega
    have size : min rounds 128 + 1 = min (rounds + 1) 128 := by omega
    rw [if_neg (by simp; omega), lately, low, next, size]
  · have size : min rounds 128 = 128 := by omega
    have next : rounds + 1 - 128 = rounds - 128 + 1 := by omega
    have again : min (rounds + 1) 128 = 128 := by omega
    rw [if_pos (by simp [size]), size, lately, next, again]
    simp [List.range'_succ]

theorem lately_next (rounds : Nat) : UInt32.ofNat (rounds + 1) ∉ lately rounds := by
  intro member
  obtain ⟨number, inside, same⟩ := List.mem_map.mp member
  have range := List.mem_range'_1.mp inside
  have wrapped := congrArg UInt32.toNat same
  simp only [UInt32.toNat_ofNat'] at wrapped
  omega

/-- The state after `rounds` rounds. -/
structure Steady (rounds : Nat) (b : StreamBuffer) : Prop where
  targetMs : b.targetMs = 30
  format : b.format = ⟨6000, 1, 1⟩
  initialized : b.initialized = true
  pending : b.pending.values = [wave rounds]
  fifo : b.fifo = []
  recent : b.recent = lately rounds
  expected : b.expected = UInt32.ofNat rounds
  first : b.first = 1000
  lastProgress : b.lastProgress = if rounds = 0 then 1000 else tick (rounds - 1)
  fresh : rounds = 0 → b.playing = false ∧ b.lastEnd = 0
  playing : rounds ≠ 0 → b.playing = true ∧ b.base = tick 0 ∧
    b.emitted = UInt64.ofNat (60 * rounds)

theorem tick_toNat {rounds : Nat} (bound : rounds ≤ 2 ^ 32) :
    (tick rounds).toNat = 30001000 + 10000000 * rounds := by
  simp only [tick, UInt64.toNat_ofNat']
  omega

theorem steady_lastProgress {rounds : Nat} {b : StreamBuffer} (steady : Steady rounds b)
    (bound : rounds ≤ 2 ^ 32) : ¬ tick rounds - b.lastProgress > 250000000 := by
  have now := tick_toNat bound
  have stored := steady.lastProgress
  by_cases zero : rounds = 0
  · subst zero
    rw [stored]
    decide
  · have past := tick_toNat (show rounds - 1 ≤ 2 ^ 32 by omega)
    rw [if_neg zero] at stored
    rw [stored, gt_iff_lt, UInt64.lt_iff_toNat_lt, UInt64.toNat_sub, now, past]
    simp only [UInt64.reduceToNat]
    omega

theorem steady_push {rounds : Nat} {b : StreamBuffer} (steady : Steady rounds b)
    (bound : rounds ≤ 2 ^ 32) :
    b.restarts (wave (rounds + 1)) (tick rounds) = false ∧
      b.accepts (wave (rounds + 1)) (tick rounds) = true := by
  have progress := steady_lastProgress steady bound
  have stays : b.opens (wave (rounds + 1)) (tick rounds) = false := by
    simpa [opens, steady.initialized, steady.format] using progress
  have next : (wave (rounds + 1)).sequence - b.expected = 1 := by
    apply UInt32.toNat_inj.mp
    simp only [wave_sequence, steady.expected, UInt32.toNat_sub, UInt32.toNat_ofNat', UInt32.reduceToNat]
    omega
  have single : b.pending.contains (wave (rounds + 1)).sequence = false := by
    have apart : (wave rounds).sequence ≠ (wave (rounds + 1)).sequence := by
      intro same
      have wrapped := congrArg UInt32.toNat same
      simp only [wave_sequence, UInt32.toNat_ofNat'] at wrapped
      omega
    simp [Keyed.contains, Keyed.find?, steady.pending]
  have unheard : b.recent.contains (wave (rounds + 1)).sequence = false := by
    rw [steady.recent, ← Bool.not_eq_true, List.contains_iff_mem]
    exact lately_next rounds
  have accepted : b.accepts (wave (rounds + 1)) (tick rounds) = true := by
    rw [accepts, enter_of_not_opens stays]
    change (!(b.pending.contains _ || b.recent.contains _) &&
      !decide ((wave (rounds + 1)).sequence - b.expected ≥ 0x80000000)) = true
    rw [single, unheard, next]
    decide
  have fits : (b.enter (wave (rounds + 1)) (tick rounds)).overflows (wave (rounds + 1)) = false := by
    rw [enter_of_not_opens stays]
    change (decide ((wave (rounds + 1)).sequence - b.expected > 512) ||
      decide (b.pending.size ≥ 512) || decide (b.bufferedFrames > b.format.rate.toNat / 4)) = false
    rw [next]
    simp [bufferedFrames, Keyed.size, steady.pending, steady.fifo, steady.format]
  exact ⟨by simp [StreamBuffer.restarts, stays, fits], accepted⟩

/-- The state of the buffer between a round's push and its pull. -/
structure Supplied (rounds : Nat) (b : StreamBuffer) : Prop where
  targetMs : b.targetMs = 30
  format : b.format = ⟨6000, 1, 1⟩
  initialized : b.initialized = true
  pending : b.pending.values = [wave rounds, wave (rounds + 1)]
  fifo : b.fifo = []
  recent : b.recent = lately rounds
  expected : b.expected = UInt32.ofNat rounds
  first : b.first = 1000
  lastProgress : b.lastProgress = tick rounds

section Round

variable {rounds : Nat} {b : StreamBuffer} (supplied : Supplied rounds b)
include supplied

theorem supplied_consume : b.consume = 60 ∧ b.blockFrames = 60 ∧ b.format.outputChannels = 1 := by
  have channels : b.format.outputChannels = 1 := by rw [supplied.format]; rfl
  have frames : b.blockFrames = 60 := by rw [blockFrames, supplied.format]; rfl
  have queued : b.bufferedFrames = 120 := by
    simp [bufferedFrames, supplied.pending, supplied.fifo]
  refine ⟨?_, frames, channels⟩
  rw [consume, queued, frames, supplied.format, supplied.targetMs]
  rfl

theorem supplied_nextVisit : b.nextVisit = some (.played (wave rounds)) := by
  have found : b.pending.find? b.expected = some (wave rounds) := by
    simp [Keyed.find?, supplied.pending, supplied.expected]
  simp [nextVisit, found]

theorem supplied_filled {visits : List Visit} {after : StreamBuffer} {ok : Bool}
    (filled : Filled 60 b visits after ok) :
    visits = [.played (wave rounds)] ∧ after = b.play (wave rounds) ∧ ok = true := by
  have channels := (supplied_consume supplied).2.2
  have next := supplied_nextVisit supplied
  cases filled with
  | enough long => simp [supplied.fifo] at long
  | starved short stuck => rw [next] at stuck; cases stuck
  | turn short found rest =>
    rw [next] at found
    cases found
    have long : (b.play (wave rounds)).fifo.length / (b.play (wave rounds)).format.outputChannels =
        60 := by
      change (b.fifo ++ _).length / b.format.outputChannels = 60
      simp [supplied.fifo, channels]
    cases rest with
    | enough => exact ⟨rfl, rfl, rfl⟩
    | starved short =>
      change (b.play (wave rounds)).fifo.length / (b.play (wave rounds)).format.outputChannels < 60
        at short
      omega
    | turn short =>
      change (b.play (wave rounds)).fifo.length / (b.play (wave rounds)).format.outputChannels < 60
        at short
      omega

end Round

theorem supplied_correct {rounds : Nat} {b : StreamBuffer} (supplied : Supplied rounds b) :
    Supplied rounds b.correct := by
  obtain ⟨targetMs, format, initialized, pending, fifo, recent, expected, first, lastProgress⟩ :=
    supplied
  exact ⟨targetMs, format, initialized, pending, fifo, recent, expected, first, lastProgress⟩

theorem supplied_prepare {rounds : Nat} {b : StreamBuffer} (supplied : Supplied rounds b) :
    b.correct.visits b.consume = [.played (wave rounds)] ∧
      b.prepare = (b.correct.play (wave rounds), true) := by
  have consume := (supplied_consume supplied).1
  have filled := b.correct.fill_filled 60
  obtain ⟨visits, after, ok⟩ := supplied_filled (supplied_correct supplied) filled
  rw [consume]
  refine ⟨visits, ?_⟩
  rw [prepare, consume, ok, after]
  rfl

theorem steady_supplied {rounds : Nat} {b : StreamBuffer} (steady : Steady rounds b)
    (bound : rounds ≤ 2 ^ 32) :
    let pushed := b.push (wave (rounds + 1)) (tick rounds)
    Supplied rounds pushed ∧ pushed.playing = b.playing ∧ pushed.base = b.base ∧
      pushed.emitted = b.emitted ∧ pushed.lastEnd = b.lastEnd := by
  obtain ⟨stays, accepted⟩ := steady_push steady bound
  obtain ⟨⟨counters, newest, pushed⟩, _⟩ := push_joined stays accepted
  rw [pushed]
  refine ⟨?_, rfl, rfl, rfl, rfl⟩
  constructor
  · exact steady.targetMs
  · exact steady.format
  · exact steady.initialized
  · simp [Keyed.emplace, steady.pending]
  · exact steady.fifo
  · exact steady.recent
  · exact steady.expected
  · exact steady.first
  · rfl

theorem supplied_due {rounds : Nat} {b : StreamBuffer} (bound : rounds ≤ 2 ^ 32)
    (format : b.format = ⟨6000, 1, 1⟩) (base : b.base = tick 0)
    (emitted : b.emitted = UInt64.ofNat (60 * rounds)) : b.due = tick rounds := by
  have count : (UInt64.ofNat (60 * rounds)).toNat = 60 * rounds := by
    simp only [UInt64.toNat_ofNat']
    omega
  have exact : nanoseconds (60 * rounds) 6000 = 10000000 * rounds := by
    unfold nanoseconds
    omega
  apply UInt64.toNat_inj.mp
  rw [due, format, base, emitted, UInt64.toNat_add, tick_toNat bound, tick_toNat (Nat.zero_le _),
    framesToNs_toNat (by decide) (by rw [count]; exact exact ▸ by omega), count]
  change (30001000 + 10000000 * 0 + nanoseconds (60 * rounds) 6000) % 2 ^ 64 = _
  omega

theorem steady_start {rounds : Nat} {b : StreamBuffer} (steady : Steady rounds b)
    (bound : rounds ≤ 2 ^ 32) :
    ∃ started, (b.push (wave (rounds + 1)) (tick rounds)).start (tick rounds) = some started ∧
      Supplied rounds started ∧ started.playing = true ∧ started.base = tick 0 ∧
      started.emitted = UInt64.ofNat (60 * rounds) := by
  obtain ⟨supplied, playing, base, emitted, lastEnd⟩ := steady_supplied steady bound
  generalize b.push (wave (rounds + 1)) (tick rounds) = pushed at *
  obtain ⟨targetMs, format, initialized, pending, fifo, recent, expected, first, lastProgress⟩ :=
    supplied
  by_cases zero : rounds = 0
  · subst zero
    obtain ⟨silent, never⟩ := steady.fresh rfl
    have ready : pushed.start (tick 0) = some { pushed with
        base := max (tick 0) pushed.lastEnd, emitted := 0, playing := true } := by
      rw [start, playing, silent, first, targetMs]
      rfl
    refine ⟨_, ready, ⟨targetMs, format, initialized, pending, fifo, recent, expected, first,
      lastProgress⟩, rfl, ?_, rfl⟩
    rw [lastEnd, never]
    rfl
  · obtain ⟨audible, origin, count⟩ := steady.playing zero
    have ready : pushed.start (tick rounds) = some pushed := by
      rw [start, playing, audible]
      rfl
    exact ⟨pushed, ready, ⟨targetMs, format, initialized, pending, fifo, recent, expected, first,
      lastProgress⟩, playing.trans audible, base.trans origin, emitted.trans count⟩

/-- A round emits one block and leaves the next packet waiting. -/
theorem steady_round {rounds : Nat} {b : StreamBuffer} (steady : Steady rounds b)
    (bound : rounds ≤ 2 ^ 32) :
    ∃ started, (b.push (wave (rounds + 1)) (tick rounds)).start (tick rounds) = some started ∧
      (b.push (wave (rounds + 1)) (tick rounds)).pull (tick rounds) =
        (started.emit.1, some started.emit.2) ∧
      started.correct.visits started.consume = [.played (wave rounds)] ∧
      Steady (rounds + 1) started.emit.1 := by
  obtain ⟨started, ready, supplied, playing, base, emitted⟩ := steady_start steady bound
  have pushed := (steady_supplied steady bound).1
  have due := supplied_due bound supplied.format base emitted
  obtain ⟨visits, prepared⟩ := supplied_prepare supplied
  obtain ⟨consume, frames, channels⟩ := supplied_consume supplied
  refine ⟨started, ready, ?_, visits, ?_⟩
  · rw [pull, pushed.initialized, pushed.format, pushed.lastProgress, ready]
    simp [due]
  · have next : started.nextEmitted = UInt64.ofNat (60 * (rounds + 1)) := by
      rw [nextEmitted, emitted, frames, Nat.mul_add, UInt64.ofNat_add]
    have after : started.emit.1 = { started.correct.play (wave rounds) with
        fifo := [], emitted := started.nextEmitted
        lastEnd := started.base + framesToNs started.nextEmitted started.format.rate } := by
      have taken : (started.correct.play (wave rounds)).fifo.drop
          (started.consume * started.format.outputChannels) = [] := by
        change (started.fifo ++ _).drop _ = []
        simp [supplied.fifo, consume, channels]
      rw [emit, prepared, taken]
      rfl
    rw [after]
    constructor
    · exact supplied.targetMs
    · exact supplied.format
    · exact supplied.initialized
    · change (started.pending.erase started.expected).values = _
      simp [Keyed.erase, supplied.pending, supplied.expected]
    · rfl
    · have recent : started.correct.recent = lately rounds := supplied.recent
      have expected : started.correct.expected = UInt32.ofNat rounds := supplied.expected
      change (if (started.correct.recent ++ [started.correct.expected]).length > 128 then
        (started.correct.recent ++ [started.correct.expected]).tail
        else started.correct.recent ++ [started.correct.expected]) = _
      rw [recent, expected]
      exact lately_succ rounds
    · change started.expected + 1 = _
      rw [supplied.expected, UInt32.ofNat_add]
      rfl
    · exact supplied.first
    · exact supplied.lastProgress
    · intro zero
      cases zero
    · exact fun _ => ⟨playing, base, next⟩

theorem steady_ofRun {rounds : Nat} (bound : rounds ≤ 2 ^ 32 + 1) :
    let p := Playout.ofRun 30 (steadyRun rounds)
    Steady rounds p.buffer ∧
      p.session.numbers = (List.range rounds).map UInt32.ofNat := by
  induction rounds with
  | zero =>
    refine ⟨?_, rfl⟩
    constructor
    case fresh => exact fun _ => ⟨rfl, rfl⟩
    case playing => exact fun other => absurd rfl other
    all_goals rfl
  | succ rounds ih =>
    obtain ⟨steady, numbers⟩ := ih (by omega)
    obtain ⟨stays, accepted⟩ := steady_push steady (by omega)
    obtain ⟨started, ready, pulled, visits, next⟩ := steady_round steady (by omega)
    have advanced : Playout.ofRun 30 (steadyRun (rounds + 1)) =
        ((Playout.ofRun 30 (steadyRun rounds)).push (wave (rounds + 1)) (tick rounds)).pull
          (tick rounds) := by
      simp [Playout.ofRun, steadyRun, Playout.step]
    generalize Playout.ofRun 30 (steadyRun rounds) = p at *
    have running := next.initialized
    rw [advanced]
    simp only [Playout.push, stays, Bool.false_eq_true, ↓reduceIte, accepted, Playout.pull, pulled,
      Playout.record, ready, Option.elim_some, running]
    refine ⟨next, ?_⟩
    simp only [Session.numbers] at numbers
    simp only [Session.numbers, Session.emit, visits, List.flatMap_cons, List.flatMap_nil,
      Visit.events, List.filterMap_append, numbers, List.range_succ, List.map_append,
      List.append_assoc]
    rfl

/-- A session of `2 ^ 32 + 1` packets, all well formed and on time, plays
number 0 twice. -/
theorem number_played_twice :
    (∀ operation ∈ steadyRun (2 ^ 32 + 1), operation.Decoded) ∧
      ∃ session ∈ (Playout.ofRun 30 (steadyRun (2 ^ 32 + 1))).sessions, ¬ session.numbers.Nodup := by
  obtain ⟨steady, numbers⟩ := steady_ofRun (Nat.le_refl (2 ^ 32 + 1))
  refine ⟨steadyRun_decoded _, (Playout.ofRun 30 (steadyRun (2 ^ 32 + 1))).session, ?_, ?_⟩
  · rw [Playout.sessions_initialized steady.initialized]
    exact List.mem_append_right _ (List.mem_singleton_self _)
  · rw [numbers]
    intro distinct
    have same := List.inj_on_of_nodup_map distinct (List.mem_range.mpr (by omega : 0 < 2 ^ 32 + 1))
      (List.mem_range.mpr (by omega : 2 ^ 32 < 2 ^ 32 + 1)) rfl
    omega

end VbanStream
