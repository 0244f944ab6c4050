import VbanStream.Buffer.StreamBuffer

namespace VbanStream.StreamBuffer

open Library

/-- The fields that filling never touches. -/
structure Frame (before after : StreamBuffer) : Prop where
  targetMs : after.targetMs = before.targetMs
  format : after.format = before.format
  first : after.first = before.first
  lastValid : after.lastValid = before.lastValid
  lastProgress : after.lastProgress = before.lastProgress
  base : after.base = before.base
  emitted : after.emitted = before.emitted
  lastEnd : after.lastEnd = before.lastEnd
  initialized : after.initialized = before.initialized
  playing : after.playing = before.playing

namespace Frame

theorem refl (b : StreamBuffer) : Frame b b := by constructor <;> rfl

theorem trans {first second third : StreamBuffer} (one : Frame first second)
    (two : Frame second third) : Frame first third := by
  constructor
  · exact two.targetMs.trans one.targetMs
  · exact two.format.trans one.format
  · exact two.first.trans one.first
  · exact two.lastValid.trans one.lastValid
  · exact two.lastProgress.trans one.lastProgress
  · exact two.base.trans one.base
  · exact two.emitted.trans one.emitted
  · exact two.lastEnd.trans one.lastEnd
  · exact two.initialized.trans one.initialized
  · exact two.playing.trans one.playing

end Frame

theorem visit_frame (b : StreamBuffer) (visit : Visit) : Frame b (b.visit visit) := by
  cases visit <;> constructor <;> rfl

theorem fillLoop_frame (frames turns : Nat) (b : StreamBuffer) :
    Frame b (fillLoop frames turns b).1 := by
  induction turns generalizing b with
  | zero => exact .refl b
  | succ turns ih =>
    unfold fillLoop
    split
    · split
      · exact .refl b
      · rename_i visit _
        exact (b.visit_frame visit).trans (ih (b.visit visit))
    · exact .refl b

theorem fill_frame (b : StreamBuffer) (frames : Nat) : Frame b (b.fill frames).1 :=
  fillLoop_frame frames _ b

theorem count_frame (b : StreamBuffer) (change : Counters → Counters) :
    Frame b (b.count change) := by constructor <;> rfl

theorem prepare_frame (b : StreamBuffer) : Frame b b.prepare.1 := by
  have done : Frame b (b.correct.fill b.consume).1 :=
    (b.count_frame _).trans (b.correct.fill_frame b.consume)
  unfold prepare
  dsimp only
  split
  · exact done
  · exact done.trans (count_frame _ _)

/-- The number of the block after this one. -/
def nextEmitted (b : StreamBuffer) : UInt64 := b.emitted + UInt64.ofNat b.blockFrames

/-- Emission moves the schedule by one block and nothing else; an underrun
closes the session. -/
theorem emit_schedule (b : StreamBuffer) :
    b.emit.1.targetMs = b.targetMs ∧ b.emit.1.format = b.format ∧
      b.emit.1.first = b.first ∧ b.emit.1.lastValid = b.lastValid ∧
      b.emit.1.lastProgress = b.lastProgress ∧ b.emit.1.base = b.base ∧
      b.emit.1.emitted = b.nextEmitted ∧
      b.emit.1.lastEnd = b.base + framesToNs b.nextEmitted b.format.rate ∧
      (b.prepare.2 = true → b.emit.1.initialized = b.initialized ∧ b.emit.1.playing = b.playing) ∧
      (b.prepare.2 = false → b.emit.1.initialized = false ∧ b.emit.1.playing = false) := by
  have frame := b.prepare_frame
  cases filled : b.prepare.2 <;>
    simp [emit, filled, clear, nextEmitted, frame.targetMs, frame.format, frame.first,
      frame.lastValid, frame.lastProgress, frame.base, frame.initialized, frame.playing]

@[simp] theorem emit_lastValid (b : StreamBuffer) : b.emit.1.lastValid = b.lastValid :=
  b.emit_schedule.2.2.2.1

@[simp] theorem emit_lastProgress (b : StreamBuffer) : b.emit.1.lastProgress = b.lastProgress :=
  b.emit_schedule.2.2.2.2.1

/-- `start` opens a schedule at the later of the clock and the last output. -/
theorem start_cases {b started : StreamBuffer} {now : UInt64} (ready : b.start now = some started) :
    (b.playing = true ∧ started = b) ∨
      (b.playing = false ∧ started = { b with
        base := max now b.lastEnd, emitted := 0, playing := true }) := by
  unfold start at ready
  cases playing : b.playing with
  | true =>
    simp only [playing, ↓reduceIte, Option.some.injEq] at ready
    exact .inl ⟨rfl, ready.symm⟩
  | false =>
    simp only [playing, Bool.false_eq_true, ↓reduceIte] at ready
    split at ready
    · cases ready
    · exact .inr ⟨rfl, (Option.some.inj ready).symm⟩

theorem start_fields {b started : StreamBuffer} {now : UInt64}
    (ready : b.start now = some started) :
    started.format = b.format ∧ started.lastValid = b.lastValid ∧
      started.lastProgress = b.lastProgress ∧ started.lastEnd = b.lastEnd ∧
      started.initialized = b.initialized ∧ started.playing = true ∧
      started.pending = b.pending ∧ started.fifo = b.fifo ∧ started.recent = b.recent ∧
      started.expected = b.expected ∧ started.previousFrames = b.previousFrames ∧
      started.counters = b.counters ∧ started.targetMs = b.targetMs := by
  rcases start_cases ready with ⟨playing, rfl⟩ | ⟨_, rfl⟩
  · simp [playing]
  · simp

/-- `pull`'s inactivity rule fires. -/
def Inactive (b : StreamBuffer) (now : UInt64) : Prop :=
  (b.initialized = true ∧ b.format.rate ≠ 0) ∧ now - b.lastProgress > 250000000

instance (b : StreamBuffer) (now : UInt64) : Decidable (b.Inactive now) := by
  unfold Inactive; infer_instance

/-- A session is open and its packets still arrive. -/
structure Active (b : StreamBuffer) (now : UInt64) : Prop where
  running : b.initialized = true
  rate : b.format.rate ≠ 0
  recent : ¬ now - b.lastProgress > 250000000

/-- The six ways out of `pull`. -/
inductive Pulled (b : StreamBuffer) (now : UInt64) : StreamBuffer → Option AudioBlock → Prop where
  | idle (unready : b.initialized = false ∨ b.format.rate = 0) : Pulled b now b none
  | inactive (expired : b.Inactive now) : Pulled b now b.clear none
  | waiting (active : b.Active now) (silent : b.start now = none) : Pulled b now b none
  | early (active : b.Active now) (ready : b.start now = some started)
      (early : now < started.due) : Pulled b now started none
  | suspended (active : b.Active now) (ready : b.start now = some started)
      (due : ¬ now < started.due) (stale : now - started.due > 100000000) :
      Pulled b now
        (started.count fun c => { c with discontinuities := c.discontinuities + 1 }).clear none
  | emitted (active : b.Active now) (ready : b.start now = some started)
      (due : ¬ now < started.due) (fresh : ¬ now - started.due > 100000000) :
      Pulled b now started.emit.1 (some started.emit.2)

theorem pull_cases {b after : StreamBuffer} {now : UInt64} {block : Option AudioBlock}
    (pulled : b.pull now = (after, block)) : Pulled b now after block := by
  suffices general : Pulled b now (b.pull now).1 (b.pull now).2 by
    rw [pulled] at general
    exact general
  clear pulled
  unfold pull
  split
  · rename_i unready
    exact .idle unready
  · rename_i session
    have open' : b.initialized = true ∧ b.format.rate ≠ 0 := by simpa using session
    split
    · rename_i expired
      exact .inactive ⟨open', expired⟩
    · rename_i recent
      have active : b.Active now := ⟨open'.1, open'.2, recent⟩
      split
      · rename_i silent
        exact .waiting active silent
      · rename_i started ready
        split
        · rename_i early
          exact .early active ready early
        · rename_i due
          split
          · rename_i stale
            exact .suspended active ready due stale
          · rename_i fresh
            exact .emitted active ready due fresh

/-- `push` stored the packet: it was neither a duplicate nor late. -/
def accepts (b : StreamBuffer) (packet : Packet) (now : UInt64) : Bool :=
  !(b.enter packet now).duplicate packet && !(b.enter packet now).tooLate packet

theorem enter_of_opens {b : StreamBuffer} {packet : Packet} {now : UInt64}
    (opens : b.opens packet now = true) :
    ∃ counters, b.enter packet now =
      { b with lastValid := now, counters := counters }.begin packet now := by
  have same : { b.count fun c => { c with received := c.received + 1 } with
      lastValid := now }.opens packet now = true := opens
  unfold enter
  simp only [same, ↓reduceIte]
  split <;> exact ⟨_, rfl⟩

theorem enter_of_not_opens {b : StreamBuffer} {packet : Packet} {now : UInt64}
    (stays : b.opens packet now = false) :
    b.enter packet now =
      { b.count fun c => { c with received := c.received + 1 } with lastValid := now } := by
  have same : { b.count fun c => { c with received := c.received + 1 } with
      lastValid := now }.opens packet now = false := stays
  simp [enter, same]

theorem accepts_of_opens {b : StreamBuffer} {packet : Packet} {now : UInt64}
    (opens : b.opens packet now = true) : b.accepts packet now = true := by
  obtain ⟨counters, entered⟩ := enter_of_opens opens
  simp [accepts, entered, begin, duplicate, tooLate, Keyed.contains, Keyed.find?]

theorem push_of_accepts {b : StreamBuffer} {packet : Packet} {now : UInt64}
    (accepted : b.accepts packet now = true) :
    b.push packet now = (b.enter packet now).store packet now := by
  simp only [accepts, Bool.and_eq_true, Bool.not_eq_true'] at accepted
  simp [push, accepted.1, accepted.2]

theorem push_of_refuses {b : StreamBuffer} {packet : Packet} {now : UInt64}
    (refused : b.accepts packet now = false) :
    ∃ counters, b.push packet now = { b with counters := counters, lastValid := now } := by
  have stays : b.opens packet now = false := by
    cases opens : b.opens packet now with
    | false => rfl
    | true => rw [accepts_of_opens opens] at refused; cases refused
  have entered := enter_of_not_opens stays
  unfold push
  simp only [accepts, Bool.and_eq_false_iff, Bool.not_eq_false'] at refused
  rw [entered] at refused ⊢
  rcases refused with repeated | late
  · simp only [repeated, ↓reduceIte]
    exact ⟨_, rfl⟩
  · simp only [late, ↓reduceIte]
    split <;> exact ⟨_, rfl⟩

/-- The two states an accepted packet is stored in: the session it joins, or
the session it opens. -/
theorem store_cases (b : StreamBuffer) (packet : Packet) (now : UInt64) :
    ∃ counters newest, b.store packet now =
      { (if b.overflows packet then b.begin packet now else b) with
        counters := counters, newest := newest, lastProgress := now
        pending := (if b.overflows packet then ∅ else b.pending).emplace packet } := by
  unfold store
  dsimp only
  cases b.overflows packet <;> simp only [Bool.false_eq_true, ↓reduceIte]
  · split <;> exact ⟨_, _, rfl⟩
  · split <;> exact ⟨_, _, rfl⟩

theorem enter_initialized (b : StreamBuffer) (packet : Packet) (now : UInt64) :
    (b.enter packet now).initialized = true := by
  cases opens : b.opens packet now with
  | true =>
    obtain ⟨counters, entered⟩ := enter_of_opens opens
    rw [entered]
    rfl
  | false =>
    rw [enter_of_not_opens opens]
    simp only [StreamBuffer.opens, Bool.or_eq_false_iff, Bool.not_eq_false'] at opens
    exact opens.1.1

theorem enter_lastValid (b : StreamBuffer) (packet : Packet) (now : UInt64) :
    (b.enter packet now).lastValid = now := by
  cases opens : b.opens packet now with
  | true =>
    obtain ⟨counters, entered⟩ := enter_of_opens opens
    rw [entered]
    rfl
  | false => rw [enter_of_not_opens opens]

theorem push_accepted {b : StreamBuffer} {packet : Packet} {now : UInt64}
    (accepted : b.accepts packet now = true) :
    (b.push packet now).initialized = true ∧ (b.push packet now).lastProgress = now := by
  rw [push_of_accepts accepted]
  obtain ⟨counters, newest, stored⟩ := (b.enter packet now).store_cases packet now
  rw [stored]
  refine ⟨?_, rfl⟩
  dsimp only
  split
  · rfl
  · exact b.enter_initialized packet now

theorem push_refused {b : StreamBuffer} {packet : Packet} {now : UInt64}
    (refused : b.accepts packet now = false) :
    (b.push packet now).initialized = b.initialized ∧
      (b.push packet now).lastProgress = b.lastProgress := by
  obtain ⟨counters, pushed⟩ := push_of_refuses refused
  simp [pushed]

theorem push_lastValid (b : StreamBuffer) (packet : Packet) (now : UInt64) :
    (b.push packet now).lastValid = now := by
  cases accepted : b.accepts packet now with
  | true =>
    rw [push_of_accepts accepted]
    obtain ⟨counters, newest, stored⟩ := (b.enter packet now).store_cases packet now
    rw [stored]
    dsimp only
    split
    · exact b.enter_lastValid packet now
    · exact b.enter_lastValid packet now
  | false =>
    obtain ⟨counters, pushed⟩ := push_of_refuses accepted
    simp [pushed]

theorem not_opens {b : StreamBuffer} {packet : Packet} {now : UInt64}
    (stays : b.opens packet now = false) :
    b.initialized = true ∧ packet.format = b.format ∧ ¬ now - b.lastProgress > 250000000 := by
  simpa [opens, and_assoc] using stays

/-- `push` starts a session: at an opening packet, or where an accepted packet
overruns the current one. -/
def restarts (b : StreamBuffer) (packet : Packet) (now : UInt64) : Bool :=
  b.opens packet now || b.accepts packet now && (b.enter packet now).overflows packet

theorem begin_overflows (b : StreamBuffer) (packet : Packet) (now : UInt64) :
    (b.begin packet now).overflows packet = false := by
  simp [begin, overflows, bufferedFrames]

theorem push_restarted {b : StreamBuffer} {packet : Packet} {now : UInt64}
    (restarts : b.restarts packet now = true) :
    ∃ counters newest, b.push packet now = { b.begin packet now with
      counters := counters, newest := newest, lastValid := now
      pending := (∅ : Keyed Packet.sequence).emplace packet } := by
  cases opens : b.opens packet now with
  | true =>
    rw [push_of_accepts (accepts_of_opens opens)]
    obtain ⟨counters, entered⟩ := enter_of_opens opens
    obtain ⟨after, newest, stored⟩ := (b.enter packet now).store_cases packet now
    rw [stored, entered, begin_overflows]
    exact ⟨after, newest, rfl⟩
  | false =>
    simp only [StreamBuffer.restarts, opens, Bool.false_or, Bool.and_eq_true] at restarts
    obtain ⟨accepted, overflow⟩ := restarts
    rw [push_of_accepts accepted]
    obtain ⟨after, newest, stored⟩ := (b.enter packet now).store_cases packet now
    rw [stored, overflow, enter_of_not_opens opens]
    exact ⟨after, newest, rfl⟩

/-- An accepted packet that starts no session is within reach of the current one. -/
theorem push_joined {b : StreamBuffer} {packet : Packet} {now : UInt64}
    (stays : b.restarts packet now = false) (accepted : b.accepts packet now = true) :
    (∃ counters newest, b.push packet now = { b with
      counters := counters, newest := newest, lastValid := now, lastProgress := now
      pending := b.pending.emplace packet }) ∧
      packet.format = b.format ∧ b.pending.contains packet.sequence = false ∧
      (packet.sequence - b.expected).toNat ≤ 512 := by
  simp only [StreamBuffer.restarts, accepted, Bool.true_and, Bool.or_eq_false_iff] at stays
  obtain ⟨opens, fits⟩ := stays
  have fresh := accepted
  rw [push_of_accepts accepted]
  obtain ⟨after, newest, stored⟩ := (b.enter packet now).store_cases packet now
  rw [stored]
  simp only [accepts, enter_of_not_opens opens] at fits fresh ⊢
  rw [fits]
  simp only [overflows, Bool.or_eq_false_iff, decide_eq_false_iff_not] at fits
  simp only [duplicate, Bool.and_eq_true, Bool.not_eq_true', Bool.or_eq_false_iff] at fresh
  have reach : packet.sequence - b.expected ≤ 512 := UInt32.not_lt.mp fits.1.1
  exact ⟨⟨after, newest, rfl⟩, (not_opens opens).2.1, fresh.1.1,
    UInt32.le_iff_toNat_le.mp reach⟩

@[simp] theorem enter_lost (b : StreamBuffer) (packet : Packet) (now : UInt64) :
    (b.enter packet now).counters.lost = b.counters.lost := by
  unfold enter
  dsimp only
  split
  · split <;> rfl
  · rfl

@[simp] theorem store_lost (b : StreamBuffer) (packet : Packet) (now : UInt64) :
    (b.store packet now).counters.lost = b.counters.lost := by
  unfold store
  dsimp only
  split <;> split <;> rfl

/-- Only filling counts lost packets. -/
theorem push_lost (b : StreamBuffer) (packet : Packet) (now : UInt64) :
    (b.push packet now).counters.lost = b.counters.lost := by
  unfold push
  dsimp only
  split
  · exact b.enter_lost packet now
  · split
    · exact b.enter_lost packet now
    · rw [store_lost, enter_lost]

/-- A push leaves the output schedule alone: it joins the session as it stands,
or opens a session that is not playing yet. -/
theorem push_schedule (b : StreamBuffer) (packet : Packet) (now : UInt64) :
    (b.push packet now).lastEnd = b.lastEnd ∧ (b.push packet now).base = b.base ∧
      (b.push packet now).emitted = b.emitted ∧ (b.push packet now).targetMs = b.targetMs ∧
      (b.push packet now).initialized = true ∧
      (((b.push packet now).format = packet.format ∧ (b.push packet now).playing = false) ∨
        (b.initialized = true ∧ (b.push packet now).format = b.format ∧
          (b.push packet now).playing = b.playing)) := by
  cases accepted : b.accepts packet now with
  | false =>
    have stays : b.opens packet now = false := by
      cases opens : b.opens packet now with
      | false => rfl
      | true => rw [accepts_of_opens opens] at accepted; cases accepted
    obtain ⟨counters, pushed⟩ := push_of_refuses accepted
    have session := (not_opens stays).1
    simp [pushed, session]
  | true =>
    rw [push_of_accepts accepted]
    obtain ⟨counters, newest, stored⟩ := (b.enter packet now).store_cases packet now
    rw [stored]
    cases opens : b.opens packet now with
    | true =>
      obtain ⟨counters, entered⟩ := enter_of_opens opens
      rw [entered]
      cases overflow : (({ b with lastValid := now, counters := counters }.begin packet now).overflows
        packet) <;> simp [begin]
    | false =>
      have session := (not_opens opens).1
      rw [enter_of_not_opens opens]
      cases overflow : (StreamBuffer.overflows { b.count fun c => { c with
        received := c.received + 1 } with lastValid := now } packet) <;> simp [begin, count, session]

theorem pull_clocks (b : StreamBuffer) (now : UInt64) :
    (b.pull now).1.lastValid = b.lastValid ∧ (b.pull now).1.lastProgress = b.lastProgress := by
  generalize pulled : b.pull now = result
  obtain ⟨after, block⟩ := result
  cases pull_cases pulled with
  | idle | inactive | waiting => exact ⟨rfl, rfl⟩
  | early _ ready =>
    have same := start_fields ready
    exact ⟨same.2.1, same.2.2.1⟩
  | suspended _ ready =>
    have same := start_fields ready
    exact ⟨same.2.1, same.2.2.1⟩
  | emitted _ ready =>
    have same := start_fields ready
    exact ⟨(emit_lastValid _).trans same.2.1, (emit_lastProgress _).trans same.2.2.1⟩

theorem pull_initialized {b : StreamBuffer} {now : UInt64}
    (running : (b.pull now).1.initialized = true) : b.initialized = true := by
  generalize pulled : b.pull now = result at running
  obtain ⟨after, block⟩ := result
  cases pull_cases pulled with
  | idle | waiting => exact running
  | inactive expired => exact expired.1.1
  | early _ ready => exact (start_fields ready).2.2.2.2.1 ▸ running
  | suspended => cases running
  | emitted active => exact active.running

end VbanStream.StreamBuffer
