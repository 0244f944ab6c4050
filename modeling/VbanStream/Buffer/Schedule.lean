import VbanStream.Buffer.Steps

namespace VbanStream

open StreamBuffer

inductive Operation where
  | push (packet : Packet) (now : UInt64)
  | pull (now : UInt64)
  | reset

/-- A table rate and a clock in the lower half of the 64-bit range. -/
def Operation.Admissible : Operation → Prop
  | .push packet now => packet.format.rate ∈ sampleRates ∧ now.toNat < 2 ^ 63
  | .pull now => now.toNat < 2 ^ 63
  | .reset => True

/-- A block, the clock of the pull that emitted it, and its place: the playing
session and the number of blocks that session emitted before. -/
structure Emission where
  session : Nat
  index : Nat
  now : UInt64
  block : AudioBlock

structure Timeline where
  buffer : StreamBuffer
  session : Nat := 0
  index : Nat := 0
  emissions : List Emission := []

namespace Timeline

/-- The playing flag rose during this pull; an underrun may have cleared it again. -/
def opened (before after : StreamBuffer) (block : Option AudioBlock) : Bool :=
  !before.playing && (after.playing || block.isSome)

def pull (t : Timeline) (now : UInt64) : Timeline :=
  let (after, block) := t.buffer.pull now
  let session := if opened t.buffer after block then t.session + 1 else t.session
  let index := if opened t.buffer after block then 0 else t.index
  match block with
  | none => { t with buffer := after, session, index }
  | some block =>
    { buffer := after, session
      index := index + 1
      emissions := t.emissions ++ [{ session, index, now, block }] }

def step (t : Timeline) : Operation → Timeline
  | .push packet now => { t with buffer := t.buffer.push packet now }
  | .pull now => t.pull now
  | .reset => { t with buffer := t.buffer.reset }

def ofRun (targetMs : UInt32) (operations : List Operation) : Timeline :=
  operations.foldl step { buffer := { targetMs } }

end Timeline

/-- Exact end of a block on the output clock. -/
def AudioBlock.end (block : AudioBlock) : Nat :=
  block.timestamp.toNat + nanoseconds block.frames block.format.rate.toNat

theorem nanoseconds_blockFrames {b : StreamBuffer} (listed : b.format.rate ∈ sampleRates) :
    nanoseconds b.blockFrames b.format.rate.toNat ≤ 10000000 := by
  have bounds := sampleRates_bound listed
  have frames : b.blockFrames = b.format.rate.toNat / 100 := by
    unfold blockFrames; omega
  rw [nanoseconds, frames]
  apply Nat.div_le_of_le_mul
  calc b.format.rate.toNat / 100 * 1000000000
      = b.format.rate.toNat / 100 * 100 * 10000000 := by ring
    _ ≤ b.format.rate.toNat * 10000000 := Nat.mul_le_mul_right _ (Nat.div_mul_le_self _ _)

/-- The latest instant a schedule can reach while clocks stay below `2 ^ 63`. -/
def horizon : Nat := 2 ^ 63 + 10000001

theorem frames_lt_of_horizon {frames rate : Nat} (bound : rate ≤ 705600) (positive : 0 < rate)
    (within : nanoseconds frames rate ≤ horizon) : frames < 2 ^ 63 := by
  unfold nanoseconds at within
  have product : frames * 1000000000 < (horizon + 1) * rate :=
    (Nat.div_lt_iff_lt_mul positive).mp (Nat.lt_succ_of_le within)
  have top : (horizon + 1) * rate ≤ (horizon + 1) * 705600 := Nat.mul_le_mul_left _ bound
  simp only [horizon] at top product
  omega

/-- The schedule fields after any admissible run. `origin` and `count` are the
playing session's base and block number. -/
structure ScheduleInvariant (b : StreamBuffer) (count : Nat) : Prop where
  listed : b.initialized = true → b.format.rate ∈ sampleRates
  session : b.playing = true → b.initialized = true
  lastEnd : b.lastEnd.toNat ≤ horizon
  emitted : b.playing = true → b.emitted.toNat = count * b.blockFrames
  within : b.playing = true →
    b.base.toNat + nanoseconds b.emitted.toNat b.format.rate.toNat ≤ horizon
  ahead : b.playing = true →
    b.lastEnd.toNat ≤ b.base.toNat + nanoseconds b.emitted.toNat b.format.rate.toNat

theorem toNat_max (first second : UInt64) :
    (max first second).toNat = max first.toNat second.toNat := by
  change (if first ≤ second then second else first).toNat = _
  split
  · rename_i order
    have := UInt64.le_iff_toNat_le.mp order
    omega
  · rename_i order
    have := UInt64.lt_iff_toNat_lt.mp (UInt64.not_le.mp order)
    omega

theorem due_toNat {b : StreamBuffer} {count : Nat} (inv : ScheduleInvariant b count)
    (playing : b.playing = true) :
    b.due.toNat = b.base.toNat + nanoseconds b.emitted.toNat b.format.rate.toNat := by
  have bounds := sampleRates_bound (inv.listed (inv.session playing))
  have within := inv.within playing
  simp only [horizon] at within
  rw [due, UInt64.toNat_add, framesToNs_toNat (by omega) (by omega), Nat.mod_eq_of_lt (by omega)]

theorem scheduleInvariant_push {b : StreamBuffer} {count : Nat} (inv : ScheduleInvariant b count)
    {packet : Packet} (listed : packet.format.rate ∈ sampleRates) (now : UInt64) :
    ScheduleInvariant (b.push packet now) count := by
  obtain ⟨lastEnd, base, emitted, _, running, restarted | ⟨session, format, playing⟩⟩ :=
    b.push_schedule packet now
  · obtain ⟨format, silent⟩ := restarted
    constructor <;> simp_all [inv.lastEnd]
  · have frames : (b.push packet now).blockFrames = b.blockFrames := by
      rw [blockFrames, format, ← blockFrames]
    constructor
    · intro _; rw [format]; exact inv.listed session
    · intro _; exact running
    · rw [lastEnd]; exact inv.lastEnd
    · rw [playing, emitted, frames]; exact inv.emitted
    · rw [playing, base, emitted, format]; exact inv.within
    · rw [playing, lastEnd, base, emitted, format]; exact inv.ahead

theorem scheduleInvariant_start {b started : StreamBuffer} {count : Nat} {now : UInt64}
    (inv : ScheduleInvariant b count) (running : b.initialized = true)
    (early : now.toNat < 2 ^ 63) (ready : b.start now = some started) :
    ScheduleInvariant started (if b.playing then count else 0) := by
  rcases start_cases ready with ⟨playing, rfl⟩ | ⟨silent, rfl⟩
  · simpa [playing] using inv
  · have lastEnd := inv.lastEnd
    have zero : nanoseconds 0 b.format.rate.toNat = 0 := by simp [nanoseconds]
    constructor
    · exact inv.listed
    · intro _; exact running
    · exact lastEnd
    · simp [silent]
    · intro _
      simp only [toNat_max, UInt64.toNat_zero, zero, horizon] at *
      omega
    · intro _
      simp only [toNat_max, UInt64.toNat_zero, zero]
      omega

theorem blockFrames_toNat (b : StreamBuffer) : (UInt64.ofNat b.blockFrames).toNat = b.blockFrames := by
  have rate := b.format.rate.toNat_lt
  simp only [UInt64.toNat_ofNat', blockFrames]
  omega

theorem blockFrames_le {b : StreamBuffer} (listed : b.format.rate ∈ sampleRates) :
    b.blockFrames ≤ 7056 := by
  have bounds := sampleRates_bound listed
  unfold blockFrames
  omega

/-- An emission due now moves the schedule one block forward, within the horizon. -/
theorem emit_advance {b : StreamBuffer} {count : Nat} {now : UInt64}
    (inv : ScheduleInvariant b count) (playing : b.playing = true)
    (early : now.toNat < 2 ^ 63) (due : ¬ now < b.due) :
    b.nextEmitted.toNat = (count + 1) * b.blockFrames ∧
      b.emit.1.lastEnd.toNat =
        b.base.toNat + nanoseconds b.nextEmitted.toNat b.format.rate.toNat ∧
      b.emit.1.lastEnd.toNat ≤ horizon ∧
      b.due.toNat + nanoseconds b.blockFrames b.format.rate.toNat ≤ b.emit.1.lastEnd.toNat := by
  have listed := inv.listed (inv.session playing)
  have bounds := sampleRates_bound listed
  have within := inv.within playing
  have dueEq := due_toNat inv playing
  have order := UInt64.le_iff_toNat_le.mp (UInt64.not_lt.mp due)
  have small := frames_lt_of_horizon bounds.2 (by omega) (Nat.le_of_add_left_le within)
  have length := blockFrames_le listed
  have next : b.nextEmitted.toNat = b.emitted.toNat + b.blockFrames := by
    rw [nextEmitted, UInt64.toNat_add, blockFrames_toNat b, Nat.mod_eq_of_lt (by omega)]
  have joined := nanoseconds_add b.emitted.toNat b.blockFrames b.format.rate.toNat
  have joinedLe := nanoseconds_add_le b.emitted.toNat b.blockFrames b.format.rate.toNat
  have tenth := nanoseconds_blockFrames listed
  have fits : b.base.toNat + nanoseconds b.nextEmitted.toNat b.format.rate.toNat ≤ horizon := by
    rw [next]
    simp only [horizon]
    omega
  have lastEnd : b.emit.1.lastEnd.toNat =
      b.base.toNat + nanoseconds b.nextEmitted.toNat b.format.rate.toNat := by
    obtain ⟨_, _, _, _, _, _, _, ended, _, _⟩ := b.emit_schedule
    simp only [horizon] at fits
    rw [ended, UInt64.toNat_add, framesToNs_toNat (by omega) (by omega),
      Nat.mod_eq_of_lt (by omega)]
  refine ⟨?_, lastEnd, ?_, ?_⟩
  · rw [next, inv.emitted playing, Nat.add_mul, Nat.one_mul]
  · rw [lastEnd]; exact fits
  · rw [lastEnd, next, dueEq]; omega

theorem scheduleInvariant_emit {b : StreamBuffer} {count : Nat} {now : UInt64}
    (inv : ScheduleInvariant b count) (playing : b.playing = true)
    (early : now.toNat < 2 ^ 63) (due : ¬ now < b.due) :
    ScheduleInvariant b.emit.1 (count + 1) := by
  obtain ⟨next, lastEnd, within, _⟩ := emit_advance inv playing early due
  obtain ⟨_, format, _, _, _, base, emitted, _, filled, starved⟩ := b.emit_schedule
  have frames : b.emit.1.blockFrames = b.blockFrames := by
    rw [blockFrames, format, ← blockFrames]
  have running := inv.session playing
  constructor
  · intro _; rw [format]; exact inv.listed running
  · cases outcome : b.prepare.2 with
    | true => intro _; rw [(filled outcome).1]; exact running
    | false => intro open'; rw [(starved outcome).2] at open'; cases open'
  · exact within
  · intro _; rw [emitted, frames]; exact next
  · intro _; rw [base, emitted, format, ← lastEnd]; exact within
  · intro _; rw [base, emitted, format, lastEnd]

theorem scheduleInvariant_clear {b : StreamBuffer} {count : Nat} (inv : ScheduleInvariant b count)
    (other : Nat) : ScheduleInvariant b.clear other := by
  constructor <;> simp [clear, inv.lastEnd]

theorem scheduleInvariant_reset {b : StreamBuffer} {count : Nat} (inv : ScheduleInvariant b count)
    (other : Nat) : ScheduleInvariant b.reset other := by
  constructor <;> simp [reset, inv.lastEnd]

theorem scheduleInvariant_count {b : StreamBuffer} {count : Nat} (inv : ScheduleInvariant b count)
    (change : Counters → Counters) : ScheduleInvariant (b.count change) count := by
  obtain ⟨listed, session, lastEnd, emitted, within, ahead⟩ := inv
  exact ⟨listed, session, lastEnd, emitted, within, ahead⟩

@[simp] theorem length_takeInput (b : StreamBuffer) (wanted : Nat) :
    (b.takeInput wanted).length = wanted := by
  simp only [takeInput, List.length_append, List.length_take, List.length_replicate]
  omega

@[simp] theorem length_stretch (input : List ℚ) (frames consume channels : Nat) :
    (stretch input frames consume channels).length = frames * channels := by
  simp [stretch, List.length_flatMap]

theorem length_block_samples (b : StreamBuffer) :
    b.block.samples.length = b.block.frames * b.block.format.outputChannels := by
  simp only [block, blockSamples]
  split
  · rename_i same
    simp [same]
  · simp

namespace Emission

/-- A block of about 10 ms leaves when it is due, at most 100 ms late, with all
its samples. -/
structure Sound (e : Emission) : Prop where
  size : e.block.frames = max 1 (e.block.format.rate.toNat / 100)
  due : e.block.timestamp ≤ e.now
  fresh : e.now.toNat ≤ e.block.timestamp.toNat + 100000000
  full : e.block.samples.length = e.block.frames * e.block.format.outputChannels

/-- The timestamp is the session's base plus the exact time of all earlier blocks. -/
def Tiled (base : Nat → Nat) (e : Emission) : Prop :=
  e.block.timestamp.toNat =
    base e.session + nanoseconds (e.index * e.block.frames) e.block.format.rate.toNat

end Emission

namespace Timeline

structure Invariant (t : Timeline) : Prop where
  schedule : ScheduleInvariant t.buffer t.index
  ended : ∀ e ∈ t.emissions, e.block.end ≤ t.buffer.lastEnd.toNat
  ordered : t.emissions.Pairwise fun e later => e.block.end ≤ later.block.timestamp.toNat
  sessions : ∀ e ∈ t.emissions, e.session ≤ t.session
  tiled : ∃ base : Nat → Nat, (∀ e ∈ t.emissions, e.Tiled base) ∧
    (t.buffer.playing = true → base t.session = t.buffer.base.toNat)
  sound : ∀ e ∈ t.emissions, e.Sound
  listed : ∀ e ∈ t.emissions, e.block.format.rate ∈ sampleRates ∧ e.block.end ≤ horizon

/-- A step that emits nothing and keeps the session's base keeps the history. -/
theorem invariant_silent {t : Timeline} (inv : Invariant t) {after : StreamBuffer}
    {count : Nat} (schedule : ScheduleInvariant after count)
    (lastEnd : after.lastEnd = t.buffer.lastEnd)
    (base : after.playing = true → t.buffer.playing = true ∧ after.base = t.buffer.base) :
    Invariant { t with buffer := after, index := count } := by
  obtain ⟨bases, tiled, current⟩ := inv.tiled
  refine ⟨schedule, ?_, inv.ordered, inv.sessions, ⟨bases, tiled, ?_⟩, inv.sound, inv.listed⟩
  · rw [lastEnd]; exact inv.ended
  · intro playing
    rw [(base playing).2]
    exact current (base playing).1

/-- Starting to play opens a numbered session at the buffer's new base. -/
theorem invariant_start {t : Timeline} (inv : Invariant t) {started : StreamBuffer}
    {now : UInt64} (running : t.buffer.initialized = true) (early : now.toNat < 2 ^ 63)
    (ready : t.buffer.start now = some started) :
    Invariant { t with
      buffer := started
      session := if !t.buffer.playing then t.session + 1 else t.session
      index := if !t.buffer.playing then 0 else t.index } := by
  have schedule := scheduleInvariant_start inv.schedule running early ready
  rcases start_cases ready with ⟨playing, rfl⟩ | ⟨silent, rfl⟩
  · simpa [playing] using inv
  · obtain ⟨bases, tiled, _⟩ := inv.tiled
    simp only [silent, Bool.not_false, ↓reduceIte, Bool.false_eq_true] at schedule ⊢
    refine ⟨schedule, inv.ended, inv.ordered, ?_, ?_, inv.sound, inv.listed⟩
    · intro e member
      exact Nat.le_succ_of_le (inv.sessions e member)
    · refine ⟨Function.update bases (t.session + 1) (max now t.buffer.lastEnd).toNat, ?_, by simp⟩
      intro e member
      have old := inv.sessions e member
      have other : e.session ≠ t.session + 1 := by omega
      simpa [Emission.Tiled, Function.update_of_ne other] using tiled e member

/-- Emitting a due block extends the history by one tile. -/
theorem invariant_emit {t : Timeline} (inv : Invariant t) {now : UInt64}
    (playing : t.buffer.playing = true) (early : now.toNat < 2 ^ 63)
    (due : ¬ now < t.buffer.due) (fresh : ¬ now - t.buffer.due > 100000000) :
    Invariant { t with
      buffer := t.buffer.emit.1
      index := t.index + 1
      emissions := t.emissions ++ [⟨t.session, t.index, now, t.buffer.emit.2⟩] } := by
  obtain ⟨_, _, within, reaches⟩ := emit_advance inv.schedule playing early due
  have dueEq := due_toNat inv.schedule playing
  have ahead := inv.schedule.ahead playing
  have emitted := inv.schedule.emitted playing
  have listed := inv.schedule.listed (inv.schedule.session playing)
  obtain ⟨bases, tiled, current⟩ := inv.tiled
  have order := UInt64.not_lt.mp due
  have newEnd : t.buffer.emit.2.end ≤ t.buffer.emit.1.lastEnd.toNat := reaches
  have starts : t.buffer.lastEnd.toNat ≤ t.buffer.emit.2.timestamp.toNat := by
    change _ ≤ t.buffer.due.toNat
    rw [dueEq]; exact ahead
  have later : t.buffer.lastEnd.toNat ≤ t.buffer.emit.1.lastEnd.toNat :=
    starts.trans ((Nat.le_add_right _ _).trans newEnd)
  have sound : Emission.Sound ⟨t.session, t.index, now, t.buffer.emit.2⟩ := by
    refine ⟨rfl, order, ?_, length_block_samples t.buffer⟩
    change now.toNat ≤ t.buffer.due.toNat + 100000000
    have difference := UInt64.toNat_sub_of_le now t.buffer.due order
    have small := UInt64.le_iff_toNat_le.mp (UInt64.not_lt.mp fresh)
    simp only [UInt64.reduceToNat] at small
    omega
  have tile : Emission.Tiled bases ⟨t.session, t.index, now, t.buffer.emit.2⟩ := by
    change t.buffer.due.toNat = bases t.session +
      nanoseconds (t.index * t.buffer.blockFrames) t.buffer.format.rate.toNat
    rw [dueEq, current playing, emitted]
  have schedule := scheduleInvariant_emit inv.schedule playing early due
  refine ⟨schedule, ?_, ?_, ?_, ⟨bases, ?_, ?_⟩, ?_, ?_⟩
  · intro e member
    rcases List.mem_append.mp member with old | new
    · exact (inv.ended e old).trans later
    · rw [List.mem_singleton.mp new]; exact newEnd
  · rw [List.pairwise_append]
    refine ⟨inv.ordered, List.pairwise_singleton _ _, ?_⟩
    intro e old latest new
    rw [List.mem_singleton.mp new]
    exact (inv.ended e old).trans starts
  · intro e member
    rcases List.mem_append.mp member with old | new
    · exact inv.sessions e old
    · rw [List.mem_singleton.mp new]
  · intro e member
    rcases List.mem_append.mp member with old | new
    · exact tiled e old
    · rw [List.mem_singleton.mp new]; exact tile
  · intro _
    rw [current playing, t.buffer.emit_schedule.2.2.2.2.2.1]
  · intro e member
    rcases List.mem_append.mp member with old | new
    · exact inv.sound e old
    · rw [List.mem_singleton.mp new]; exact sound
  · intro e member
    rcases List.mem_append.mp member with old | new
    · exact inv.listed e old
    · rw [List.mem_singleton.mp new]; exact ⟨listed, newEnd.trans within⟩

theorem invariant_pull {t : Timeline} (inv : Invariant t) {now : UInt64}
    (early : now.toNat < 2 ^ 63) : Invariant (t.pull now) := by
  unfold pull
  generalize pulled : t.buffer.pull now = result
  obtain ⟨after, block⟩ := result
  have silent (same : after.playing = false ∨ after = t.buffer) :
      opened t.buffer after none = false := by
    rcases same with quiet | same
    · simp [opened, quiet]
    · simp [opened, same]
  cases pull_cases pulled with
  | idle => simpa [silent (.inr rfl)] using inv
  | inactive =>
    simpa [silent (.inl rfl)] using
      invariant_silent inv (scheduleInvariant_clear inv.schedule t.index) rfl (by simp [clear])
  | waiting => simpa [silent (.inr rfl)] using inv
  | early active ready _ =>
    have playing := (start_fields ready).2.2.2.2.2.1
    simpa [opened, playing] using invariant_start inv active.running early ready
  | suspended active ready _ _ =>
    have lastEnd := (start_fields ready).2.2.2.1
    have schedule := scheduleInvariant_start inv.schedule active.running early ready
    simpa [silent (.inl rfl)] using invariant_silent inv
      (scheduleInvariant_clear (scheduleInvariant_count schedule _) t.index) lastEnd
      (by simp [clear])
  | emitted active ready due fresh =>
    have playing := (start_fields ready).2.2.2.2.2.1
    have begun := invariant_start inv active.running early ready
    simpa [opened] using invariant_emit begun playing early due fresh

theorem invariant_step {t : Timeline} {operation : Operation} (inv : Invariant t)
    (admissible : operation.Admissible) : Invariant (t.step operation) := by
  cases operation with
  | push packet now =>
    obtain ⟨lastEnd, base, _, _, _, joined⟩ := t.buffer.push_schedule packet now
    apply invariant_silent inv (scheduleInvariant_push inv.schedule admissible.1 now) lastEnd
    intro playing
    rcases joined with ⟨_, silent⟩ | ⟨_, _, same⟩
    · rw [silent] at playing; cases playing
    · exact ⟨same ▸ playing, base⟩
  | pull now => exact invariant_pull inv admissible
  | reset =>
    exact invariant_silent inv (scheduleInvariant_reset inv.schedule t.index) rfl (by simp [reset])

theorem invariant_ofRun {targetMs : UInt32} {operations : List Operation}
    (admissible : ∀ operation ∈ operations, operation.Admissible) :
    Invariant (ofRun targetMs operations) := by
  apply List.foldlRecOn operations step
  · constructor <;> simp [horizon]
    constructor <;> simp
  · intro t inv operation member
    exact invariant_step inv (admissible operation member)

end Timeline

/-- A duration as the code computes it. -/
def duration (frames : Nat) (rate : UInt32) : Nat :=
  (framesToNs (UInt64.ofNat frames) rate).toNat

theorem duration_eq {frames : Nat} {rate : UInt32} (listed : rate ∈ sampleRates)
    (within : nanoseconds frames rate.toNat ≤ horizon) :
    duration frames rate = nanoseconds frames rate.toNat := by
  have bounds := sampleRates_bound listed
  have small := frames_lt_of_horizon bounds.2 (by omega) within
  have same : (UInt64.ofNat frames).toNat = frames := by
    rw [UInt64.toNat_ofNat', Nat.mod_eq_of_lt (by omega)]
  rw [duration, framesToNs_toNat (by omega) (by rw [same]; simp only [horizon] at within; omega), same]

/-- Output timestamps never go back or overlap, a playing session's blocks sit
at exact multiples of the block size after one base, and every block leaves
whole and at most 100 ms late, in every run. -/
theorem timestamps_never_overlap {targetMs : UInt32} {operations : List Operation}
    (admissible : ∀ operation ∈ operations, operation.Admissible) :
    let emissions := (Timeline.ofRun targetMs operations).emissions
    emissions.Pairwise (fun e later =>
      e.block.timestamp.toNat + duration e.block.frames e.block.format.rate ≤
        later.block.timestamp.toNat) ∧
    (∃ base : Nat → Nat, ∀ e ∈ emissions, e.block.timestamp.toNat =
      base e.session + duration (e.index * e.block.frames) e.block.format.rate) ∧
    ∀ e ∈ emissions, e.Sound := by
  have inv : Timeline.Invariant (Timeline.ofRun targetMs operations) :=
    Timeline.invariant_ofRun admissible
  obtain ⟨base, tiled, _⟩ := inv.tiled
  refine ⟨inv.ordered.imp_of_mem ?_, ⟨base, ?_⟩, inv.sound⟩
  · intro e later member _ order
    obtain ⟨listed, within⟩ := inv.listed e member
    rwa [duration_eq listed ((Nat.le_add_left _ _).trans within)]
  · intro e member
    obtain ⟨listed, within⟩ := inv.listed e member
    have tile := tiled e member
    rw [duration_eq listed]
    · exact tile
    · unfold Emission.Tiled at tile
      have early := (Nat.le_add_right _ _).trans within
      omega

/-- 30 ms of mono audio at 6 kHz, pulled on time. -/
def shortRun : List Operation :=
  [.push { format := ⟨6000, 1, 1⟩, frames := 180, samples := List.replicate 180 0 } 1000,
   .pull 30001000, .pull 40001000, .pull 50001000]

theorem timestamps_never_overlap_shortRun :
    (Timeline.ofRun 30 shortRun).emissions.length = 3 ∧
      ∀ e ∈ (Timeline.ofRun 30 shortRun).emissions, e.Sound := by
  refine ⟨by decide +kernel, (timestamps_never_overlap ?_).2.2⟩
  intro operation member
  simp only [shortRun, List.mem_cons, List.not_mem_nil, or_false] at member
  rcases member with rfl | rfl | rfl | rfl
  · exact ⟨by decide, by decide⟩
  all_goals simp [Operation.Admissible]

end VbanStream
