import VbanStream.Buffer.Pacing
import VbanStream.Library.Run

/-! Clock drift over whole runs: a sender whose clock is a little off, and pulls that are
a little late. The one-frame corrections hold the queue in its band for good. -/

namespace VbanStream

open Library StreamBuffer

/-- When the next block is due: at its timestamp, and the first one after the start-up
wait. -/
def StreamBuffer.dueAt (b : StreamBuffer) : Option Nat :=
  if b.playing then some b.due.toNat
  else if b.initialized then some (b.first + b.targetMs.toUInt64 * 1000000).toNat
  else none

/-- The packet with the next number arrives, or the host asks for a block. -/
inductive Beat where
  | push
  | pull (now : Nat)

/-- The buffer, the number of packets that have arrived, and the time of the last event. -/
structure Scene where
  buffer : StreamBuffer := { targetMs := 30 }
  sent : Nat := 0
  clock : Nat := 0

namespace Scene

/-- Time goes on, no packet is overtaken, and no due block waits too long. -/
def meets (scene : Scene) (pacing : Pacing) (now : Nat) : Bool :=
  scene.clock ≤ now && now ≤ pacing.arrival scene.sent && now < 2 ^ 63 &&
    scene.buffer.dueAt.all fun due => now ≤ due + pacing.late

def step (stream : Stream) (pacing : Pacing) (scene : Scene) : Beat → Option Scene
  | .push =>
    let now := pacing.arrival scene.sent
    if scene.meets pacing now then
      some {
        buffer := scene.buffer.push (stream.packet scene.sent) (clockAt 0 now)
        sent := scene.sent + 1
        clock := now }
    else none
  | .pull now =>
    if scene.meets pacing now then
      some { scene with buffer := (scene.buffer.pull (clockAt 0 now)).1, clock := now }
    else none

end Scene

/-- A session that plays since `base` after the first packet. It has emitted `count`
blocks and taken `served` frames for them. -/
structure Riding (stream : Stream) (frames : Nat) (pacing : Pacing)
    (sent base count served : Nat) (b : StreamBuffer) : Prop where
  lined : ∃ played, Lined stream frames played sent b
  bounded : Bounded b
  playing : b.playing = true
  target : b.targetMs = 30
  present : 0 < sent
  progress : b.lastProgress = clockAt 0 (pacing.arrival (sent - 1))
  schedule : ScheduleInvariant b count
  base : b.base.toNat = pacing.lead + base
  depth : b.bufferedFrames + served = sent * frames
  clean : b.counters.faults = [0, 0, 0, 0, 0]

/-- The life of a steady session: nothing yet, the start-up wait, and playing in the band. -/
inductive Phase (stream : Stream) (frames : Nat) (pacing : Pacing) : Nat → StreamBuffer → Prop
  | fresh : Phase stream frames pacing 0 { targetMs := 30 }
  | waiting (waiting : Waiting stream frames 0 pacing.arrival 0 sent b)
      (clean : b.counters.faults = [0, 0, 0, 0, 0]) : Phase stream frames pacing sent b
  | riding {base count served : Nat}
      (riding : Riding stream frames pacing sent base count served b)
      (held : pacing.Held stream.rate frames base count served) :
      Phase stream frames pacing sent b

/-- A pull emits the block that is due, and finds the queue in its band. -/
structure Served (stream : Stream) (frames : Nat) (pacing : Pacing) (sent : Nat)
    (b : StreamBuffer) (now : Nat) : Prop where
  phase : Phase stream frames pacing sent (b.pull (clockAt 0 now)).1
  due : (b.pull (clockAt 0 now)).2.isSome = true ↔ ∃ due, b.dueAt = some due ∧ due ≤ now
  band : (b.pull (clockAt 0 now)).2.isSome = true → blockOf stream.rate ≤ b.bufferedFrames ∧
    b.bufferedFrames ≤ 6 * blockOf stream.rate + 3

section Riding

variable {stream : Stream} {frames sent base count served : Nat} {pacing : Pacing}
  {b : StreamBuffer}

theorem Lined.rate {played : Nat} (lined : Lined stream frames played sent b) :
    b.format.rate.toNat = stream.rate := by
  rw [lined.format]
  rfl

theorem blockFrames_eq (divided : Divided stream.rate) (rate : b.format.rate.toNat = stream.rate) :
    b.blockFrames = blockOf stream.rate := by
  have large := divided.large
  rw [blockFrames, rate]
  exact Nat.max_eq_right (by unfold blockOf at *; omega)

/-- The queue-depth correction is a regulator. -/
theorem consume_regulates (b : StreamBuffer) :
    b.consume = regulate b.blockFrames
      (max b.blockFrames (b.format.rate.toNat * b.targetMs.toNat / 1000 / 3))
      (b.format.rate.toNat * b.targetMs.toNat / 1000) b.bufferedFrames := rfl

theorem consume_eq (divided : Divided stream.rate) (rate : b.format.rate.toNat = stream.rate)
    (target : b.targetMs = 30) :
    b.consume = regulate (blockOf stream.rate) (blockOf stream.rate) (targetOf stream.rate)
      b.bufferedFrames := by
  have goal : b.format.rate.toNat * b.targetMs.toNat / 1000 = targetOf stream.rate := by
    rw [rate, target]
    rfl
  rw [consume_regulates, goal, blockFrames_eq divided rate, divided.margin]

theorem instant {now : Nat} (early : now < 2 ^ 63) : (clockAt 0 now).toNat = now := by
  have zero : (0 : UInt64).toNat = 0 := rfl
  rw [clockAt_toNat (by omega), zero, Nat.zero_add]

theorem due_reached {now : Nat} (early : now < 2 ^ 63) (due : b.due.toNat ≤ now)
    (prompt : now ≤ b.due.toNat + 100000000) :
    ¬ clockAt 0 now < b.due ∧ ¬ clockAt 0 now - b.due > 100000000 := by
  have reached : ¬ clockAt 0 now < b.due := by
    rw [UInt64.lt_iff_toNat_lt, instant early]
    omega
  refine ⟨reached, ?_⟩
  rw [gt_iff_lt, UInt64.lt_iff_toNat_lt, UInt64.toNat_sub_of_le _ _ (UInt64.not_lt.mp reached),
    instant early]
  simp only [UInt64.reduceToNat]
  omega

theorem arrival_next (pacing : Pacing) (present : 0 < sent) :
    pacing.arrival sent = pacing.arrival (sent - 1) + pacing.period := by
  obtain ⟨before, rfl⟩ : ∃ before, sent = before + 1 := ⟨sent - 1, by omega⟩
  rw [Pacing.arrival, Pacing.arrival, Nat.add_sub_cancel, Nat.succ_mul]
  omega

namespace Riding

theorem rate (riding : Riding stream frames pacing sent base count served b) :
    b.format.rate.toNat = stream.rate := by
  obtain ⟨played, lined⟩ := riding.lined
  exact lined.rate

theorem due (riding : Riding stream frames pacing sent base count served b)
    (divided : Divided stream.rate) :
    b.due.toNat =
      pacing.lead + (base + nanoseconds (count * blockOf stream.rate) stream.rate) := by
  rw [due_toNat riding.schedule riding.playing, riding.base, riding.schedule.emitted riding.playing,
    blockFrames_eq divided riding.rate, riding.rate, Nat.add_assoc]

theorem active (riding : Riding stream frames pacing sent base count served b)
    (steady : stream.Steady frames) {now : Nat} (short : pacing.period < 10000000)
    (order : pacing.arrival (sent - 1) ≤ now) (arrived : now ≤ pacing.arrival sent)
    (early : now < 2 ^ 63) : b.Active (clockAt 0 now) := by
  have bounds := rate_bounds steady
  have next := arrival_next pacing riding.present
  refine ⟨riding.schedule.session riding.playing, ?_, ?_⟩
  · intro zero
    have rate := riding.rate
    rw [zero] at rate
    change 0 = stream.rate at rate
    omega
  · rw [riding.progress]
    exact clockAt_recent 0 order (by omega) (by omega)

/-- The next packet joins the session and adds its frames to the queue. -/
theorem joined (riding : Riding stream frames pacing sent base count served b)
    (steady : stream.Steady frames) (divided : Divided stream.rate)
    (many : blockOf stream.rate ≤ frames * 100) (short : pacing.period < 10000000)
    (few : b.bufferedFrames ≤ 5 * blockOf stream.rate + 5)
    (early : pacing.arrival sent < 2 ^ 63) :
    Riding stream frames pacing (sent + 1) base count served
      (b.push (stream.packet sent) (clockAt 0 (pacing.arrival sent))) := by
  obtain ⟨played, lined⟩ := riding.lined
  have next := arrival_next pacing riding.present
  have large := divided.large
  have low := divided.block.1
  have waiting := lined.waiting
  have total := bufferedFrames_eq b
  have room : sent < played + 512 := by
    by_contra full
    have held : 512 * frames ≤ (sent - played) * frames := Nat.mul_le_mul_right _ (by omega)
    omega
  have recent : ¬ clockAt 0 (pacing.arrival sent) - b.lastProgress > 250000000 := by
    rw [riding.progress]
    exact clockAt_recent 0 (by omega) (by omega) (by omega)
  have spare : b.bufferedFrames ≤ b.format.rate.toNat / 4 := by
    rw [lined.rate]
    omega
  obtain ⟨accepted, stays⟩ := lined.joins riding.bounded room spare recent
  have after :=
    bounded_push riding.bounded (steady.wellFormed sent) (clockAt 0 (pacing.arrival sent))
  have listed : (stream.packet sent).format.rate ∈ sampleRates := by
    rw [stream.layout]
    exact steady.listed
  have schedule :=
    scheduleInvariant_push riding.schedule listed (clockAt 0 (pacing.arrival sent))
  have clean := (push_faults accepted stays).trans riding.clean
  obtain ⟨⟨counters, newest, pushed⟩, _, fresh, _⟩ := push_joined stays accepted
  rw [pushed] at after schedule clean ⊢
  refine ⟨⟨played, lined.pushed steady room⟩, after, riding.playing, riding.target,
    Nat.succ_pos sent, rfl, schedule, riding.base, ?_, clean⟩
  have grown := (pendingFrames_emplace fresh).1
  have depth := riding.depth
  rw [steady.frames] at grown
  rw [bufferedFrames_eq] at depth ⊢
  change queuedFrames b + pendingFrames b + served = _ at depth
  change queuedFrames b + ((b.pending.emplace (stream.packet sent)).values.map _).sum + served = _
  rw [Nat.succ_mul]
  change _ = pendingFrames b + frames at grown
  omega

/-- A block of a deep enough queue takes what the regulator says. -/
theorem emits (riding : Riding stream frames pacing sent base count served b)
    (steady : stream.Steady frames) (divided : Divided stream.rate) {now : UInt64}
    (fed : blockOf stream.rate ≤ b.bufferedFrames) (early : now.toNat < 2 ^ 63)
    (due : ¬ now < b.due) :
    Riding stream frames pacing sent base (count + 1)
      (served + regulate (blockOf stream.rate) (blockOf stream.rate) (targetOf stream.rate)
        b.bufferedFrames) b.emit.1 := by
  obtain ⟨played, lined⟩ := riding.lined
  have running := riding.schedule.session riding.playing
  obtain ⟨ordered, queued⟩ := riding.bounded.running running
  rw [← blockFrames_eq divided riding.rate] at fed
  obtain ⟨prepared, after, taken, clean⟩ := lined.emit ordered steady fed
  obtain ⟨target, _, _, _, progress, base', _, _, filled, _⟩ := b.emit_schedule
  refine ⟨after, bounded_emit running ordered queued, (filled prepared).2.trans riding.playing,
    target.trans riding.target, riding.present, progress.trans riding.progress,
    scheduleInvariant_emit riding.schedule riding.playing early due, ?_, ?_,
    clean.trans riding.clean⟩
  · rw [base', riding.base]
  · rw [consume_eq divided riding.rate riding.target] at taken
    have depth := riding.depth
    omega

theorem quiet (riding : Riding stream frames pacing sent base count served b) {now : UInt64}
    (active : b.Active now) (early : now < b.due) : b.pull now = (b, none) := by
  have ready : b.start now = some b := if_pos riding.playing
  unfold pull
  rw [if_neg (by simp [active.running, active.rate]), if_neg active.recent, ready]
  exact if_pos early

/-- A prompt pull emits the block that is due. -/
theorem pulls (riding : Riding stream frames pacing sent base count served b) {now : Nat}
    (active : b.Active (clockAt 0 now)) (early : now < 2 ^ 63) (due : b.due.toNat ≤ now)
    (prompt : now ≤ b.due.toNat + 100000000) :
    b.pull (clockAt 0 now) = (b.emit.1, some b.emit.2) := by
  obtain ⟨reached, fresh⟩ := due_reached early due prompt
  exact pull_emitted active (if_pos riding.playing) reached fresh

/-- The queue at a prompt pull for a due block. -/
theorem band (riding : Riding stream frames pacing sent base count served b)
    (steady : stream.Steady frames) (within : pacing.Within stream.rate frames (slack stream.rate))
    (held : pacing.Held stream.rate frames base count served) {now : Nat}
    (order : pacing.arrival (sent - 1) ≤ now) (arrived : now ≤ pacing.arrival sent)
    (due : b.due.toNat ≤ now) (prompt : now ≤ b.due.toNat + pacing.late) :
    blockOf stream.rate ≤ b.bufferedFrames ∧
      b.bufferedFrames ≤ 5 * blockOf stream.rate + 5 ∧
      pacing.Held stream.rate frames base (count + 1)
        (served + regulate (blockOf stream.rate) (blockOf stream.rate) (targetOf stream.rate)
          b.bufferedFrames) := by
  have divided : Divided stream.rate := divided steady.listed
  have next := arrival_next pacing riding.present
  have regulated := within.regulated divided (rate_bounds steady).2
  have target := divided.target
  rw [riding.due divided] at due prompt
  have seen : Sighted (pacing.period * stream.rate) (frames * rounding stream.rate * stream.rate)
      (frames * (pacing.late + pacing.period) * stream.rate)
      (Pacing.level stream.rate frames base count) served b.bufferedFrames := by
    simp only [Pacing.arrival] at *
    exact sighted divided riding.depth (by omega) (by omega)
  have bounded := held.bounded regulated seen.high
  refine ⟨held.fed seen, by omega, ?_⟩
  rw [Pacing.Held, Pacing.level_succ]
  exact held.round regulated seen

/-- The queue when a packet arrives while no pull is overdue. -/
theorem roomy (riding : Riding stream frames pacing sent base count served b)
    (steady : stream.Steady frames) (within : pacing.Within stream.rate frames (slack stream.rate))
    (held : pacing.Held stream.rate frames base count served)
    (prompt : pacing.arrival sent ≤ b.due.toNat + pacing.late) :
    b.bufferedFrames ≤ 5 * blockOf stream.rate + 5 := by
  have divided : Divided stream.rate := divided steady.listed
  have regulated := within.regulated divided (rate_bounds steady).2
  have target := divided.target
  rw [riding.due divided] at prompt
  rw [Pacing.arrival] at prompt
  have bounded := held.bounded regulated (sighted_high divided riding.depth (by omega))
  omega

end Riding

theorem Waiting.schedule {origin : UInt64} {arrival : Nat → Nat} {opening : Nat}
    (waiting : Waiting stream frames origin arrival opening sent b)
    (steady : stream.Steady frames) : ScheduleInvariant b 0 := by
  have silent := waiting.silent
  refine ⟨fun _ => ?_, ?_, ?_, ?_, ?_, ?_⟩
  · rw [waiting.lined.format]
    exact steady.listed
  · rw [silent]
    intro playing
    cases playing
  · rw [waiting.ended]
    exact Nat.zero_le _
  all_goals
    rw [silent]
    intro playing
    cases playing

/-- The first pull after the start-up wait starts the schedule at its own time. -/
theorem Waiting.rides (waiting : Waiting stream frames 0 pacing.arrival 0 sent b)
    (steady : stream.Steady frames)
    (clean : b.counters.faults = [0, 0, 0, 0, 0]) {now : Nat} (early : now < 2 ^ 63)
    (ready : pacing.lead + 30000000 ≤ now) :
    ∃ started : StreamBuffer,
      b.start (clockAt 0 now) = some started ∧
      started.due = clockAt 0 now ∧ started.bufferedFrames = b.bufferedFrames ∧
      Riding stream frames pacing sent (now - pacing.lead) 0 0 started := by
  have zero : (0 : UInt64).toNat = 0 := rfl
  have instant := instant early
  have first : pacing.arrival 0 = pacing.lead := by simp [Pacing.arrival]
  have passed : ¬ clockAt 0 now < b.first + 30000000 := by
    rw [waiting.opened, clockAt_ready (by rw [zero]; omega) (by omega), first]
    omega
  obtain ⟨started, due⟩ := waiting.started passed
  have schedule := scheduleInvariant_start (waiting.schedule steady) waiting.lined.running
    (by rw [instant]; exact early) started
  rw [waiting.silent] at schedule
  have depth := waiting.buffered
  refine ⟨_, started, due, rfl, ⟨⟨0, waiting.lined.transfer rfl rfl rfl rfl rfl⟩, ?_, rfl,
    waiting.target, waiting.present, waiting.progress, schedule, ?_, ?_, clean⟩⟩
  · obtain ⟨running, ordered, queued⟩ := bounded_start waiting.bounded waiting.lined.running started
    exact bounded_of_ordered running ordered queued
  · change (clockAt 0 now).toNat = _
    rw [instant]
    omega
  · change b.bufferedFrames + 0 = _
    rw [depth, Nat.sub_zero, Nat.add_zero]

theorem Waiting.dueAt (waiting : Waiting stream frames 0 pacing.arrival 0 sent b)
    (early : pacing.lead < 2 ^ 63) : b.dueAt = some (pacing.lead + 30000000) := by
  have zero : (0 : UInt64).toNat = 0 := rfl
  have first : pacing.arrival 0 = pacing.lead := by simp [Pacing.arrival]
  have opened : b.first.toNat = pacing.lead := by
    rw [waiting.opened, first, clockAt_toNat (by omega), zero, Nat.zero_add]
  have wait : (30 : UInt32).toUInt64 * 1000000 = 30000000 := rfl
  have after : (b.first + 30000000).toNat = pacing.lead + 30000000 := by
    rw [UInt64.toNat_add, opened]
    exact Nat.mod_eq_of_lt (by simp only [UInt64.reduceToNat]; omega)
  rw [StreamBuffer.dueAt, if_neg (by rw [waiting.silent]; exact Bool.false_ne_true),
    if_pos waiting.lined.running, waiting.target, wait, after]

theorem Riding.dueAt (riding : Riding stream frames pacing sent base count served b) :
    b.dueAt = some b.due.toNat := if_pos riding.playing

theorem served_fresh (now : Nat) : Served stream frames pacing 0 { targetMs := 30 } now := by
  refine ⟨?_, ?_, ?_⟩
  · rw [pull_fresh]
    exact .fresh
  · rw [pull_fresh]
    refine ⟨nofun, ?_⟩
    rintro ⟨due, absent, _⟩
    cases absent
  · rw [pull_fresh]
    exact nofun

theorem served_early {now due : Nat} (phase : Phase stream frames pacing sent b)
    (awaited : b.dueAt = some due) (sooner : now < due)
    (silent : b.pull (clockAt 0 now) = (b, none)) : Served stream frames pacing sent b now := by
  refine ⟨?_, ?_, ?_⟩
  · rw [silent]
    exact phase
  · rw [silent]
    refine ⟨nofun, ?_⟩
    rintro ⟨other, same, passed⟩
    rw [awaited] at same
    cases same
    omega
  · rw [silent]
    exact nofun

theorem Waiting.serves (waiting : Waiting stream frames 0 pacing.arrival 0 sent b)
    (steady : stream.Steady frames)
    (within : pacing.Within stream.rate frames (slack stream.rate))
    (clean : b.counters.faults = [0, 0, 0, 0, 0]) {now : Nat} (early : now < 2 ^ 63)
    (order : pacing.arrival (sent - 1) ≤ now) (arrived : now ≤ pacing.arrival sent)
    (prompt : ∀ due, b.dueAt = some due → now ≤ due + pacing.late) :
    Served stream frames pacing sent b now := by
  have divided : Divided stream.rate := divided steady.listed
  have soon := within.soon divided
  have large := divided.large
  have zero : (0 : UInt64).toNat = 0 := rfl
  have next := arrival_next pacing waiting.present
  have first : pacing.arrival 0 = pacing.lead := by simp [Pacing.arrival]
  have lead : pacing.lead ≤ pacing.arrival (sent - 1) := Nat.le_add_right _ _
  have due := waiting.dueAt (by omega)
  have prompt := prompt _ due
  have active := waiting.active steady order (by omega) (by omega)
  rcases Nat.lt_or_ge now (pacing.lead + 30000000) with sooner | ready
  · apply served_early (.waiting waiting clean) due sooner
    apply waiting.early active
    rw [waiting.opened, clockAt_ready (by omega) (by omega), first]
    exact sooner
  · obtain ⟨started, starts, started_due, depth, riding⟩ :=
      waiting.rides steady clean early ready
    have held := level_start within divided (rate_bounds steady).2
      (show 30000000 ≤ now - pacing.lead by omega) (by omega)
    have band := riding.band steady within held order arrived
      (by rw [started_due, instant early]) (by rw [started_due, instant early]; omega)
    have reached : ¬ clockAt 0 now < started.due := by
      rw [started_due]
      exact UInt64.lt_irrefl _
    have emits := riding.emits steady divided band.1 ((instant early).symm ▸ early) reached
    have pulled := pull_emitted active starts reached (by rw [started_due]; simp)
    rw [depth] at band emits
    refine ⟨?_, ?_, fun _ => ?_⟩
    · rw [pulled]
      exact .riding emits band.2.2
    · rw [pulled]
      exact ⟨fun _ => ⟨_, due, ready⟩, fun _ => rfl⟩
    · omega

theorem Riding.serves (riding : Riding stream frames pacing sent base count served b)
    (steady : stream.Steady frames)
    (within : pacing.Within stream.rate frames (slack stream.rate))
    (held : pacing.Held stream.rate frames base count served) {now : Nat} (early : now < 2 ^ 63)
    (order : pacing.arrival (sent - 1) ≤ now) (arrived : now ≤ pacing.arrival sent)
    (prompt : now ≤ b.due.toNat + pacing.late) : Served stream frames pacing sent b now := by
  have divided : Divided stream.rate := divided steady.listed
  have soon := within.soon divided
  have large := divided.large
  have active := riding.active steady soon.1 order arrived early
  rcases Nat.lt_or_ge now b.due.toNat with sooner | due
  · apply served_early (.riding riding held) riding.dueAt sooner
    apply riding.quiet active
    rwa [UInt64.lt_iff_toNat_lt, instant early]
  · have band := riding.band steady within held order arrived due prompt
    have reached := (due_reached early due (by omega)).1
    have emits := riding.emits steady divided band.1 ((instant early).symm ▸ early) reached
    have pulled := riding.pulls active early due (by omega)
    refine ⟨?_, ?_, fun _ => ?_⟩
    · rw [pulled]
      exact .riding emits band.2.2
    · rw [pulled]
      exact ⟨fun _ => ⟨_, riding.dueAt, due⟩, fun _ => rfl⟩
    · omega

/-- A packet of the start-up wait. -/
theorem Waiting.receives (waiting : Waiting stream frames 0 pacing.arrival 0 sent b)
    (steady : stream.Steady frames) (few : sent < 512)
    (spare : sent * frames ≤ stream.rate / 4) (short : pacing.period < 10000000)
    (early : pacing.arrival sent < 2 ^ 63) (clean : b.counters.faults = [0, 0, 0, 0, 0]) :
    Waiting stream frames 0 pacing.arrival 0 (sent + 1)
        (b.push (stream.packet sent) (clockAt 0 (pacing.arrival sent))) ∧
      (b.push (stream.packet sent) (clockAt 0 (pacing.arrival sent))).counters.faults =
        [0, 0, 0, 0, 0] := by
  have next := arrival_next pacing waiting.present
  have recent : ¬ clockAt 0 (pacing.arrival sent) - b.lastProgress > 250000000 := by
    rw [waiting.progress]
    exact clockAt_recent 0 (by omega) (by omega) (by omega)
  obtain ⟨joined, counted⟩ := waiting.joined steady (by omega)
    (by rw [waiting.lined.rate, Nat.sub_zero]; exact spare) recent
  exact ⟨joined, counted.trans clean⟩

namespace Phase

theorem clean (phase : Phase stream frames pacing sent b) :
    b.counters.faults = [0, 0, 0, 0, 0] := by
  cases phase with
  | fresh => rfl
  | waiting _ clean => exact clean
  | riding riding _ => exact riding.clean

/-- A packet that arrives while no pull is overdue. -/
theorem pushed (phase : Phase stream frames pacing sent b) (steady : stream.Steady frames)
    (within : pacing.Within stream.rate frames (slack stream.rate))
    (early : pacing.arrival sent < 2 ^ 63)
    (prompt : ∀ due, b.dueAt = some due → pacing.arrival sent ≤ due + pacing.late) :
    Phase stream frames pacing (sent + 1)
      (b.push (stream.packet sent) (clockAt 0 (pacing.arrival sent))) := by
  have divided : Divided stream.rate := divided steady.listed
  have rated := (rate_bounds steady).2
  have soon := within.soon divided
  have target := divided.target
  have low := divided.block.1
  have large := divided.large
  have many := within.many
  cases phase with
  | fresh =>
    obtain ⟨opened, counted⟩ := waiting_first steady 0 pacing.arrival
    exact .waiting opened counted
  | waiting waiting clean =>
    have lead : pacing.lead ≤ pacing.arrival sent := Nat.le_add_right _ _
    have due := prompt _ (waiting.dueAt (by omega))
    have next := arrival_next pacing waiting.present
    have produced := produced within divided
      (show sent * pacing.period ≤ 30000000 + pacing.late by rw [Pacing.arrival] at due; omega)
    have few : sent * frames < targetOf stream.rate + blockOf stream.rate + 4 := by
      have reached : sent * frames * (pacing.period * stream.rate) <
          (targetOf stream.rate + blockOf stream.rate + 4) * (pacing.period * stream.rate) := by
        calc sent * frames * (pacing.period * stream.rate) =
              frames * (sent * pacing.period * stream.rate) := by ring
          _ < _ := produced
      exact Nat.lt_of_mul_lt_mul_right reached
    have room : sent < 512 := by
      by_contra full
      have held : 512 * frames ≤ sent * frames := Nat.mul_le_mul_right _ (by omega)
      omega
    obtain ⟨joined, counted⟩ :=
      waiting.receives steady room (by omega) soon.1 early clean
    exact .waiting joined counted
  | riding riding held =>
    have few := riding.roomy steady within held (prompt _ riding.dueAt)
    exact .riding (riding.joined steady divided many soon.1 few early) held

theorem pulled (phase : Phase stream frames pacing sent b) (steady : stream.Steady frames)
    (within : pacing.Within stream.rate frames (slack stream.rate)) {now : Nat}
    (early : now < 2 ^ 63) (order : 0 < sent → pacing.arrival (sent - 1) ≤ now)
    (arrived : now ≤ pacing.arrival sent)
    (prompt : ∀ due, b.dueAt = some due → now ≤ due + pacing.late) :
    Served stream frames pacing sent b now := by
  cases phase with
  | fresh => exact served_fresh now
  | waiting waiting clean =>
    exact waiting.serves steady within clean early (order waiting.present) arrived prompt
  | riding riding held =>
    exact riding.serves steady within held early (order riding.present) arrived
      (prompt _ riding.dueAt)

end Phase

end Riding

end VbanStream
