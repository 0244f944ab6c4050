import VbanStream.Buffer.Drift

/-! Drift is absorbed in every run, and the nanosecond by which it is not: a bookkeeping
of blocks that runs can follow leads to an underrun where timestamps round down. -/

namespace VbanStream

open Library StreamBuffer

namespace Scene

variable {stream : Stream} {frames : Nat} {pacing : Pacing} {scene next : Scene}

theorem meets_iff {now : Nat} : scene.meets pacing now = true ↔
    scene.clock ≤ now ∧ now ≤ pacing.arrival scene.sent ∧ now < 2 ^ 63 ∧
      ∀ due, scene.buffer.dueAt = some due → now ≤ due + pacing.late := by
  simp [meets, Option.all_eq_true, and_assoc]

theorem meets_pull {now : Nat} (meets : scene.meets pacing now = true) :
    scene.step stream pacing (.pull now) = some
      { scene with buffer := (scene.buffer.pull (clockAt 0 now)).1, clock := now } := if_pos meets

theorem meets_push (meets : scene.meets pacing (pacing.arrival scene.sent) = true) :
    scene.step stream pacing .push = some {
      buffer := scene.buffer.push (stream.packet scene.sent)
        (clockAt 0 (pacing.arrival scene.sent))
      sent := scene.sent + 1
      clock := pacing.arrival scene.sent } := if_pos meets

theorem step_pull {now : Nat} (taken : scene.step stream pacing (.pull now) = some next) :
    scene.meets pacing now = true ∧ next =
      { scene with buffer := (scene.buffer.pull (clockAt 0 now)).1, clock := now } := by
  simp only [step] at taken
  split at taken
  · rename_i meets
    exact ⟨meets, (Option.some.inj taken).symm⟩
  · cases taken

theorem step_push (taken : scene.step stream pacing .push = some next) :
    scene.meets pacing (pacing.arrival scene.sent) = true ∧ next = {
      buffer := scene.buffer.push (stream.packet scene.sent)
        (clockAt 0 (pacing.arrival scene.sent))
      sent := scene.sent + 1
      clock := pacing.arrival scene.sent } := by
  simp only [step] at taken
  split at taken
  · rename_i meets
    exact ⟨meets, (Option.some.inj taken).symm⟩
  · cases taken

/-- The session lives its life, and time has reached its last packet. -/
structure Invariant (stream : Stream) (frames : Nat) (pacing : Pacing) (scene : Scene) : Prop where
  phase : Phase stream frames pacing scene.sent scene.buffer
  order : 0 < scene.sent → pacing.arrival (scene.sent - 1) ≤ scene.clock

theorem invariant_pull (inv : Invariant stream frames pacing scene)
    (steady : stream.Steady frames)
    (within : pacing.Within stream.rate frames (slack stream.rate)) {now : Nat}
    (meets : scene.meets pacing now = true) :
    Served stream frames pacing scene.sent scene.buffer now := by
  obtain ⟨later, arrived, early, prompt⟩ := meets_iff.mp meets
  exact inv.phase.pulled steady within early (fun some => (inv.order some).trans later) arrived
    prompt

theorem invariant_step {beat : Beat} (inv : Invariant stream frames pacing scene)
    (steady : stream.Steady frames) (within : pacing.Within stream.rate frames (slack stream.rate))
    (taken : scene.step stream pacing beat = some next) :
    Invariant stream frames pacing next := by
  cases beat with
  | push =>
    obtain ⟨meets, rfl⟩ := step_push taken
    obtain ⟨later, arrived, early, prompt⟩ := meets_iff.mp meets
    exact ⟨inv.phase.pushed steady within early prompt, fun _ => le_rfl⟩
  | pull now =>
    obtain ⟨meets, rfl⟩ := step_pull taken
    have pulled := invariant_pull inv steady within meets
    obtain ⟨later, _⟩ := meets_iff.mp meets
    exact ⟨pulled.phase, fun some => (inv.order some).trans later⟩

theorem invariant_run {beats : List Beat} (steady : stream.Steady frames)
    (within : pacing.Within stream.rate frames (slack stream.rate))
    (success : run (step stream pacing) {} beats = some scene) :
    Invariant stream frames pacing scene :=
  run_invariant (fun _ _ _ inv taken => invariant_step inv steady within taken)
    ⟨.fresh, fun some => absurd some (Nat.lt_irrefl 0)⟩ success

end Scene

/-- The books of a playing session: blocks emitted, packets arrived, frames taken, and the
time of the last pull. -/
structure Books where
  count : Nat
  sent : Nat
  served : Nat
  clock : Nat
deriving DecidableEq

/-- A turn in which packets arrive up to number `turn.1`, and the pull for the next block
comes at `turn.2`. -/
def Books.turn (pacing : Pacing) (rate frames base : Nat) (books : Books) (turn : Nat × Nat) :
    Option Books :=
  let due := pacing.lead + (base + nanoseconds (books.count * blockOf rate) rate)
  let depth := turn.1 * frames - books.served
  if books.sent ≤ turn.1 ∧ books.clock ≤ turn.2 ∧ pacing.arrival (turn.1 - 1) ≤ turn.2 ∧
      turn.2 ≤ pacing.arrival turn.1 ∧ due ≤ turn.2 ∧ turn.2 ≤ due + pacing.late ∧
      turn.2 < 2 ^ 63 ∧ blockOf rate ≤ depth ∧ depth ≤ 5 * blockOf rate + 5 then
    some {
      count := books.count + 1
      sent := turn.1
      served := books.served + regulate (blockOf rate) (blockOf rate) (targetOf rate) depth
      clock := turn.2 }
  else none

/-- The scene agrees with the books. -/
structure Kept (stream : Stream) (frames : Nat) (pacing : Pacing) (base : Nat) (books : Books)
    (scene : Scene) : Prop where
  riding : Riding stream frames pacing books.sent base books.count books.served scene.buffer
  sent : scene.sent = books.sent
  clock : scene.clock ≤ pacing.arrival books.sent

section Books

variable {stream : Stream} {frames base : Nat} {pacing : Pacing} {books : Books} {scene : Scene}

theorem arrival_le (pacing : Pacing) {first second : Nat} (order : first ≤ second) :
    pacing.arrival first ≤ pacing.arrival second :=
  Nat.add_le_add_left (Nat.mul_le_mul_right _ order) _

/-- Packets can arrive as long as the queue has room and the pull is not overdue. -/
theorem Kept.pushes (kept : Kept stream frames pacing base books scene)
    (steady : stream.Steady frames) (many : blockOf stream.rate ≤ frames * 100)
    (short : pacing.period < 10000000) {now : Nat} (early : now < 2 ^ 63)
    (prompt : now ≤ scene.buffer.due.toNat + pacing.late) (later : scene.clock ≤ now)
    (count : Nat) (arrived : pacing.arrival (books.sent + count - 1) ≤ now)
    (room : (books.sent + count) * frames ≤ books.served + (5 * blockOf stream.rate + 5)) :
    ∃ beats after, run (Scene.step stream pacing) scene beats = some after ∧
      Kept stream frames pacing base { books with sent := books.sent + count } after ∧
      after.clock ≤ now := by
  have divided : Divided stream.rate := divided steady.listed
  induction count with
  | zero => exact ⟨[], scene, rfl, kept, later⟩
  | succ count ih =>
    have fewer : (books.sent + count) * frames ≤ (books.sent + (count + 1)) * frames :=
      Nat.mul_le_mul_right _ (by omega)
    have mono := arrival_le pacing (show books.sent + count - 1 ≤ books.sent + count by omega)
    obtain ⟨beats, middle, before, agreed, waited⟩ := ih (mono.trans arrived) (fewer.trans room)
    obtain ⟨riding, sent, clock⟩ := agreed
    have few : middle.buffer.bufferedFrames ≤ 5 * blockOf stream.rate + 5 := by
      have depth := riding.depth
      dsimp only at depth
      omega
    have meets : middle.meets pacing (pacing.arrival middle.sent) = true := by
      rw [sent]
      refine Scene.meets_iff.mpr ⟨clock, le_rfl.trans (by rw [sent]), ?_, ?_⟩
      · exact Nat.lt_of_le_of_lt arrived early
      · rintro due same
        rw [riding.dueAt, riding.due divided] at same
        rw [kept.riding.due divided] at prompt
        cases same
        exact arrived.trans prompt
    refine ⟨beats ++ [.push], _, run_append.mpr ⟨middle, before, run_cons.mpr
      ⟨_, Scene.meets_push meets, run_nil _⟩⟩, ⟨?_, ?_, ?_⟩, ?_⟩
    · dsimp only
      rw [sent]
      exact riding.joined steady divided many short few (Nat.lt_of_le_of_lt arrived early)
    · exact congrArg (· + 1) sent
    · dsimp only
      rw [sent]
      exact arrival_le pacing (Nat.le_succ _)
    · dsimp only
      rw [sent]
      exact arrived

/-- What the books allow, a run can do. -/
theorem Kept.follows (kept : Kept stream frames pacing base books scene)
    (steady : stream.Steady frames) (many : blockOf stream.rate ≤ frames * 100)
    (short : pacing.period < 10000000) (soon : pacing.late < 10000000) {turn : Nat × Nat}
    {next : Books} (booked : books.turn pacing stream.rate frames base turn = some next)
    (later : scene.clock ≤ books.clock) :
    ∃ beats after, run (Scene.step stream pacing) scene beats = some after ∧
      Kept stream frames pacing base next after ∧ after.clock ≤ next.clock := by
  have divided : Divided stream.rate := divided steady.listed
  obtain ⟨arrivals, now⟩ := turn
  simp only [Books.turn] at booked
  split at booked
  · rename_i allowed
    obtain ⟨more, order, arrived, ahead, due, prompt, early, fed, few⟩ := allowed
    cases booked
    obtain ⟨count, rfl⟩ := Nat.exists_eq_add_of_le more
    have due_eq := kept.riding.due divided
    obtain ⟨beats, middle, before, ⟨riding, sent, clock⟩, waited⟩ := kept.pushes steady many short
      early (by omega) (later.trans order) count arrived (by omega)
    have depth := riding.depth
    have due_eq := riding.due divided
    dsimp only at depth due_eq
    have held : (books.sent + count) * frames - books.served = middle.buffer.bufferedFrames := by
      omega
    rw [held] at fed few ⊢
    have meets : middle.meets pacing now = true := by
      refine Scene.meets_iff.mpr ⟨waited, by rw [sent]; exact ahead, early, ?_⟩
      intro due same
      rw [riding.dueAt] at same
      cases same
      omega
    have active := riding.active steady short arrived ahead early
    have due_at : middle.buffer.due.toNat ≤ now := by omega
    have emits := riding.emits steady divided fed ((instant early).symm ▸ early)
      (due_reached early due_at (by omega)).1
    have pulled := riding.pulls active early due_at (by omega)
    refine ⟨beats ++ [.pull now],
      { middle with buffer := (middle.buffer.pull (clockAt 0 now)).1, clock := now },
      run_append.mpr ⟨middle, before, run_cons.mpr ⟨_, Scene.meets_pull meets, run_nil _⟩⟩,
      ⟨?_, sent, ahead⟩, le_rfl⟩
    dsimp only
    rw [pulled]
    exact emits
  · cases booked

theorem Kept.run {turns : List (Nat × Nat)} {final : Books}
    (kept : Kept stream frames pacing base books scene)
    (steady : stream.Steady frames) (many : blockOf stream.rate ≤ frames * 100)
    (short : pacing.period < 10000000) (soon : pacing.late < 10000000)
    (later : scene.clock ≤ books.clock)
    (booked : Library.run (Books.turn pacing stream.rate frames base) books turns = some final) :
    ∃ beats after, Library.run (Scene.step stream pacing) scene beats = some after ∧
      Kept stream frames pacing base final after ∧ after.clock ≤ final.clock := by
  induction turns generalizing books scene with
  | nil =>
    cases booked
    exact ⟨[], scene, rfl, kept, later⟩
  | cons turn rest ih =>
    obtain ⟨next, first, others⟩ := run_cons.mp booked
    obtain ⟨front, middle, before, agreed, order⟩ :=
      kept.follows steady many short soon first later
    obtain ⟨back, after, finish, last⟩ := ih agreed order others
    exact ⟨front ++ back, after, run_append.mpr ⟨middle, before, finish⟩, last⟩

/-- A due block that finds less than a block is an underrun. -/
theorem Kept.underruns (kept : Kept stream frames pacing base books scene)
    (steady : stream.Steady frames) (short : pacing.period < 10000000)
    (soon : pacing.late < 10000000) {now : Nat} (meets : scene.meets pacing now = true)
    (order : pacing.arrival (books.sent - 1) ≤ now) (due : scene.buffer.due.toNat ≤ now)
    (dry : scene.buffer.bufferedFrames < blockOf stream.rate) :
    ∃ after, scene.step stream pacing (.pull now) = some after ∧
      after.buffer.counters.underruns = 1 := by
  have divided : Divided stream.rate := divided steady.listed
  obtain ⟨riding, sent, clock⟩ := kept
  obtain ⟨_, arrived, early, prompt⟩ := Scene.meets_iff.mp meets
  have prompt := prompt _ riding.dueAt
  rw [sent] at arrived
  have active := riding.active steady short order arrived early
  obtain ⟨played, lined⟩ := riding.lined
  obtain ⟨ordered, _⟩ := riding.bounded.running active.running
  have wanted : scene.buffer.bufferedFrames < scene.buffer.consume := by
    rw [consume_eq divided riding.rate riding.target]
    rcases regulate_cases (blockOf stream.rate) (blockOf stream.rate) (targetOf stream.rate)
      scene.buffer.bufferedFrames with ⟨_, taken⟩ | ⟨_, _, taken⟩ | ⟨_, _, taken⟩
    · omega
    · omega
    · omega
  have starved := lined.starves ordered steady wanted
  have pulled := riding.pulls active early due (by omega)
  have clean := riding.clean
  simp only [Counters.faults, List.cons.injEq] at clean
  refine ⟨_, Scene.meets_pull meets, ?_⟩
  dsimp only
  rw [pulled, emit_underruns, starved, clean.1]
  rfl

/-- The packets of the start-up wait. -/
theorem collects (steady : stream.Steady frames) (short : pacing.period < 10000000) (count : Nat)
    (few : count < 512) (spare : count * frames ≤ stream.rate / 4)
    (prompt : count * pacing.period ≤ 30000000 + pacing.late)
    (early : pacing.arrival count < 2 ^ 63) :
    ∃ beats scene, run (Scene.step stream pacing) {} beats = some scene ∧
      Waiting stream frames 0 pacing.arrival 0 (count + 1) scene.buffer ∧
      scene.buffer.counters.faults = [0, 0, 0, 0, 0] ∧ scene.sent = count + 1 ∧
      scene.clock = pacing.arrival count := by
  induction count with
  | zero =>
    have meets : ({} : Scene).meets pacing (pacing.arrival 0) = true :=
      Scene.meets_iff.mpr ⟨Nat.zero_le _, le_rfl, early, fun _ absent => nomatch absent⟩
    obtain ⟨opened, counted⟩ := waiting_first steady 0 pacing.arrival
    exact ⟨[.push], _, run_cons.mpr ⟨_, Scene.meets_push meets, run_nil _⟩, opened, counted,
      rfl, rfl⟩
  | succ count ih =>
    have next : pacing.arrival (count + 1) = pacing.arrival count + pacing.period :=
      arrival_next pacing (Nat.succ_pos count)
    have fewer : count * frames ≤ (count + 1) * frames := Nat.mul_le_mul_right _ (Nat.le_succ _)
    rw [Nat.succ_mul] at prompt
    obtain ⟨beats, scene, before, waiting, clean, sent, clock⟩ :=
      ih (by omega) (by omega) (by omega) (by omega)
    have lead : pacing.lead ≤ pacing.arrival count := Nat.le_add_right _ _
    have meets : scene.meets pacing (pacing.arrival scene.sent) = true := by
      rw [sent]
      refine Scene.meets_iff.mpr ⟨by omega, by rw [sent], early, ?_⟩
      intro due same
      rw [waiting.dueAt (by omega)] at same
      cases same
      rw [Pacing.arrival, Nat.succ_mul]
      omega
    obtain ⟨joined, counted⟩ := waiting.receives steady few spare short early clean
    refine ⟨beats ++ [.push], _, run_append.mpr ⟨scene, before, run_cons.mpr
      ⟨_, Scene.meets_push meets, run_nil _⟩⟩, ?_, ?_, congrArg (· + 1) sent, ?_⟩
    · dsimp only
      rw [sent]
      exact joined
    · dsimp only
      rw [sent]
      exact counted
    · dsimp only
      rw [sent]

/-- The first pull after the wait opens the books. -/
theorem begins {sent : Nat} (now : Nat) (steady : stream.Steady frames)
    (short : pacing.period < 10000000)
    (waiting : Waiting stream frames 0 pacing.arrival 0 sent scene.buffer)
    (clean : scene.buffer.counters.faults = [0, 0, 0, 0, 0]) (same : scene.sent = sent)
    (order : pacing.arrival (sent - 1) ≤ now) (later : scene.clock ≤ now)
    (arrived : now ≤ pacing.arrival sent) (early : now < 2 ^ 63)
    (ready : pacing.lead + 30000000 ≤ now) (prompt : now ≤ pacing.lead + 30000000 + pacing.late)
    (fed : blockOf stream.rate ≤ sent * frames) :
    ∃ after, scene.step stream pacing (.pull now) = some after ∧
      Kept stream frames pacing (now - pacing.lead)
        ⟨1, sent, regulate (blockOf stream.rate) (blockOf stream.rate) (targetOf stream.rate)
          (sent * frames), now⟩ after ∧ after.clock = now := by
  have divided : Divided stream.rate := divided steady.listed
  have next := arrival_next pacing waiting.present
  have due := waiting.dueAt (show pacing.lead < 2 ^ 63 by omega)
  have active := waiting.active steady order (by omega) (by omega)
  have meets : scene.meets pacing now = true := by
    refine Scene.meets_iff.mpr ⟨later, by rw [same]; exact arrived, early, ?_⟩
    intro other alike
    rw [due] at alike
    cases alike
    exact prompt
  have depth := waiting.buffered
  obtain ⟨started, starts, started_due, same_depth, riding⟩ :=
    waiting.rides steady clean early ready
  rw [depth, Nat.sub_zero] at same_depth
  have reached : ¬ clockAt 0 now < started.due := by
    rw [started_due]
    exact UInt64.lt_irrefl _
  have emits := riding.emits steady divided (same_depth.symm ▸ fed)
    ((instant early).symm ▸ early) reached
  have pulled := pull_emitted active starts reached (by rw [started_due]; simp)
  rw [same_depth, Nat.zero_add, Nat.zero_add] at emits
  refine ⟨_, Scene.meets_pull meets, ⟨?_, same, arrived⟩, rfl⟩
  dsimp only
  rw [pulled]
  exact emits

end Books

/-- In runs of any length no fault is counted, a pull emits a block exactly when one is
due, and it finds at least one block in the queue and never more than about six. -/
theorem drift_absorbed {stream : Stream} {frames : Nat} {pacing : Pacing} {beats : List Beat}
    {scene : Scene} (steady : stream.Steady frames)
    (within : pacing.Within stream.rate frames (slack stream.rate))
    (success : run (Scene.step stream pacing) {} beats = some scene) :
    let block := stream.rate / 100
    scene.buffer.counters.underruns = 0 ∧ scene.buffer.counters.overruns = 0 ∧
      scene.buffer.counters.lost = 0 ∧ scene.buffer.counters.late = 0 ∧
      scene.buffer.counters.discontinuities = 0 ∧
      ∀ now next, scene.step stream pacing (.pull now) = some next →
        let pulled := scene.buffer.pull (clockAt 0 now)
        next.buffer = pulled.1 ∧
        (pulled.2.isSome = true ↔ ∃ due, scene.buffer.dueAt = some due ∧ due ≤ now) ∧
        (pulled.2.isSome = true →
          block ≤ scene.buffer.bufferedFrames ∧ scene.buffer.bufferedFrames ≤ 6 * block + 3) := by
  intro block
  have inv := Scene.invariant_run steady within success
  have clean := inv.phase.clean
  simp only [Counters.faults, List.cons.injEq] at clean
  refine ⟨clean.1, clean.2.1, clean.2.2.1, clean.2.2.2.1, clean.2.2.2.2.1, ?_⟩
  intro now next taken
  obtain ⟨meets, rfl⟩ := Scene.step_pull taken
  have served := Scene.invariant_pull inv steady within meets
  exact ⟨rfl, served.due, served.band⟩

/-- Packets of 5 ms at 6 kHz, and pulls that come 1 ms late. -/
theorem drift_absorbed_silence :
    ∃ beats scene,
      run (Scene.step (silence 6000 30) ⟨1000, 5000000, 2000000⟩) {} beats = some scene ∧
      scene.buffer.playing = true ∧ scene.buffer.counters.discontinuities = 0 := by
  have steady : (silence 6000 30).Steady 30 := silence_steady
    ⟨.inl rfl, by decide, by decide, by decide, by decide⟩
  have within : (⟨1000, 5000000, 2000000⟩ : Pacing).Within (silence 6000 30).rate 30 0 :=
    ⟨by decide, by decide, by decide, by decide⟩
  have ran : (run (Scene.step (silence 6000 30) ⟨1000, 5000000, 2000000⟩) {}
      (List.replicate 7 .push ++ [.pull 31001000, .push, .push, .pull 41001000])).any
      (fun scene => scene.buffer.playing) = true := by decide +kernel
  obtain ⟨scene, success, playing⟩ := (Option.any_eq_true _ _).mp ran
  exact ⟨_, scene, success, playing, (drift_absorbed steady within success).2.2.2.2.1⟩

/-- A sender at 11025 Hz that is almost one frame per block too slow, and pulls that are
late by all but a nanosecond of what the packets leave room for. -/
def slowest : Pacing := ⟨1000000000, 1098421, 8970438⟩

/-- The turns after the first pull: the pulls are late until block 298, which a packet
comes just in time for, and then on time. -/
def slowestTurns : List (Nat × Nat) := (List.range 299).map fun k =>
  let due := 37346261 + nanoseconds ((k + 1) * 110) 11025
  let now := if k < 298 then due + 8970438 else due
  ((now + 1098420) / 1098421 + if k = 297 then 1 else 0, 1000000000 + now)

theorem slowest_books :
    run (Books.turn slowest 11025 12 37346261) ⟨1, 34, 110, 1037346261⟩ slowestTurns =
      some ⟨300, 2750, 32999, 4020566215⟩ := by decide +kernel

/-- Block 300 finds 109 frames of the 110 it needs. -/
theorem drift_underruns :
    (silence 11025 12).Steady 12 ∧ slowest.Within 11025 12 0 ∧
      ∃ beats scene, run (Scene.step (silence 11025 12) slowest) {} beats = some scene ∧
        scene.buffer.counters.underruns ≠ 0 := by
  have steady : (silence 11025 12).Steady 12 := silence_steady
    ⟨.inl rfl, by decide, by decide, by decide, by decide⟩
  have rate : (silence 11025 12).rate = 11025 := rfl
  have many : blockOf (silence 11025 12).rate ≤ 12 * 100 := by decide
  have short : slowest.period < 10000000 := by decide
  have soon : slowest.late < 10000000 := by decide
  refine ⟨steady, ⟨by decide, by decide, by decide, by decide⟩, ?_⟩
  obtain ⟨first, waiting, collected, opened, clean, sent, clock⟩ :=
    collects steady short 33 (by decide) (by decide) (by decide) (by decide)
  obtain ⟨middle, started, kept, began⟩ := begins 1037346261 steady short opened clean sent
    (by decide) (by rw [clock]; decide) (by decide) (by decide) (by decide) (by decide) (by decide)
  obtain ⟨second, later, played, agreed, waited⟩ :=
    kept.run steady many short soon began.le slowest_books
  have due := agreed.riding.due (divided steady.listed)
  have stamp : later.buffer.due.toNat = 4030543539 := due.trans (by decide +kernel)
  obtain ⟨third, last, arrived, dry, before⟩ := agreed.pushes steady many short
    (show 4030543539 < 2 ^ 63 by decide) (by rw [stamp]; decide)
    (waited.trans (by decide)) 9 (by decide) (by decide)
  have held := dry.riding.depth
  have stamped := dry.riding.due (divided steady.listed)
  have same : last.buffer.due.toNat = 4030543539 := stamped.trans (by decide +kernel)
  have meets : last.meets slowest 4030543539 = true := by
    refine Scene.meets_iff.mpr ⟨before, ?_, by decide, ?_⟩
    · rw [dry.sent]
      decide
    · intro due timely
      rw [dry.riding.dueAt] at timely
      cases timely
      rw [same]
      decide
  obtain ⟨after, ended, counted⟩ := dry.underruns steady short soon meets (by decide)
    same.le (by
      change _ < 110
      dsimp only at held
      omega)
  refine ⟨first ++ [.pull 1037346261] ++ second ++ third ++ [.pull 4030543539], after, ?_, ?_⟩
  · simp only [run_append, run_cons, run_nil]
    exact ⟨last, ⟨later, ⟨middle, ⟨waiting, collected, middle, started, rfl⟩, played⟩, arrived⟩,
      after, ended, rfl⟩
  · rw [counted]
    exact Nat.one_ne_zero

end VbanStream
