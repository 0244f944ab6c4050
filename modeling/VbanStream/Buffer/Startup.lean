import VbanStream.Buffer.Lossless

/-! How a stream starts to play. Packets collect for the start-up wait of 30 ms, unless the
limit of 512 pending packets is reached before and the wait starts again. -/

namespace VbanStream

open Library StreamBuffer

/-- A time after the arrival of the first packet, on the clock of the receiver. -/
def clockAt (origin : UInt64) (time : Nat) : UInt64 := origin + UInt64.ofNat time

theorem clockAt_toNat {origin : UInt64} {time : Nat} (early : origin.toNat + time < 2 ^ 64) :
    (clockAt origin time).toNat = origin.toNat + time := by
  rw [clockAt, UInt64.toNat_add, UInt64.toNat_ofNat']
  omega

theorem clockAt_sub (origin : UInt64) {early late : Nat} (order : early ≤ late)
    (short : late < 2 ^ 64) : (clockAt origin late - clockAt origin early).toNat = late - early := by
  have start := origin.toNat_lt
  simp only [clockAt, UInt64.toNat_sub, UInt64.toNat_add, UInt64.toNat_ofNat']
  omega

theorem clockAt_recent (origin : UInt64) {early late : Nat} (order : early ≤ late)
    (soon : late ≤ early + 250000000) (short : late < 2 ^ 64) :
    ¬ clockAt origin late - clockAt origin early > 250000000 := by
  have apart := clockAt_sub origin order short
  simp only [gt_iff_lt, UInt64.lt_iff_toNat_lt, apart, UInt64.reduceToNat]
  omega

theorem clockAt_ready {origin : UInt64} {opened now : Nat}
    (early : origin.toNat + now < 2 ^ 63) (order : opened ≤ now) :
    clockAt origin now < clockAt origin opened + 30000000 ↔ now < opened + 30000000 := by
  have after : (clockAt origin now).toNat = origin.toNat + now := clockAt_toNat (by omega)
  have before : (clockAt origin opened).toNat = origin.toNat + opened := clockAt_toNat (by omega)
  simp only [UInt64.lt_iff_toNat_lt, UInt64.toNat_add, after, before, UInt64.reduceToNat]
  omega

/-- A session that waits for its start-up time, since the arrival of packet `opening`. -/
structure Waiting (stream : Stream) (frames : Nat) (origin : UInt64) (arrival : Nat → Nat)
    (opening sent : Nat) (b : StreamBuffer) : Prop where
  lined : Lined stream frames opening sent b
  bounded : Bounded b
  present : opening < sent
  silent : b.playing = false
  queue : b.fifo = []
  opened : b.first = clockAt origin (arrival opening)
  progress : b.lastProgress = clockAt origin (arrival (sent - 1))
  target : b.targetMs = 30
  ended : b.lastEnd = 0

namespace Waiting

variable {stream : Stream} {frames opening sent : Nat} {origin : UInt64} {arrival : Nat → Nat}
  {b : StreamBuffer}

theorem buffered (waiting : Waiting stream frames origin arrival opening sent b) :
    b.bufferedFrames = (sent - opening) * frames := by
  rw [bufferedFrames_eq, queuedFrames, waiting.queue, waiting.lined.waiting]
  simp

/-- A packet that starts a session, the first one or after an overrun. -/
theorem restarted (steady : stream.Steady frames) (target : b.targetMs = 30) (ended : b.lastEnd = 0)
    (bounded : Bounded b) (k : Nat)
    (restarts : b.restarts (stream.packet k) (clockAt origin (arrival k)) = true) :
    Waiting stream frames origin arrival k (k + 1)
      (b.push (stream.packet k) (clockAt origin (arrival k))) := by
  have after := bounded_push bounded (steady.wellFormed k) (clockAt origin (arrival k))
  obtain ⟨counters, newest, pushed⟩ := push_restarted restarts
  rw [pushed] at after ⊢
  exact ⟨.opened steady b k _ counters newest, after, Nat.lt_succ_self k, rfl, rfl, rfl, rfl,
    target, ended⟩

/-- A packet that joins the session in time. -/
theorem joined (waiting : Waiting stream frames origin arrival opening sent b)
    (steady : stream.Steady frames) (room : sent < opening + 512)
    (spare : (sent - opening) * frames ≤ b.format.rate.toNat / 4)
    (recent : ¬ clockAt origin (arrival sent) - b.lastProgress > 250000000) :
    Waiting stream frames origin arrival opening (sent + 1)
        (b.push (stream.packet sent) (clockAt origin (arrival sent))) ∧
      (b.push (stream.packet sent) (clockAt origin (arrival sent))).counters.faults =
        b.counters.faults := by
  have after := bounded_push waiting.bounded (steady.wellFormed sent) (clockAt origin (arrival sent))
  obtain ⟨accepted, stays⟩ :=
    waiting.lined.joins waiting.bounded room (waiting.buffered ▸ spare) recent
  refine ⟨?_, push_faults accepted stays⟩
  obtain ⟨⟨counters, newest, pushed⟩, _⟩ := push_joined stays accepted
  rw [pushed] at after ⊢
  have present := waiting.present
  exact ⟨waiting.lined.pushed steady room, after, by omega, waiting.silent, waiting.queue,
    waiting.opened, rfl, waiting.target, waiting.ended⟩

theorem active (waiting : Waiting stream frames origin arrival opening sent b)
    (steady : stream.Steady frames) {now : Nat} (order : arrival (sent - 1) ≤ now)
    (soon : now ≤ arrival (sent - 1) + 250000000) (early : now < 2 ^ 64) :
    b.Active (clockAt origin now) := by
  have bounds := sampleRates_bound steady.listed
  refine ⟨waiting.lined.running, ?_, ?_⟩
  · rw [waiting.lined.format]
    intro zero
    rw [zero] at bounds
    exact absurd bounds.1 (by decide)
  · rw [waiting.progress]
    exact clockAt_recent origin order soon early

theorem early (waiting : Waiting stream frames origin arrival opening sent b) {now : UInt64}
    (active : b.Active now) (early : now < b.first + 30000000) : b.pull now = (b, none) := by
  have silent : b.start now = none := by
    rw [start, if_neg (by rw [waiting.silent]; exact Bool.false_ne_true), waiting.target]
    exact if_pos early
  unfold pull
  rw [if_neg (by simp [active.running, active.rate]), if_neg active.recent, silent]

/-- The first pull after it starts the schedule at its own time. -/
theorem started (waiting : Waiting stream frames origin arrival opening sent b) {now : UInt64}
    (ready : ¬ now < b.first + 30000000) :
    b.start now = some { b with base := now, emitted := 0, playing := true } ∧
      ({ b with base := now, emitted := 0, playing := true } : StreamBuffer).due = now := by
  have latest : max now b.lastEnd = now := by
    rw [waiting.ended, ← UInt64.toNat_inj, toNat_max]
    exact Nat.max_eq_left (Nat.zero_le _)
  have zero : framesToNs 0 b.format.rate = 0 := by simp [framesToNs]
  constructor
  · rw [start, if_neg (by rw [waiting.silent]; exact Bool.false_ne_true), waiting.target, latest]
    exact if_neg ready
  · rw [StreamBuffer.due, zero]
    exact UInt64.add_zero now

/-- It emits the first block, if enough is buffered. -/
theorem starts (waiting : Waiting stream frames origin arrival opening sent b)
    (steady : stream.Steady frames) {now : UInt64} (active : b.Active now)
    (ready : ¬ now < b.first + 30000000) (enough : b.blockFrames ≤ b.bufferedFrames) :
    ∃ started : StreamBuffer, started = { b with base := now, emitted := 0, playing := true } ∧
      b.pull now = (started.emit.1, some started.emit.2) ∧ started.prepare.2 = true ∧
      (∃ later, Lined stream frames later sent started.emit.1) ∧
      started.emit.1.bufferedFrames + started.consume = b.bufferedFrames ∧
      started.emit.1.counters.faults = b.counters.faults := by
  obtain ⟨ready', due⟩ := waiting.started ready
  obtain ⟨ordered, _⟩ := waiting.bounded.running active.running
  have started : Lined stream frames opening sent
      { b with base := now, emitted := 0, playing := true } :=
    waiting.lined.transfer rfl rfl rfl rfl rfl
  obtain ⟨fed, lined, taken, clean⟩ :=
    started.emit (ordered.transfer rfl rfl rfl rfl rfl rfl) steady enough
  refine ⟨_, rfl, ?_, fed, lined, taken, clean⟩
  exact pull_emitted active ready' (by rw [due]; simp) (by rw [due]; simp)

end Waiting

def Stream.rate (stream : Stream) : Nat := (stream.packet 0).format.rate.toNat

/-- The nominal time of a packet, from the first one on. -/
def Stream.arrival (stream : Stream) (frames k : Nat) : Nat := nanoseconds (k * frames) stream.rate

/-- Packets at their nominal times, and a pull every 2 ms from the first arrival on, in
the order of time. What falls on one instant may come in either order. -/
inductive Timely (stream : Stream) (frames : Nat) (origin : UInt64) :
    Nat → Nat → List Operation → Prop where
  | start : Timely stream frames origin 0 0 []
  | push (before : Timely stream frames origin pushed pulled operations)
      (order : stream.arrival frames pushed ≤ 2000000 * pulled) :
      Timely stream frames origin (pushed + 1) pulled (operations ++
        [.push (stream.packet pushed) (clockAt origin (stream.arrival frames pushed))])
  | pull (before : Timely stream frames origin pushed pulled operations)
      (order : 2000000 * pulled ≤ stream.arrival frames pushed) :
      Timely stream frames origin pushed (pulled + 1) (operations ++
        [.pull (clockAt origin (2000000 * pulled))])

section Arrival

variable {stream : Stream} {frames : Nat}

theorem rate_bounds (steady : stream.Steady frames) :
    6000 ≤ stream.rate ∧ stream.rate ≤ 705600 := sampleRates_bound steady.listed

end Arrival

section Fresh

variable {stream : Stream} {frames : Nat}

/-- The first packet opens a session in a fresh buffer. -/
theorem waiting_first (steady : stream.Steady frames) (origin : UInt64) (arrival : Nat → Nat) :
    Waiting stream frames origin arrival 0 1
        (({ targetMs := 30 } : StreamBuffer).push (stream.packet 0) (clockAt origin (arrival 0))) ∧
      (({ targetMs := 30 } : StreamBuffer).push (stream.packet 0)
        (clockAt origin (arrival 0))).counters.faults = [0, 0, 0, 0, 0] := by
  have empty : Bounded (ofRun 30 []) := bounded_ofRun 30 (by simp)
  exact ⟨Waiting.restarted steady rfl rfl empty 0 rfl, push_faults_opening rfl _ _⟩

theorem pull_fresh (now : UInt64) :
    ({ targetMs := 30 } : StreamBuffer).pull now = ({ targetMs := 30 }, none) := rfl

end Fresh

section Slow

variable {stream : Stream} {frames pushed pulled : Nat} {origin : UInt64} {b : StreamBuffer}

end Slow

section Fast

variable {stream : Stream} {frames pushed pulled : Nat} {origin : UInt64} {b : StreamBuffer}

end Fast

section Existence

variable {stream : Stream} {frames pushed pulled : Nat} {origin : UInt64}
  {operations : List Operation}

end Existence

end VbanStream
