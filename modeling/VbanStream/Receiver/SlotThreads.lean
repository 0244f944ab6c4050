import VbanStream.Library.Run
import VbanStream.Buffer.Steps
import VbanStream.Receiver.Slot

/-! The receive and audio threads on one slot. Each reads the shared clock
before it takes the slot mutex, so the other thread may get in between. -/

namespace VbanStream

open Library

structure SlotThreads where
  clock : UInt64
  slot : Slot := {}
  /-- The receive thread holds a decoded datagram and its clock value. -/
  arrival : Option (Except ParseError Packet × UInt64) := none
  /-- The audio thread holds the clock value of this round. -/
  awake : Option UInt64 := none
  /-- History: the clock value of the last packet the buffer accepted. -/
  lastAccepted : Option UInt64 := none

namespace SlotThreads

inductive Label where
  | tick (now : UInt64)
  | stamp (decoded : Except ParseError Packet)
  | deliver
  | wake
  | service

def accepted (s : SlotThreads) : Except ParseError Packet → UInt64 → Option UInt64
  | .error _, _ => s.lastAccepted
  | .ok packet, now => if s.slot.buffer.accepts packet now then some now else s.lastAccepted

def step (s : SlotThreads) : Label → Option SlotThreads
  | .tick now => if s.clock ≤ now then some { s with clock := now } else none
  | .stamp decoded =>
    if s.arrival.isNone then some { s with arrival := some (decoded, s.clock) } else none
  | .deliver => s.arrival.map fun (decoded, now) =>
    { s with
      slot := s.slot.receive decoded now
      arrival := none
      lastAccepted := s.accepted decoded now }
  | .wake => if s.awake.isNone then some { s with awake := some s.clock } else none
  | .service => s.awake.map fun now =>
    { s with slot := (s.slot.service now).1, awake := none }

/-- The audio thread's visit to the slot declares it silent. -/
def DeclaresTimeout (slot : Slot) (now : UInt64) : Prop :=
  slot.wasReceiving = true ∧ (slot.service now).1.wasReceiving = false

/-- The audio thread's visit to the slot discards the session and does nothing else. -/
def DiscardsSession (slot : Slot) (now : UInt64) : Prop :=
  slot.buffer.initialized = true ∧ slot.buffer.pull now = (slot.buffer.clear, none)

/-- The visit of the audio thread resets nothing before its time: the session
is discarded, or the slot declared silent, only after true silence. -/
structure NoSpuriousReset (s : SlotThreads) (now : UInt64) : Prop where
  session : DiscardsSession s.slot now →
    ∃ accepted, s.lastAccepted = some accepted ∧ accepted.toNat + 250000000 ≤ now.toNat
  timeout : DeclaresTimeout s.slot now → s.slot.buffer.lastValid.toNat + 1000000000 ≤ now.toNat

/-- No packet was stamped later than the audio thread's own clock value. -/
structure ClockCaughtUp (s : SlotThreads) (now : UInt64) : Prop where
  session : s.slot.buffer.initialized = true ∧ s.slot.buffer.format.rate ≠ 0 →
    s.slot.buffer.lastProgress ≤ now
  timeout : s.slot.wasReceiving = true → s.slot.buffer.lastValid ≤ now

/-- What both threads' clock reads leave behind in every interleaving. -/
structure Invariant (s : SlotThreads) : Prop where
  session : s.slot.buffer.initialized = true →
    s.lastAccepted = some s.slot.buffer.lastProgress
  progress : s.slot.buffer.initialized = true → s.slot.buffer.lastProgress ≤ s.clock
  valid : s.slot.wasReceiving = true → s.slot.buffer.lastValid ≤ s.clock
  arrival : ∀ decoded now, s.arrival = some (decoded, now) → now ≤ s.clock
  awake : ∀ now, s.awake = some now → now ≤ s.clock

theorem declaresTimeout_iff (slot : Slot) (now : UInt64) :
    DeclaresTimeout slot now ↔
      slot.wasReceiving = true ∧ now - slot.buffer.lastValid ≥ 1000000000 := by
  have clocks := slot.buffer.pull_clocks now
  simp only [DeclaresTimeout, Slot.service, Slot.timedOut, clocks.1]
  cases slot.wasReceiving <;> simp

theorem discardsSession_iff (slot : Slot) (now : UInt64) :
    DiscardsSession slot now ↔ slot.buffer.Inactive now := by
  constructor
  · rintro ⟨running, pulled⟩
    obtain ⟨after, cleared⟩ : ∃ after, after = slot.buffer.clear := ⟨_, rfl⟩
    have closed : after.initialized = false := cleared ▸ rfl
    have counted : after.counters = slot.buffer.counters := cleared ▸ rfl
    rw [← cleared] at pulled
    cases StreamBuffer.pull_cases pulled with
    | idle | waiting =>
      rw [running] at closed
      cases closed
    | inactive expired => exact expired
    | early _ ready =>
      have same := (StreamBuffer.start_fields ready).2.2.2.2.1
      rw [same, running] at closed
      cases closed
    | suspended _ ready =>
      have same := (StreamBuffer.start_fields ready).2.2.2.2.2.2.2.2.2.2.2.1
      rw [← same] at counted
      have more := congrArg Counters.discontinuities counted
      simp [StreamBuffer.count, StreamBuffer.clear] at more
  · rintro ⟨⟨running, rated⟩, silent⟩
    refine ⟨running, ?_⟩
    rw [StreamBuffer.pull, if_neg (by simp [running, rated]), if_pos silent]

theorem invariant_initial (clock : UInt64) : Invariant { clock } := by
  constructor <;> simp

theorem invariant_deliver {s : SlotThreads} (inv : Invariant s)
    {decoded : Except ParseError Packet} {now : UInt64}
    (pending : s.arrival = some (decoded, now)) :
    Invariant { s with
      slot := s.slot.receive decoded now
      arrival := none
      lastAccepted := s.accepted decoded now } := by
  have stamped := inv.arrival decoded now pending
  cases decoded with
  | error error =>
    exact ⟨inv.session, inv.progress, inv.valid, by simp, inv.awake⟩
  | ok packet =>
    have valid := s.slot.buffer.push_lastValid packet now
    cases outcome : s.slot.buffer.accepts packet now with
    | true =>
      obtain ⟨running, progress⟩ := StreamBuffer.push_accepted outcome
      refine ⟨?_, ?_, ?_, by simp, inv.awake⟩
      · simp [Slot.receive, accepted, outcome, progress]
      · simp [Slot.receive, progress, stamped]
      · simp [Slot.receive, valid, stamped]
    | false =>
      obtain ⟨running, progress⟩ := StreamBuffer.push_refused outcome
      refine ⟨?_, ?_, ?_, by simp, inv.awake⟩
      · simpa [Slot.receive, accepted, outcome, running, progress] using inv.session
      · simpa [Slot.receive, running, progress] using inv.progress
      · simp [Slot.receive, valid, stamped]

theorem invariant_service {s : SlotThreads} (inv : Invariant s) (now : UInt64) :
    Invariant { s with slot := (s.slot.service now).1, awake := none } := by
  have clocks := s.slot.buffer.pull_clocks now
  constructor
  · intro running
    simpa [Slot.service, clocks.2] using inv.session (StreamBuffer.pull_initialized running)
  · intro running
    simpa [Slot.service, clocks.2] using inv.progress (StreamBuffer.pull_initialized running)
  · intro receiving
    have before : s.slot.wasReceiving = true := by
      simp only [Slot.service, Bool.and_eq_true] at receiving
      exact receiving.1
    simpa [Slot.service, clocks.1] using inv.valid before
  · exact inv.arrival
  · simp

theorem invariant_step (s : SlotThreads) (label : Label) (next : SlotThreads)
    (inv : Invariant s) (taken : s.step label = some next) : Invariant next := by
  cases label with
  | tick now =>
    simp only [step] at taken
    split at taken
    · rename_i later
      cases taken
      exact ⟨inv.session, fun running => UInt64.le_trans (inv.progress running) later,
        fun receiving => UInt64.le_trans (inv.valid receiving) later,
        fun decoded stamped pending => UInt64.le_trans (inv.arrival decoded stamped pending) later,
        fun stamped pending => UInt64.le_trans (inv.awake stamped pending) later⟩
    · cases taken
  | stamp decoded =>
    simp only [step] at taken
    split at taken
    · cases taken
      refine ⟨inv.session, inv.progress, inv.valid, ?_, inv.awake⟩
      rintro _ _ ⟨⟩
      exact UInt64.le_refl _
    · cases taken
  | deliver =>
    obtain ⟨⟨decoded, now⟩, pending, same⟩ := Option.map_eq_some_iff.mp taken
    subst same
    exact invariant_deliver inv pending
  | wake =>
    simp only [step] at taken
    split at taken
    · cases taken
      refine ⟨inv.session, inv.progress, inv.valid, inv.arrival, ?_⟩
      rintro _ ⟨⟩
      exact UInt64.le_refl _
    · cases taken
  | service =>
    obtain ⟨now, _, same⟩ := Option.map_eq_some_iff.mp taken
    subst same
    exact invariant_service inv now

theorem invariant_reachable {clock : UInt64} {s : SlotThreads}
    (reached : Reachable step { clock } s) : Invariant s :=
  reached.invariant invariant_step (invariant_initial clock)

theorem elapsed_of_le {now last bound : UInt64} (caughtUp : last ≤ now)
    (elapsed : bound ≤ now - last) : last.toNat + bound.toNat ≤ now.toNat := by
  have difference := UInt64.toNat_sub_of_le now last caughtUp
  have order := UInt64.le_iff_toNat_le.mp caughtUp
  have enough := UInt64.le_iff_toNat_le.mp elapsed
  omega

/-- A reader that is behind sees an enormous elapsed time. -/
theorem elapsed_of_lt {now last : UInt64} (behind : now < last)
    (bounded : last.toNat < 2 ^ 63) : now - last > 1000000000 := by
  have order := UInt64.lt_iff_toNat_lt.mp behind
  simp only [gt_iff_lt, UInt64.lt_iff_toNat_lt, UInt64.toNat_sub, UInt64.reduceToNat]
  omega

theorem noSpuriousReset_of_caughtUp {s : SlotThreads} (inv : Invariant s) {now : UInt64}
    (caughtUp : ClockCaughtUp s now) : NoSpuriousReset s now := by
  constructor
  · intro discarded
    have inactive := (discardsSession_iff _ _).mp discarded
    refine ⟨_, inv.session inactive.1.1, ?_⟩
    exact elapsed_of_le (caughtUp.session inactive.1) (UInt64.le_of_lt inactive.2)
  · intro silent
    obtain ⟨receiving, elapsed⟩ := (declaresTimeout_iff _ _).mp silent
    exact elapsed_of_le (caughtUp.timeout receiving) elapsed

theorem caughtUp_of_noSpuriousReset {s : SlotThreads} (inv : Invariant s)
    (bounded : s.clock.toNat < 2 ^ 63) {now : UInt64} (sound : NoSpuriousReset s now) :
    ClockCaughtUp s now := by
  constructor
  · intro session
    by_contra ahead
    have behind := UInt64.not_le.mp ahead
    have progress := UInt64.le_iff_toNat_le.mp (inv.progress session.1)
    have enormous := elapsed_of_lt behind (by omega)
    obtain ⟨accepted, last, silence⟩ :=
      sound.session ((discardsSession_iff _ _).mpr
        ⟨session, UInt64.lt_trans (by decide) enormous⟩)
    rw [inv.session session.1] at last
    cases last
    have order := UInt64.lt_iff_toNat_lt.mp behind
    omega
  · intro receiving
    by_contra ahead
    have behind := UInt64.not_le.mp ahead
    have valid := UInt64.le_iff_toNat_le.mp (inv.valid receiving)
    have enormous := elapsed_of_lt behind (by omega)
    have silence := sound.timeout
      ((declaresTimeout_iff _ _).mpr ⟨receiving, UInt64.le_of_lt enormous⟩)
    have order := UInt64.lt_iff_toNat_lt.mp behind
    omega

/-- In every interleaving, a visit of the audio thread resets nothing before
its time exactly when no packet carries a later clock value than the visit's
own. The converse needs clock values short of half the 64-bit range. -/
theorem noSpuriousReset_iff {clock : UInt64} {labels : List Label} {s : SlotThreads}
    (visit : Performs step { clock } labels s .service) :
    ∀ now, s.awake = some now →
      (ClockCaughtUp s now → NoSpuriousReset s now) ∧
      (s.clock.toNat < 2 ^ 63 → NoSpuriousReset s now → ClockCaughtUp s now) := by
  have inv := invariant_reachable visit.reachable
  intro now _
  exact ⟨noSpuriousReset_of_caughtUp inv,
    fun bounded sound => caughtUp_of_noSpuriousReset inv bounded sound⟩

/-- One mono frame at 48 kHz. -/
def click : Packet := { format := ⟨48000, 1, 1⟩, frames := 1, samples := [0] }

/-- The packet is stamped and stored before the audio thread reads the clock. -/
def orderly : List Label := [.stamp (.ok click), .deliver, .wake]

theorem noSpuriousReset_orderly : ∃ s : SlotThreads,
    run step { clock := 5000000000 } orderly = some s ∧ s.slot.buffer.initialized = true ∧
      s.slot.wasReceiving = true ∧ NoSpuriousReset s 5000000000 := by
  refine ⟨_, rfl, rfl, rfl, ?_⟩
  have visit : Performs step { clock := 5000000000 } (orderly ++ [.service]) _ .service :=
    ⟨orderly, [], rfl, rfl⟩
  apply (noSpuriousReset_iff visit _ rfl).1
  exact ⟨fun _ => by decide, fun _ => by decide⟩

/-- The packet is stamped one nanosecond after the audio thread's clock read and
stored before the audio thread gets the mutex. -/
def overtaken : List Label := [.wake, .tick 5000000001, .stamp (.ok click), .deliver]

/-- The overtaken visit discards a session whose last packet is newer than the
visit's own clock value, and declares the slot silent. -/
theorem overtaken_spurious_reset : ∃ (labels : List Label) (s : SlotThreads) (now : UInt64),
    Performs step { clock := 5000000000 } labels s .service ∧ s.awake = some now ∧
      DiscardsSession s.slot now ∧ DeclaresTimeout s.slot now ∧
      (∀ accepted, s.lastAccepted = some accepted → now < accepted) ∧
      now < s.slot.buffer.lastValid ∧ ¬ NoSpuriousReset s now := by
  refine ⟨overtaken ++ [.service], _, 5000000000, ⟨overtaken, [], rfl, rfl⟩, rfl,
    (discardsSession_iff _ _).mpr ⟨by decide, by decide⟩,
    (declaresTimeout_iff _ _).mpr ⟨by decide, by decide⟩, ?_, by decide, ?_⟩
  · intro accepted last
    cases last
    decide
  · intro sound
    exact absurd (sound.timeout ((declaresTimeout_iff _ _).mpr ⟨by decide, by decide⟩)) (by decide)

end SlotThreads

end VbanStream
