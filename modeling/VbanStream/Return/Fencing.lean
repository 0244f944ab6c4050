import VbanStream.Return.FencedRing

namespace VbanStream

open Library

/-- What the worker has read so far, when it decides whether to mix. -/
def Service.Seen : Service → Prop
  | .checkingMonitored _ active => active = true
  | .checkingRemoved _ active monitored => active = true ∧ monitored = true
  | .checkingEpoch _ active monitored removed =>
    active = true ∧ monitored = true ∧ removed = false
  | _ => True

/-- A packet as it should be. Its frame `i` is at `cursor + i`, and the time -1 marks the empty
cells of the timeline. -/
structure Mixed.Fenced {V : Type*} (m : Mixed V) : Prop where
  active : m.active = true
  monitored : m.monitored = true
  removed : m.removed = false
  same : m.workerEpoch = m.epoch
  counted : m.epoch = UInt64.ofNat (m.moment + 1)
  added : ∀ j : Nat, m.call.cursor + (j / 2 : Nat) ≠ -1 →
    (m.added j).Within fun origin => origin.epoch = m.epoch ∧ origin.Valid m.moment

namespace FencedTap

variable {V : Type*} {around : Surroundings V} {s next : FencedTap V}

/-- What the worker may still have in its timeline, retimer and resampler. -/
def Fresh (s : FencedTap V) (stamp : Stamp) : Prop :=
  stamp.epoch = s.workerEpoch ∧ stamp.Valid s.bumps

structure Sound (around : Surroundings V) (s : FencedTap V) : Prop where
  counted : s.epoch = UInt64.ofNat (s.bumps + 1)
  quiet : s.attached = false ∨ s.dead = true → s.capture = .idle
  stamp : ∀ stamp, s.capture.stamp = some stamp → stamp.Valid s.bumps
  ring : ∀ ring, s.ring = some ring →
    CaptureRing.Sound s.bumps s.workerEpoch s.capture s.service ring
  seen : s.service.Seen
  audio : s.audio.Within s.Fresh around.resampling
  mixes : ∀ m ∈ s.mixes, m.Fenced

theorem onRing_map {action : AudioRing.Action (StampedBlock V)} {after : FencedTap V → FencedTap V}
    (taken : (s.onRing action).map after = some next) :
    ∃ ring ring', s.ring = some ring ∧ AudioRing.step captureBlocks ring action = some ring' ∧
      next = after { s with ring := some ring' } := by
  obtain ⟨_, worked, rfl⟩ := Option.map_eq_some_iff.mp taken
  obtain ⟨ring, present, moved⟩ := Option.bind_eq_some_iff.mp worked
  obtain ⟨ring', step, rfl⟩ := Option.map_eq_some_iff.mp moved
  exact ⟨ring, ring', present, step, rfl⟩

namespace Sound

theorem bump (sound : Sound around s) : Sound around s.bump where
  counted := by
    change s.epoch + 1 = UInt64.ofNat (s.bumps + 1 + 1)
    rw [sound.counted, UInt64.ofNat_add (s.bumps + 1) 1]
    rfl
  quiet := sound.quiet
  stamp stamp found :=
    ⟨(sound.stamp stamp found).1, (sound.stamp stamp found).2.trans (Nat.le_succ _)⟩
  ring ring present := (sound.ring ring present).later (Nat.le_succ _)
  seen := sound.seen
  audio := sound.audio.imp fun _ fresh => ⟨fresh.1, fresh.2.1, fresh.2.2.trans (Nat.le_succ _)⟩
  mixes := sound.mixes

section Worker

variable {before after : Service}

/-- The worker goes on; the ring may be replaced. -/
theorem worker (sound : Sound around s) {ring : Option (CaptureRing V)}
    (worked : ∀ present, ring = some present →
      CaptureRing.Sound s.bumps s.workerEpoch s.capture after present)
    (seen : after.Seen) : Sound around { s with ring, service := after } where
  counted := sound.counted
  quiet := sound.quiet
  stamp := sound.stamp
  ring := worked
  seen := seen
  audio := sound.audio
  mixes := sound.mixes

theorem consume (sound : Sound around s) {ring : CaptureRing V}
    (worked : CaptureRing.Sound s.bumps s.workerEpoch s.capture after ring) (seen : after.Seen) :
    Sound around { s with ring := some ring, service := after } := by
  refine sound.worker ?_ seen
  rintro _ ⟨⟩
  exact worked

/-- What the ring knows of the worker stays as it is. -/
theorem move (sound : Sound around s) (here : s.service = before)
    (same : ∀ ring : CaptureRing V, before.Consumes s.workerEpoch ring →
      after.Consumes s.workerEpoch ring)
    (seen : after.Seen) : Sound around { s with service := after } :=
  sound.worker (fun ring present =>
    { sound.ring ring present with
      consumes := same ring (here ▸ (sound.ring ring present).consumes) }) seen

/-- The worker attaches the callback, or detaches it while it does not run. -/
theorem attach (sound : Sound around s) (here : s.service = before) {attached : Bool}
    (same : ∀ ring : CaptureRing V, before.Consumes s.workerEpoch ring →
      after.Consumes s.workerEpoch ring)
    (seen : after.Seen) (quiet : attached = false ∨ s.dead = true → s.capture = .idle) :
    Sound around { s with attached, service := after } :=
  let moved := sound.move here same seen
  ⟨moved.counted, quiet, moved.stamp, moved.ring, seen, moved.audio, moved.mixes⟩

/-- A reset forgets all audio, so that the epoch that is read with it holds for what comes. -/
theorem resetAudio (sound : Sound around s) (here : s.service = before)
    (same : ∀ ring : CaptureRing V, before.Consumes s.workerEpoch ring →
      after.Consumes s.epoch ring)
    (seen : after.Seen) : Sound around { s.resetAudio with service := after } where
  counted := sound.counted
  quiet := sound.quiet
  stamp := sound.stamp
  ring ring present :=
    let old := sound.ring ring present
    ⟨old.inv, old.authentic, old.produces, same ring (here ▸ old.consumes)⟩
  seen := seen
  audio := TracedTap.within_resetAudio _ _ _
  mixes := sound.mixes

end Worker

section Callback

variable {before after : Capture V}

theorem busy (sound : Sound around s) (calling : s.capture ≠ .idle) :
    ¬(s.attached = false ∨ s.dead = true) :=
  mt sound.quiet calling

/-- The callback goes on; the ring may be worked on. -/
theorem callback (sound : Sound around s) {ring : Option (CaptureRing V)}
    (quiet : s.attached = false ∨ s.dead = true → after = .idle)
    (worked : ∀ present, ring = some present →
      CaptureRing.Sound s.bumps s.workerEpoch after s.service present)
    (stamp : ∀ stamp, after.stamp = some stamp → stamp.Valid s.bumps) :
    Sound around { s with ring, capture := after } where
  counted := sound.counted
  quiet := quiet
  stamp := stamp
  ring := worked
  seen := sound.seen
  audio := sound.audio
  mixes := sound.mixes

theorem produce (sound : Sound around s) (running : ¬(s.attached = false ∨ s.dead = true))
    {ring : CaptureRing V}
    (worked : CaptureRing.Sound s.bumps s.workerEpoch after s.service ring)
    (stamp : ∀ stamp, after.stamp = some stamp → stamp.Valid s.bumps) :
    Sound around { s with ring := some ring, capture := after } := by
  refine sound.callback (fun gone => absurd gone running) ?_ stamp
  rintro _ ⟨⟩
  exact worked

/-- The callback goes on without a shared effect. -/
theorem turn (sound : Sound around s) (here : s.capture = before)
    (running : ¬(s.attached = false ∨ s.dead = true))
    (same : ∀ ring, before.Produces ring → after.Produces ring)
    (stamp : ∀ stamp, after.stamp = some stamp → stamp.Valid s.bumps) :
    Sound around { s with capture := after } :=
  sound.callback (fun gone => absurd gone running) (fun ring present =>
    { sound.ring ring present with
      produces := same ring (here ▸ (sound.ring ring present).produces) }) stamp

end Callback

theorem captureStep (sound : Sound around s) (taken : s.captureStep s.capture = some next) :
    Sound around next := by
  have valid := sound.stamp
  have produced := sound.ring
  have running := sound.busy
  generalize here : s.capture = place at taken valid produced running
  cases place with
  | idle => cases taken
  | monitored call =>
    cases taken
    split
    · exact sound.turn here (running nofun) (fun _ produces => produces) nofun
    · exact sound.turn here (running nofun) (fun _ produces => produces) nofun
  | removed call =>
    cases taken
    split
    · exact sound.turn here (running nofun) (fun _ produces => produces) nofun
    · exact sound.turn here (running nofun) (fun _ produces => produces) nofun
  | generation call =>
    cases taken
    refine sound.turn here (running nofun) (fun _ produces => produces) ?_
    rintro _ ⟨⟩
    exact ⟨sound.counted, le_rfl⟩
  | next call stamp start =>
    simp only [FencedTap.captureStep] at taken
    split at taken
    · obtain ⟨ring, ring', present, worked, rfl⟩ := onRing_map taken
      exact sound.produce (running nofun) ((produced ring present).loadWrite worked) valid
    · cases taken
      exact sound.turn here (running nofun) (fun _ produces => produces) nofun
  | claiming call stamp start =>
    obtain ⟨ring, ring', present, worked, rfl⟩ := onRing_map taken
    have claimed := (produced ring present).writeSlot worked
    dsimp only [Option.any_some]
    by_cases full : ring'.producer = .idle
    · rw [if_pos full] at claimed
      rw [if_pos (decide_eq_true full)]
      exact sound.produce (running nofun) claimed nofun
    · rw [if_neg full] at claimed
      rw [if_neg (by simpa using full)]
      exact sound.produce (running nofun) claimed valid
  | filling call stamp start =>
    obtain ⟨ring, ring', present, worked, rfl⟩ := onRing_map taken
    exact sound.produce (running nofun) ((produced ring present).store worked) valid
  | filled call stamp start =>
    obtain ⟨ring, ring', present, worked, rfl⟩ := onRing_map taken
    exact sound.produce (running nofun)
      ((produced ring present).publish (valid stamp rfl) worked) valid
  | published call stamp start =>
    obtain ⟨ring, ring', present, worked, rfl⟩ := onRing_map taken
    exact sound.produce (running nofun) ((produced ring present).loadSize worked) valid
  | sizing call stamp start =>
    obtain ⟨ring, ring', present, worked, rfl⟩ := onRing_map taken
    exact sound.produce (running nofun) ((produced ring present).size worked) valid

theorem unwant (sound : Sound around s) {before : Service} (here : s.service = before)
    (same : ∀ ring : CaptureRing V, before.Consumes s.workerEpoch ring → ring.consumer = .idle) :
    Sound around { s with service := s.unwant } := by
  rw [FencedTap.unwant]
  split
  · exact sound.move here same trivial
  · exact sound.move here same trivial

theorem finish_seen (call : ServiceCall) (active : Bool) : (finish call active).Seen := by
  rw [finish]
  split
  · assumption
  · trivial

theorem finish_consumes (call : ServiceCall) (active : Bool) (workerEpoch : UInt64)
    {ring : CaptureRing V} (idle : ring.consumer = .idle) :
    (finish call active).Consumes workerEpoch ring := by
  rw [finish]
  split <;> exact idle

theorem signal (sound : Sound around s) (monitored removed : Bool) (pending : Nat) :
    Sound around { s with monitored, removed, pending } :=
  ⟨sound.counted, sound.quiet, sound.stamp, sound.ring, sound.seen, sound.audio, sound.mixes⟩

theorem destroyed (sound : Sound around s) (calling : s.capture = .idle) (pending : Nat) :
    Sound around { s with dead := true, pending } :=
  ⟨sound.counted, fun _ => calling, sound.stamp, sound.ring, sound.seen, sound.audio, sound.mixes⟩

theorem initial [Zero V] (around : Surroundings V) (monitored : Bool) :
    Sound around (start monitored) where
  counted := rfl
  quiet _ := rfl
  stamp := nofun
  ring := nofun
  seen := trivial
  audio := ⟨fun _ marked => absurd rfl marked, nofun, nofun, nofun⟩
  mixes := nofun

section Audio

variable [Zero V]

/-- A block of the worker's epoch is placed. -/
theorem place [Mul V] (sound : Sound around s) {call : ServiceCall} {active : Bool}
    {processed cell : Nat} (here : s.service = .placing call active processed cell)
    {ring : CaptureRing V} (present : s.ring = some ring) :
    Sound around { s with
      audio := s.audio.place around.resampling around.blend call.rate call.cursor
        call.lookbehindNs (ring.ring.data cell).block
      service := .popping call active processed cell } where
  counted := sound.counted
  quiet := sound.quiet
  stamp := sound.stamp
  ring other found :=
    { sound.ring other found with
      consumes := (here ▸ (sound.ring other found).consumes :
        (Service.placing call active processed cell).Consumes s.workerEpoch other).1 }
  seen := trivial
  audio := by
    -- All samples of the block have its stamp, and the worker has compared it.
    have placing := sound.ring ring present
    rw [here] at placing
    obtain ⟨holding, current⟩ := placing.consumes
    obtain ⟨stamp, valid, same, within⟩ := placing.held holding
    refine sound.audio.place ?_ around.blend call.rate call.cursor call.lookbehindNs
    have fresh : s.Fresh stamp := ⟨same.symm.trans current, valid⟩
    exact ⟨fun c i origin member => within.samples c i origin member ▸ fresh,
      fun origin member => within.gain origin member ▸ fresh⟩
  mixes := sound.mixes

/-- What is mixed at the final check is from the epoch that is checked. -/
theorem mix [Add V] (sound : Sound around s) {call : ServiceCall} {active monitored removed : Bool}
    (here : s.service = .checkingEpoch call active monitored removed)
    (same : s.workerEpoch = s.epoch) :
    Sound around { s with
      audio := (s.audio.mix call.cursor returnFrames).1
      service := .idle
      mixes := s.mixes ++ [{
        call, active, monitored, removed, epoch := s.epoch, workerEpoch := s.workerEpoch,
        moment := s.bumps, added := (s.audio.mix call.cursor returnFrames).2 }] } where
  counted := sound.counted
  quiet := sound.quiet
  stamp := sound.stamp
  ring ring present :=
    { sound.ring ring present with
      consumes := (here ▸ (sound.ring ring present).consumes :
        (Service.checkingEpoch call active monitored removed).Consumes s.workerEpoch ring) }
  seen := trivial
  audio := sound.audio.mix _ _
  mixes := by
    have seen := sound.seen
    rw [here] at seen
    intro m member
    rcases List.mem_append.mp member with old | new
    · exact sound.mixes m old
    · rw [List.mem_singleton.mp new]
      refine ⟨seen.1, seen.2.1, seen.2.2, same, sound.counted, fun j apart => ?_⟩
      exact (sound.audio.mix_added call.cursor returnFrames j apart).imp fun _ fresh =>
        ⟨fresh.1.trans same, fresh.2⟩

variable [Add V] [Mul V]

/-- The worker finds a block, or leaves the loop. -/
theorem front (sound : Sound around s) {call : ServiceCall} {active : Bool} {processed : Nat}
    (here : s.service = .fronting call active processed) {answers : SourceAnswers}
    (taken : s.serviceStep around answers (.fronting call active processed) = some next) :
    Sound around next := by
  have consumed := sound.ring
  rw [here] at consumed
  obtain ⟨_, read, rest⟩ := Option.bind_eq_some_iff.mp taken
  obtain ⟨ring, present, moved⟩ := Option.bind_eq_some_iff.mp read
  obtain ⟨ring', worked, rfl⟩ := Option.map_eq_some_iff.mp moved
  rcases (consumed ring present).front worked with ⟨idle, empty⟩ | ⟨cell, holding, found⟩
  · simp only [Option.map_some, idle, Option.some.injEq] at rest
    cases rest
    exact sound.consume (empty _ (finish_consumes call active _ idle)) (finish_seen call active)
  · simp only [Option.map_some, holding] at rest
    split at rest
    · obtain ⟨ring, ring'', same, left, rfl⟩ := onRing_map rest
      cases same
      exact sound.consume (found.leave left (finish_consumes call active _))
        (finish_seen call active)
    · cases rest
      exact sound.consume found trivial

/-- Only a block of the worker's epoch is kept. -/
theorem judge (sound : Sound around s) {call : ServiceCall} {active : Bool}
    {processed cell : Nat} (here : s.service = .judging call active processed cell)
    {answers : SourceAnswers}
    (taken : s.serviceStep around answers (.judging call active processed cell) = some next) :
    Sound around next := by
  have consumed := sound.ring
  rw [here] at consumed
  obtain ⟨ring, present, rfl⟩ := Option.map_eq_some_iff.mp taken
  dsimp only
  split
  · exact sound.move here (fun _ holding => holding) trivial
  · rename_i kept
    refine sound.worker (fun other found => ?_) trivial
    cases present.symm.trans found
    exact { sound.ring ring present with
      consumes := ⟨(consumed ring present).consumes, not_not.mp (mt .inl kept)⟩ }

theorem serviceStep (sound : Sound around s) {answers : SourceAnswers}
    (taken : s.serviceStep around answers s.service = some next) : Sound around next := by
  have seen := sound.seen
  have consumed := sound.ring
  generalize here : s.service = place at taken seen consumed
  cases place with
  | idle => cases taken
  | entering call =>
    cases taken
    split
    · split
      · exact sound.move here (fun _ idle => idle) trivial
      · exact sound.unwant here fun _ idle => idle
    · exact sound.move here (fun _ idle => idle) trivial
  | wantsMonitored call =>
    cases taken
    split
    · exact sound.move here (fun _ idle => idle) trivial
    · exact sound.unwant here fun _ idle => idle
  | wantsRemoved call =>
    cases taken
    split
    · exact sound.unwant here fun _ idle => idle
    · exact sound.move here (fun _ idle => idle) trivial
  | wantsDead call =>
    cases taken
    split
    · exact sound.unwant here fun _ idle => idle
    · exact sound.move here (fun _ idle => idle) trivial
  | detaching =>
    simp only [FencedTap.serviceStep] at taken
    split at taken
    · split at taken
      · rename_i calling
        cases taken
        exact sound.attach here (fun _ idle => idle) trivial fun _ => calling
      · cases taken
    · cases taken
      exact sound.move here (fun _ idle => idle) trivial
  | detachingDead =>
    cases taken
    refine sound.attach here (fun _ idle => idle) trivial fun gone => sound.quiet ?_
    rcases gone with detached | dead
    · exact (Bool.and_eq_false_iff.mp detached).imp_right (Bool.not_eq_false' _).mp
    · exact .inr dead
  | unwanted =>
    cases taken
    have reset : Sound around { s.resetAudio with service := .idle } :=
      sound.resetAudio here (fun _ idle => idle) trivial
    split
    · exact reset
    · exact reset.worker nofun trivial
  | upgrading call =>
    simp only [FencedTap.serviceStep] at taken
    split at taken
    · cases taken
      exact sound.move here (fun _ idle => idle) trivial
    · split at taken
      · cases taken
        exact sound.move here (fun _ idle => idle) trivial
      · rename_i detached
        cases taken
        -- No callback runs yet, so none holds a cell of the ring that is replaced.
        have quiet := sound.quiet (.inl (Bool.not_eq_true _ ▸ detached))
        exact sound.consume (.initial around.blank quiet rfl) trivial
  | counting call =>
    cases taken
    exact sound.bump.move here (fun _ idle => idle) trivial
  | renewing call =>
    cases taken
    exact sound.resetAudio here (fun _ idle => idle) trivial
  | attaching call =>
    cases taken
    refine sound.attach here (fun _ idle => idle) trivial fun gone => sound.quiet (.inr ?_)
    simpa using gone
  | activity call =>
    cases taken
    exact sound.move here (fun _ idle => idle) trivial
  | comparing call active =>
    cases taken
    split
    · exact sound.move here (fun _ idle => idle) trivial
    · exact sound.move here (fun _ idle => idle) trivial
  | stale call active =>
    cases taken
    exact sound.resetAudio here (fun _ idle => idle) trivial
  | rating call active =>
    simp only [FencedTap.serviceStep] at taken
    cases taken
    split
    · exact sound.resetAudio here (fun _ idle => idle) trivial
    · exact sound.move here (fun _ idle => idle) trivial
  | next call active processed =>
    obtain ⟨ring, ring', present, worked, rfl⟩ := onRing_map taken
    exact sound.consume ((consumed ring present).loadRead worked) trivial
  | fronting call active processed => exact sound.front here taken
  | judging call active processed cell => exact sound.judge here taken
  | placing call active processed cell =>
    obtain ⟨ring, present, rfl⟩ := Option.map_eq_some_iff.mp taken
    exact sound.place here present
  | popping call active processed cell =>
    obtain ⟨ring, ring', present, worked, rfl⟩ := onRing_map taken
    exact sound.consume ((consumed ring present).pop worked) trivial
  | checkingMonitored call active =>
    cases taken
    split
    · exact sound.move here (fun _ idle => idle) ⟨seen, ‹_›⟩
    · exact sound.move here (fun _ idle => idle) trivial
  | checkingRemoved call active monitored =>
    cases taken
    split
    · exact sound.move here (fun _ idle => idle) trivial
    · exact sound.move here (fun _ idle => idle) ⟨seen.1, seen.2, Bool.eq_false_iff.mpr ‹_›⟩
  | checkingEpoch call active monitored removed =>
    simp only [FencedTap.serviceStep] at taken
    split at taken
    · rename_i same
      cases taken
      exact sound.mix here same
    · cases taken
      exact sound.move here (fun _ idle => idle) trivial
  | restarting =>
    cases taken
    exact sound.resetAudio here (fun _ idle => idle) trivial

theorem step (sound : Sound around s) {label : Label V}
    (taken : s.step around label = some next) : Sound around next := by
  cases label with
  | monitoring enabled =>
    cases taken
    exact sound.signal enabled s.removed _
  | deactivate =>
    cases taken
    exact sound.bump
  | remove =>
    cases taken
    exact sound.signal s.monitored true _
  | destroy =>
    simp only [FencedTap.step] at taken
    split at taken
    · rename_i calling
      cases taken
      exact sound.destroyed calling _
    · cases taken
  | count =>
    obtain ⟨_, same⟩ := Option.ite_none_right_eq_some.mp taken
    cases same
    exact sound.bump.signal s.monitored s.removed _
  | capture call =>
    simp only [FencedTap.step] at taken
    split at taken
    · rename_i calling
      obtain ⟨⟨attached, lives⟩, same⟩ := Option.ite_none_right_eq_some.mp taken
      have running : ¬(s.attached = false ∨ s.dead = true) := by simp [attached, lives]
      cases same
      split
      · exact sound.turn calling running (fun _ idle => idle) nofun
      · exact sound.turn calling running (fun _ idle => idle) nofun
    · cases taken
  | captureStep => exact sound.captureStep taken
  | service call =>
    simp only [FencedTap.step] at taken
    split at taken
    · rename_i idle
      cases taken
      exact sound.move idle (fun _ idle => idle) trivial
    · cases taken
  | restart =>
    simp only [FencedTap.step] at taken
    split at taken
    · rename_i idle
      cases taken
      exact sound.move idle (fun _ idle => idle) trivial
    · cases taken
  | serviceStep answers => exact sound.serviceStep taken

end Audio

end Sound

end FencedTap

/-- A stamp of the same epoch was read after the last count, if fewer than `2 ^ 64` have been
counted since. -/
theorem Stamp.Valid.moment_eq {stamp : Stamp} {bumps : Nat} (valid : stamp.Valid bumps)
    (same : stamp.epoch = UInt64.ofNat (bumps + 1)) (few : bumps < stamp.moment + 2 ^ 64) :
    stamp.moment = bumps := by
  rw [valid.1, ← UInt64.toNat_inj, UInt64.toNat_ofNat', UInt64.toNat_ofNat'] at same
  have later := valid.2
  omega

/-- Whatever the interleaving of the signals, the callback and the worker: a packet that a source
is mixed into was checked, and all of it is of the epoch that the check saw. -/
theorem epoch_fence {V : Type*} [Zero V] [Add V] [Mul V] (around : FencedTap.Surroundings V)
    (monitored : Bool) (labels : List (FencedTap.Label V)) (s : FencedTap V)
    (ran : run (FencedTap.step around) (FencedTap.start monitored) labels = some s)
    (m : Mixed V) (mixed : m ∈ s.mixes) :
    m.active = true ∧ m.monitored = true ∧ m.removed = false ∧ m.workerEpoch = m.epoch ∧
      ∀ j : Nat, m.call.cursor + (j / 2 : Nat) ≠ -1 →
        ∀ origin ∈ (m.added j).origins, origin.epoch = m.epoch ∧ origin.moment ≤ m.moment ∧
          (m.moment < origin.moment + 2 ^ 64 → origin.moment = m.moment) := by
  have sound : s.Sound around :=
    run_invariant (fun _ _ _ before taken => before.step taken) (.initial around monitored) ran
  have fenced := sound.mixes m mixed
  refine ⟨fenced.active, fenced.monitored, fenced.removed, fenced.same, ?_⟩
  intro j apart origin member
  obtain ⟨same, valid⟩ := fenced.added j apart origin member
  exact ⟨same, valid.2, valid.moment_eq (same.trans fenced.counted)⟩

namespace FencedTap

/-- A resampler that passes on the block that it reads last, for whole numbers. -/
def plain : Surroundings ℤ where
  resampling :=
    { creates := fun _ _ _ => true
      output := fun _ _ _ blocks => blocks.getLast?.map fun block =>
        { frames := block.frames, output := fun j => block.samples (j % 2) (j / 2), offset := 0 } }
  blend left _ _ := left
  blank :=
    { block :=
        { samples := fun _ _ => 0, timestamp := 0, arrival := 0, syncNs := 0, rate := 0, frames := 0
          speakers := 0, gain := 0 }
      epoch := 0 }

/-- The callback of one stereo frame, which belongs at time 15615. -/
def calling (steps : Nat) : List (Label ℤ) :=
  .capture
      { callback :=
          { data := fun _ _ => 7, frames := 1, timestamp := 325312500, arrival := 325312500
            syncNs := 0, speakers := 2, gain := 1 }
        rate := 48000 } ::
    List.replicate steps .captureStep

def serving (cursor : Int) (steps : Nat) : List (Label ℤ) :=
  .service { enabled := true, rate := 48000, cursor, lookbehindNs := 0 } ::
    List.replicate steps (.serviceStep {})

end FencedTap

section Runs

open FencedTap

theorem epoch_fence_once : ∃ s m, run (FencedTap.step plain) (.start true)
      (serving 15600 16 ++ calling 10 ++ serving 15600 18) = some s ∧ m ∈ s.mixes ∧
    (∃ origin, origin ∈ (m.added 30).origins) ∧
    ∀ origin ∈ (m.added 30).origins, origin.epoch = m.epoch := by
  have found : (run (FencedTap.step plain) (.start true)
      (serving 15600 16 ++ calling 10 ++ serving 15600 18)).any (fun s => s.mixes.any fun m =>
        m.call.cursor = 15600 ∧ (m.added 30).origins ≠ []) = true := by
    decide +kernel
  obtain ⟨s, ran, mixes⟩ := (Option.any_eq_true _ _).mp found
  obtain ⟨m, member, facts⟩ := List.any_eq_true.mp mixes
  obtain ⟨cursor, added⟩ := of_decide_eq_true facts
  obtain ⟨_, _, _, _, fenced⟩ := epoch_fence plain true _ s ran m member
  refine ⟨s, m, ran, member, List.exists_mem_of_ne_nil _ added, fun origin inside => ?_⟩
  exact (fenced 30 (by simp [cursor]) origin inside).1

theorem run_deactivate {V : Type*} [Zero V] [Add V] [Mul V] (around : Surroundings V)
    (s : FencedTap V) (count : Nat) :
    run (FencedTap.step around) s (List.replicate count .deactivate) =
      some { s with epoch := s.epoch + UInt64.ofNat count, bumps := s.bumps + count } := by
  induction count generalizing s with
  | zero => simp
  | succ count ih =>
    rw [List.replicate_succ, run_cons]
    refine ⟨s.bump, rfl, (ih s.bump).trans ?_⟩
    simp only [FencedTap.bump, Option.some.injEq, FencedTap.mk.injEq, true_and, and_true]
    constructor
    · rw [UInt64.ofNat_add count 1, UInt64.add_comm (UInt64.ofNat count), ← UInt64.add_assoc]
      rfl
    · omega

/-- A packet that starts at -128 reaches the time that marks an empty cell, and adds the frame that
was cleared from there. An epoch also returns after `2 ^ 64` counts: a callback that read it before
the worker saw the next one is heard then. -/
theorem epoch_fence_fails :
    (∃ s, run (FencedTap.step plain) (.start true)
        (serving 15600 16 ++ calling 10 ++ serving 15600 18 ++ [.deactivate] ++
          serving (-128) 14) = some s ∧
      ∃ m ∈ s.mixes, ∃ origin ∈ (m.added 254).origins, origin.epoch ≠ m.epoch) ∧
    ∃ s, run (FencedTap.step plain) (.start true)
        (serving 15600 16 ++ calling 3 ++ [.deactivate] ++ serving 15600 14 ++
          List.replicate (2 ^ 64 - 1) .deactivate ++
          (List.replicate 7 .captureStep ++ serving 15600 19)) = some s ∧
      ∃ seen ∈ s.mixes, ∃ m ∈ s.mixes, ∃ origin ∈ (m.added 30).origins,
        origin.moment < seen.moment ∧ seen.moment < m.moment := by
  constructor
  · have found : (run (FencedTap.step plain) (.start true)
        (serving 15600 16 ++ calling 10 ++ serving 15600 18 ++ [.deactivate] ++
          serving (-128) 14)).any (fun s => s.mixes.any fun m =>
            (m.added 254).origins.any fun origin => origin.epoch ≠ m.epoch) = true := by
      decide +kernel
    obtain ⟨s, ran, mixes⟩ := (Option.any_eq_true _ _).mp found
    obtain ⟨m, member, added⟩ := List.any_eq_true.mp mixes
    obtain ⟨origin, inside, other⟩ := List.any_eq_true.mp added
    exact ⟨s, ran, m, member, origin, inside, of_decide_eq_true other⟩
  · have found : ((run (FencedTap.step plain) (.start true)
        (serving 15600 16 ++ calling 3 ++ [.deactivate] ++ serving 15600 14)).bind fun s =>
          run (FencedTap.step plain)
            { s with
              epoch := s.epoch + UInt64.ofNat (2 ^ 64 - 1)
              bumps := s.bumps + (2 ^ 64 - 1) }
            (List.replicate 7 .captureStep ++ serving 15600 19)).any (fun s =>
              s.mixes.any fun seen => s.mixes.any fun m => (m.added 30).origins.any fun origin =>
                origin.moment < seen.moment ∧ seen.moment < m.moment) = true := by
      decide +kernel
    obtain ⟨s, ran, mixes⟩ := (Option.any_eq_true _ _).mp found
    obtain ⟨middle, first, last⟩ := Option.bind_eq_some_iff.mp ran
    obtain ⟨seen, before, later⟩ := List.any_eq_true.mp mixes
    obtain ⟨m, member, added⟩ := List.any_eq_true.mp later
    obtain ⟨origin, inside, order⟩ := List.any_eq_true.mp added
    have whole := run_append.mpr ⟨_, run_append.mpr ⟨middle, first, run_deactivate _ _ _⟩, last⟩
    exact ⟨s, whole, seen, before, m, member, origin, inside, of_decide_eq_true order⟩

end Runs

end VbanStream
