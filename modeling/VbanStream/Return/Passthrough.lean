import VbanStream.Return.MonitorReturn

namespace VbanStream

open Library

section Stamps

theorem nsToFrames_natCast (ns : Nat) (rate : UInt32) :
    nsToFrames ns rate = ((ns * rate.toNat / 1000000000 : Nat) : Int) := by
  have whole := Nat.div_add_mod ns 1000000000
  have split : ns * rate.toNat / 1000000000 =
      ns / 1000000000 * rate.toNat + ns % 1000000000 * rate.toNat / 1000000000 := by
    conv_lhs => rw [← whole]
    rw [Nat.add_mul, Nat.mul_assoc, Nat.mul_add_div (by decide)]
  rw [split]
  rfl

theorem toInt64_of_small {time : UInt64} (small : time.toNat < 2 ^ 63) :
    time.toInt64.toInt = time.toNat := by
  rw [Int64.toInt, UInt64.toBitVec_toInt64, BitVec.toInt_eq_toNat_of_lt, UInt64.toNat_toBitVec]
  rw [UInt64.toNat_toBitVec]
  omega

/-- Two conversions to nanoseconds lose less than a frame when they are converted back. -/
theorem frames_of_stamp (start before inside : Nat) {rate : Nat} (positive : 0 < rate)
    (small : rate ≤ 1000000) :
    let stamp := start + nanoseconds before rate + nanoseconds inside rate
    stamp * rate / 1000000000 ≤ start * rate / 1000000000 + (before + inside) ∧
      start * rate / 1000000000 + (before + inside) ≤ stamp * rate / 1000000000 + 1 := by
  have low (frames : Nat) : nanoseconds frames rate * rate ≤ frames * 1000000000 :=
    Nat.div_mul_le_self ..
  have high (frames : Nat) : frames * 1000000000 < nanoseconds frames rate * rate + rate := by
    rw [← Nat.succ_mul]
    exact Nat.lt_mul_of_div_lt (Nat.lt_succ_self _) positive
  have first := low before
  have second := low inside
  have third := high before
  have fourth := high inside
  simp only [Nat.add_mul]
  omega

end Stamps

namespace MonitorClock

/-- A direct clock whose next position is `target`, and that expects a timestamp there or one
frame before. -/
structure InStep (clock : MonitorClock) (target : Int) : Prop where
  initialized : clock.initialized = true
  direct : clock.offset = 0
  next : clock.next = target
  behind : target - 1 ≤ clock.expectedTimestamp
  ahead : clock.expectedTimestamp ≤ target

/-- A block is placed at the target, in its own length. -/
structure Exact (answer : MonitorClock × Int) (target : Int) (frames : UInt32) : Prop where
  position : answer.2 = target
  adjusted : answer.1.adjustedFrames = frames
  steady : answer.1.discontinuity = false
  inStep : InStep answer.1 (target + frames.toNat)

variable {clock : MonitorClock} {request : Request} {rate : UInt32} {target : Int}

theorem correct_exact (direct : clock.offset = 0) (audible : 1000 ≤ rate.toNat) {ts : Int}
    (close : |ts - clock.next| ≤ 1) (frames : UInt32) : clock.correct ts frames rate = clock := by
  have hundredth : (rate / 100).toNat = rate.toNat / 100 := UInt32.toNat_div ..
  have error : ts + clock.offset - clock.next = ts - clock.next := by rw [direct, Int.add_zero]
  simp only [correct, error]
  rw [if_neg (by omega), if_neg (fun both => absurd close (not_le.mpr both.2))]

/-- The last two stages of a call leave an exact clock alone. -/
theorem exact_of_anchored (anchored : MonitorClock) (initialized : anchored.initialized = true)
    (direct : anchored.offset = 0) (steady : anchored.discontinuity = false)
    (asked : anchored.adjustedFrames = request.frames) (next : anchored.next = target)
    (audible : 1000 ≤ rate.toNat) (now : Int) (behind : target - 1 ≤ request.stamp rate)
    (ahead : request.stamp rate ≤ target) :
    let placed := (anchored.follow (request.stamp rate) now request.frames rate).correct
      (request.stamp rate) request.frames rate
    Exact ({ placed with
      next := placed.next + placed.adjustedFrames.toNat
      expectedTimestamp := request.stamp rate + request.frames.toNat }, placed.next)
      target request.frames := by
  have close : |request.stamp rate - anchored.next| ≤ 1 := by
    rw [next, abs_le]
    omega
  rw [follow_direct direct, correct_exact direct audible close]
  refine ⟨next, asked, steady, initialized, direct, ?_, ?_, ?_⟩
  · show anchored.next + (anchored.adjustedFrames.toNat : Int) = _
    rw [next, asked]
  · show target + request.frames.toNat - 1 ≤ request.stamp rate + request.frames.toNat
    omega
  · show request.stamp rate + request.frames.toNat ≤ target + request.frames.toNat
    omega

theorem InStep.position (inStep : InStep clock target) (audible : 1000 ≤ rate.toNat)
    (behind : target - 1 ≤ request.stamp rate) (ahead : request.stamp rate ≤ target) :
    Exact (clock.position request.timestamp request.arrival request.frames rate) target
      request.frames := by
  have half : (rate / 2).toNat = rate.toNat / 2 := UInt32.toNat_div ..
  have low := inStep.behind
  have high := inStep.ahead
  have expected : |request.stamp rate - clock.expectedTimestamp| ≤ ((rate / 2).toNat : Int) := by
    rw [half, abs_le]
    omega
  have anchored := anchor_expected
    { clock with adjustedFrames := request.frames, discontinuity := false } inStep.initialized
    (request.stamp rate) (nsToFrames request.arrival.toInt64.toInt rate) rate expected
  have precise := exact_of_anchored
    { clock with adjustedFrames := request.frames, discontinuity := false }
    inStep.initialized inStep.direct rfl rfl inStep.next audible
    (nsToFrames request.arrival.toInt64.toInt rate) behind ahead
  rw [← anchored] at precise
  exact precise

theorem position_fresh (fresh : clock.initialized = false) (direct : request.Direct rate)
    (audible : 1000 ≤ rate.toNat) :
    Exact (clock.position request.timestamp request.arrival request.frames rate)
      (request.stamp rate) request.frames := by
  have anchored := anchor_fresh fresh request direct
  have placed : (({ clock with adjustedFrames := request.frames, discontinuity := false } :
      MonitorClock).anchor (request.stamp rate)
        (nsToFrames request.arrival.toInt64.toInt rate) rate).next = request.stamp rate := by
    rw [anchored]
  have precise := exact_of_anchored _ (by rw [anchored]) (by rw [anchored]) (by rw [anchored])
    (by rw [anchored]) placed audible (nsToFrames request.arrival.toInt64.toInt rate)
    (Int.sub_le_self _ (by decide)) le_rfl
  exact precise

end MonitorClock

/-- The stereo frames of a block, in order. -/
def MonitorBlock.stereo {S : Type*} (block : MonitorBlock S) : List (S × S) :=
  (List.range block.frames.toNat).map fun i => (block.samples 0 i, block.samples 1 i)

def Callback.stereo {S : Type*} (callback : Callback S) : List (S × S) :=
  (List.range callback.frames.toNat).map fun i => (callback.data 0 i, callback.data 1 i)

/-- The frames of a placement with their positions. -/
def Placement.stereo {S : Type*} (placement : Placement S) : List (Int × S × S) :=
  (List.range placement.frames.toNat).map fun (i : Nat) =>
    (placement.position + i, placement.pcm (i * 2), placement.pcm (i * 2 + 1))

/-- Frames at the positions from `start` on. -/
def numbered {S : Type*} (start : Int) (before : Nat) (frames : List (S × S)) :
    List (Int × S × S) :=
  (frames.zipIdx before).map fun frame => (start + frame.2, frame.1)

/-- A resampler between equal rates: no delay, and the samples as they are. -/
def identity {S : Type*} : Resampler S := fun block =>
  some ⟨block.frames, fun j => block.samples (j % 2) (j / 2), 0⟩

namespace Tap

open MonitorClock

variable {S : Type*}
  {create : UInt32 → UInt32 → UInt8 → Option (Resampler S)} {blend : S → S → ℚ → S}
  {rate : UInt32} {speakers : UInt8} {cursor lookbehindNs target : Int} {tap : Tap S}
  {block : MonitorBlock S}

/-- A tap in the format of its blocks, whose clock is in step. -/
structure Ready (tap : Tap S) (rate : UInt32) (speakers : UInt8) (target : Int) : Prop where
  resampler : tap.resampler = some identity
  inputRate : tap.inputRate = rate
  outputRate : tap.outputRate = rate
  speakers : tap.speakers = speakers
  inStep : InStep tap.clock target

/-- A block in that format, without a sync offset. -/
structure Plain (block : MonitorBlock S) (rate : UInt32) (speakers : UInt8) : Prop where
  rate : block.rate = rate
  speakers : block.speakers = speakers
  undelayed : block.syncNs = 0
  nonempty : 0 < block.frames.toNat

/-- What the clock of a tap is asked for a block. -/
def request (block : MonitorBlock S) : Request := ⟨block.timestamp, block.arrival, block.frames⟩

/-- The frames of the block are placed from `target` on, and nothing is counted. -/
structure Passed (tap : Tap S) (result : Tap S × Option (Placement S)) (block : MonitorBlock S)
    (rate : UInt32) (speakers : UInt8) (target : Int) : Prop where
  ready : Ready result.1 rate speakers (target + block.frames.toNat)
  discontinuities : result.1.discontinuities = tap.discontinuities
  clockCorrections : result.1.clockCorrections = tap.clockCorrections
  placed : result.2 = some ⟨target, fun j => block.samples (j % 2) (j / 2), block.frames⟩

theorem Plain.frames_ne (plain : Plain block rate speakers) : block.frames ≠ 0 := by
  intro none
  have nonempty := plain.nonempty
  rw [none] at nonempty
  exact absurd nonempty (by decide)

theorem Ready.tune (ready : Ready tap rate speakers target)
    (create : UInt32 → UInt32 → UInt8 → Option (Resampler S)) (plain : Plain block rate speakers) :
    tap.tune create block rate = tap := by
  rw [Tap.tune, if_neg]
  simp [ready.resampler, ready.inputRate, ready.outputRate, ready.speakers, plain.rate,
    plain.speakers]

section Placing

variable [Zero S] [Mul S]

theorem put_exact (tap : Tap S) (blend : S → S → ℚ → S) (cursor lookbehindNs : Int)
    (plain : Plain block rate speakers)
    (precise : Exact (tap.clock.position block.timestamp block.arrival block.frames rate) target
      block.frames) (output : Nat → S) :
    let result := tap.put blend block ⟨block.frames, output, 0⟩ rate cursor lookbehindNs
    result.2 = ⟨target, output, block.frames⟩ ∧
      InStep result.1.clock (target + block.frames.toNat) ∧
      result.1.discontinuities = tap.discontinuities ∧
      result.1.clockCorrections = tap.clockCorrections := by
  have undelayed : nsToFrames (clamp block.syncNs (-20000000000) 20000000000 -
      (0 : UInt64).toInt64.toInt) rate = 0 := by
    rw [plain.undelayed]
    simp [clamp, nsToFrames]
  unfold put
  generalize tap.clock.position block.timestamp block.arrival block.frames rate = answer
    at precise ⊢
  obtain ⟨clock, position⟩ := answer
  obtain ⟨here, adjusted, steady, inStep⟩ := precise
  simp only at here adjusted steady inStep
  subst here
  simp only [undelayed, steady, adjusted, StereoRetimer.process_same, Bool.false_eq_true,
    if_false, ne_eq, not_true, Int.add_zero, true_and]
  exact ⟨inStep, rfl⟩

/-- A block goes through a tap that has its format. -/
theorem place_tuned (plain : Plain block rate speakers)
    (tuned : (tap.tune create block rate).resampler = some identity)
    (inputRate : (tap.tune create block rate).inputRate = rate)
    (outputRate : (tap.tune create block rate).outputRate = rate)
    (format : (tap.tune create block rate).speakers = speakers)
    (discontinuities : (tap.tune create block rate).discontinuities = tap.discontinuities)
    (corrections : (tap.tune create block rate).clockCorrections = tap.clockCorrections)
    (precise : Exact ((tap.tune create block rate).clock.position block.timestamp block.arrival
      block.frames rate) target block.frames) :
    Passed tap (tap.place create blend rate cursor lookbehindNs block) block rate speakers
      target := by
  obtain ⟨placed, inStep, same, uncorrected⟩ := put_exact (tap.tune create block rate) blend
    cursor lookbehindNs plain precise fun j => block.samples (j % 2) (j / 2)
  simp only [place, tuned, identity, Option.bind_some, if_neg plain.frames_ne]
  refine ⟨⟨?_, inputRate, outputRate, format, inStep⟩, ?_, ?_, ?_⟩
  · exact tuned
  · exact same.trans discontinuities
  · exact uncorrected.trans corrections
  · exact congrArg some placed

/-- A later block of the same format. -/
theorem Ready.place (ready : Ready tap rate speakers target)
    (create : UInt32 → UInt32 → UInt8 → Option (Resampler S)) (blend : S → S → ℚ → S)
    (cursor lookbehindNs : Int) (plain : Plain block rate speakers) (audible : 1000 ≤ rate.toNat)
    (behind : target - 1 ≤ (request block).stamp rate)
    (ahead : (request block).stamp rate ≤ target) :
    Passed tap (tap.place create blend rate cursor lookbehindNs block) block rate speakers
      target := by
  have same := ready.tune create plain
  have precise := ready.inStep.position audible behind ahead
  apply place_tuned plain
  · rw [same, ready.resampler]
  · rw [same, ready.inputRate]
  · rw [same, ready.outputRate]
  · rw [same, ready.speakers]
  · rw [same]
  · rw [same]
  · rw [same]
    exact precise

/-- The first block makes the resampler and sets the clock. -/
theorem place_first (fresh : tap.resampler = none) (blend : S → S → ℚ → S)
    (cursor lookbehindNs : Int) (plain : Plain block rate speakers)
    (made : create rate rate speakers = some identity) (audible : 1000 ≤ rate.toNat)
    (direct : (request block).Direct rate) :
    Passed tap (tap.place create blend rate cursor lookbehindNs block) block rate speakers
      ((request block).stamp rate) := by
  have tuned : tap.tune create block rate = { tap with
      resampler := some identity
      inputRate := rate
      outputRate := rate
      speakers
      timeline := tap.timeline.clear
      clock := {}
      retimer := tap.retimer.reset } := by
    rw [tune, if_pos (by simp [fresh]), plain.rate, plain.speakers, made]
    rfl
  have precise :=
    position_fresh (show ({} : MonitorClock).initialized = false from rfl) direct audible
  apply place_tuned plain
  · rw [tuned]
  · rw [tuned]
  · rw [tuned]
  · rw [tuned]
  · rw [tuned]
  · rw [tuned]
  · rw [tuned]
    exact precise

end Placing

section Sequences

variable {start : UInt64} {before : Nat} {blocks : List (MonitorBlock S)}

/-- The timestamp of the block that starts at frame `before` of the source: that of its
callback, and its offset inside. -/
def Stamped (start : UInt64) (rate : UInt32) (before : Nat) (block : MonitorBlock S) : Prop :=
  ∃ earlier inside : Nat, before = earlier + inside ∧
    block.timestamp = start + framesToNs (UInt64.ofNat earlier) rate +
      framesToNs (UInt64.ofNat inside) rate

/-- Blocks that follow each other without a gap, from frame `before` on. -/
inductive Sequence (start : UInt64) (rate : UInt32) (speakers : UInt8) :
    Nat → List (MonitorBlock S) → Prop where
  | nil {before : Nat} : Sequence start rate speakers before []
  | cons {before : Nat} {block : MonitorBlock S} {rest : List (MonitorBlock S)}
      (stamped : Stamped start rate before block) (plain : Plain block rate speakers)
      (short : block.frames.toNat ≤ 256)
      (onward : Sequence start rate speakers (before + block.frames.toNat) rest) :
      Sequence start rate speakers before (block :: rest)

theorem framesToNs_ofNat {frames : Nat} (positive : 0 < rate.toNat) (small : rate.toNat ≤ 1000000)
    (fits : nanoseconds frames rate.toNat < 2 ^ 64) :
    (framesToNs (UInt64.ofNat frames) rate).toNat = nanoseconds frames rate.toNat := by
  have bounded : frames * 1000000000 < 2 ^ 64 * rate.toNat := by
    rw [nanoseconds] at fits
    exact (Nat.div_lt_iff_lt_mul positive).mp fits
  have whole : (UInt64.ofNat frames).toNat = frames := by
    rw [UInt64.toNat_ofNat']
    exact Nat.mod_eq_of_lt (by omega)
  rw [framesToNs_toNat small (by rwa [whole]), whole]

/-- A timestamp in frames is where the block starts, or one frame before. -/
theorem Stamped.frames (stamped : Stamped start rate before block) (audible : 1000 ≤ rate.toNat)
    (small : rate.toNat ≤ 1000000) (fits : start.toNat + nanoseconds before rate.toNat < 2 ^ 64)
    (early : block.timestamp.toNat < 2 ^ 63) :
    start.toNat + nanoseconds before rate.toNat ≤ block.timestamp.toNat + 1 ∧
      nsToFrames start.toNat rate + before - 1 ≤ (request block).stamp rate ∧
      (request block).stamp rate ≤ nsToFrames start.toNat rate + before := by
  obtain ⟨earlier, inside, rfl, stamp⟩ := stamped
  have positive : 0 < rate.toNat := by omega
  have joined := nanoseconds_add earlier inside rate.toNat
  have close := nanoseconds_add_le earlier inside rate.toNat
  have time : block.timestamp.toNat = start.toNat + nanoseconds earlier rate.toNat +
      nanoseconds inside rate.toNat := by
    rw [stamp, UInt64.toNat_add, UInt64.toNat_add, framesToNs_ofNat positive small (by omega),
      framesToNs_ofNat positive small (by omega)]
    omega
  obtain ⟨high, low⟩ := frames_of_stamp start.toNat earlier inside positive small
  refine ⟨by omega, ?_, ?_⟩
  · rw [Request.stamp, request, toInt64_of_small early, time, nsToFrames_natCast,
      nsToFrames_natCast]
    omega
  · rw [Request.stamp, request, toInt64_of_small early, time, nsToFrames_natCast,
      nsToFrames_natCast]
    omega

theorem Stamped.first (stamped : Stamped start rate 0 block) : block.timestamp = start := by
  obtain ⟨earlier, inside, zero, stamp⟩ := stamped
  obtain ⟨rfl, rfl⟩ := Nat.add_eq_zero_iff.mp zero.symm
  have none : framesToNs (UInt64.ofNat 0) rate = 0 := by
    unfold framesToNs
    split
    · rfl
    · simp
  rw [stamp, none, UInt64.add_zero, UInt64.add_zero]

/-- What is still in range after a block whose own timestamp is. -/
theorem Stamped.room (audible : 1000 ≤ rate.toNat) (early : block.timestamp.toNat < 2 ^ 63)
    (near : start.toNat + nanoseconds before rate.toNat ≤ block.timestamp.toNat + 1)
    (short : block.frames.toNat ≤ 256) :
    start.toNat + nanoseconds (before + block.frames.toNat) rate.toNat < 2 ^ 64 := by
  have joined := nanoseconds_add_le before block.frames.toNat rate.toNat
  have long : nanoseconds block.frames.toNat rate.toNat ≤ 256000000 :=
    calc nanoseconds block.frames.toNat rate.toNat
        ≤ nanoseconds 256 rate.toNat := nanoseconds_mono short _
      _ ≤ 256 * 1000000000 / 1000 := Nat.div_le_div_left audible (by decide)
  omega

theorem numbered_append (origin : Int) (count : Nat) (first second : List (S × S)) :
    numbered origin count (first ++ second) =
      numbered origin count first ++ numbered origin (count + first.length) second := by
  rw [numbered, List.zipIdx_append, List.map_append]
  rfl

theorem stereo_placement (origin : Int) (count : Nat) (block : MonitorBlock S) :
    Placement.stereo ⟨origin + count, fun j => block.samples (j % 2) (j / 2), block.frames⟩ =
      numbered origin count block.stereo := by
  apply List.ext_getElem
  · simp [Placement.stereo, numbered, MonitorBlock.stereo]
  · intro i left right
    have odd : (i * 2 + 1) / 2 = i := by omega
    simp [Placement.stereo, numbered, MonitorBlock.stereo, odd, Int.add_assoc]

theorem stereo_length (block : MonitorBlock S) : block.stereo.length = block.frames.toNat := by
  simp [MonitorBlock.stereo]

/-- The frames of a block, followed by those of the blocks after it. -/
theorem Passed.joined {result : Tap S × Option (Placement S)} {rest : List (MonitorBlock S)}
    {placements : List (Placement S)}
    (passed : Passed tap result block rate speakers (target + before))
    (heard : placements.flatMap Placement.stereo = numbered target (before + block.frames.toNat)
      (rest.flatMap MonitorBlock.stereo)) :
    (result.2.toList ++ placements).flatMap Placement.stereo =
      numbered target before ((block :: rest).flatMap MonitorBlock.stereo) := by
  rw [passed.placed, List.flatMap_append, heard, List.flatMap_cons, numbered_append, stereo_length,
    Option.toList_some, List.flatMap_singleton, stereo_placement]

variable [Zero S] [Mul S]

/-- Blocks in sequence are placed one after the other, and nothing is counted. -/
theorem Ready.serve (ready : Ready tap rate speakers (target + before))
    (origin : target = nsToFrames start.toNat rate) (audible : 1000 ≤ rate.toNat)
    (small : rate.toNat ≤ 1000000) (sequence : Sequence start rate speakers before blocks)
    (fits : start.toNat + nanoseconds before rate.toNat < 2 ^ 64)
    (early : ∀ block ∈ blocks, block.timestamp.toNat < 2 ^ 63) (turns : Nat → Int × Int)
    (turn : Nat) :
    let result := tap.serve create blend rate turns turn blocks
    Ready result.1 rate speakers
        (target + (before + (blocks.flatMap MonitorBlock.stereo).length : Nat)) ∧
      result.1.discontinuities = tap.discontinuities ∧
      result.1.clockCorrections = tap.clockCorrections ∧
      result.2.flatMap Placement.stereo =
        numbered target before (blocks.flatMap MonitorBlock.stereo) := by
  induction sequence generalizing tap turn with
  | nil => exact ⟨ready, rfl, rfl, rfl⟩
  | @cons before block rest stamped plain short onward ih =>
    have soon := early block (List.mem_cons_self ..)
    obtain ⟨near, behind, ahead⟩ := stamped.frames audible small fits soon
    rw [← origin] at behind ahead
    have passed := ready.place create blend (turns turn).1 (turns turn).2 plain audible behind
      ahead
    have again := passed.ready
    rw [Int.add_assoc, ← Nat.cast_add] at again
    obtain ⟨final, same, uncorrected, heard⟩ := ih again (Stamped.room audible soon near short)
      (fun other member => early other (List.mem_cons_of_mem _ member)) (turn + 1)
    refine ⟨?_, same.trans passed.discontinuities, uncorrected.trans passed.clockCorrections,
      passed.joined heard⟩
    rw [List.flatMap_cons, List.length_append, ← Nat.add_assoc, stereo_length]
    exact final

/-- The first block of a source sets the clock, and the others follow it. -/
theorem serve_first (fresh : tap.resampler = none) (blend : S → S → ℚ → S)
    (made : create rate rate speakers = some identity) (audible : 1000 ≤ rate.toNat)
    (small : rate.toNat ≤ 1000000)
    (sequence : Sequence start rate speakers 0 blocks)
    (early : ∀ block ∈ blocks, block.timestamp.toNat < 2 ^ 63)
    (direct : ∀ block ∈ blocks.head?, (request block).Direct rate) (turns : Nat → Int × Int) :
    let result := tap.serve create blend rate turns 0 blocks
    (blocks ≠ [] → Ready result.1 rate speakers
        (nsToFrames start.toNat rate + (blocks.flatMap MonitorBlock.stereo).length)) ∧
      result.1.discontinuities = tap.discontinuities ∧
      result.1.clockCorrections = tap.clockCorrections ∧
      result.2.flatMap Placement.stereo =
        numbered (nsToFrames start.toNat rate) 0 (blocks.flatMap MonitorBlock.stereo) := by
  cases sequence with
  | nil => exact ⟨fun some_block => absurd rfl some_block, rfl, rfl, rfl⟩
  | @cons _ block rest stamped plain short onward =>
    have soon := early block (List.mem_cons_self ..)
    have stamp : (request block).stamp rate = nsToFrames start.toNat rate + (0 : Nat) := by
      rw [Request.stamp, request, toInt64_of_small soon, stamped.first]
      simp
    have passed := place_first fresh blend (turns 0).1 (turns 0).2 plain made audible
      (direct block rfl)
    rw [stamp] at passed
    have again := passed.ready
    rw [Int.add_assoc, ← Nat.cast_add] at again
    have near : start.toNat + nanoseconds 0 rate.toNat ≤ block.timestamp.toNat + 1 := by
      rw [stamped.first, nanoseconds, Nat.zero_mul, Nat.zero_div]
      omega
    obtain ⟨final, same, uncorrected, heard⟩ := again.serve rfl audible small onward
      (Stamped.room audible soon near short)
      (fun other member => early other (List.mem_cons_of_mem _ member)) turns 1
    refine ⟨fun _ => ?_, same.trans passed.discontinuities,
      uncorrected.trans passed.clockCorrections, passed.joined heard⟩
    rw [Nat.zero_add] at final
    rw [List.flatMap_cons, List.length_append, stereo_length]
    exact final

end Sequences

end Tap

end VbanStream
