import VbanStream.Return.Passthrough
import VbanStream.Return.Provenance

namespace VbanStream

open Library

/-- A source that is passed on as it is: it counts its frames from a start time on, at the rate
of the output. -/
structure SteadySource where
  start : UInt64
  rate : UInt32
  speakers : UInt8
  lookbehindNs : Int
  audible : 1000 ≤ rate.toNat
  small : rate.toNat ≤ 1000000

namespace SteadySource

/-- The time of its first frame. -/
def origin (source : SteadySource) : Int := nsToFrames source.start.toNat source.rate

/-- The frames of its timeline. -/
def window (source : SteadySource) : Nat :=
  source.rate.toNat * Tap.capacitySeconds 0 source.lookbehindNs

theorem window_pos (source : SteadySource) : 0 < source.window :=
  Nat.mul_pos (Nat.lt_of_lt_of_le (by decide) source.audible) (Nat.lt_add_right _ Nat.one_pos)

end SteadySource

/-- A resampler between equal formats answers with the frames of the block that it reads last. -/
structure Resampling.Passes {V : Type*} (resampling : Resampling V) (source : SteadySource) :
    Prop where
  creates : resampling.creates source.rate source.rate source.speakers = true
  output : ∀ history block,
    resampling.output source.rate source.rate source.speakers (history ++ [block]) =
      some ⟨block.frames, fun j => block.samples (j % 2) (j / 2), 0⟩

section Performance

variable {O V : Type*}

/-- The frame that lies so many frames after the first. -/
def frameAt (frames : List (V × V)) (time : Int) : Option (V × V) :=
  if 0 ≤ time then frames[time.toNat]? else none

theorem frameAt_append (front back : List (V × V)) (time : Int) :
    frameAt (front ++ back) time =
      (frameAt front time).or (frameAt back (time - front.length)) := by
  by_cases begun : 0 ≤ time
  · simp only [frameAt, if_pos begun]
    by_cases inside : time.toNat < front.length
    · rw [List.getElem?_append_left inside, List.getElem?_eq_getElem inside, Option.some_or]
    · rw [List.getElem?_append_right (Nat.not_lt.mp inside),
        List.getElem?_eq_none (Nat.not_lt.mp inside), Option.none_or, if_pos (by omega)]
      congr 1
      omega
  · rw [frameAt, frameAt, frameAt, if_neg begun, if_neg begun, if_neg (by omega), Option.none_or]

theorem frameAt_isSome {frames : List (V × V)} {time : Int} (begun : 0 ≤ time)
    (inside : time < frames.length) : (frameAt frames time).isSome = true := by
  rw [frameAt, if_pos begun, List.getElem?_eq_getElem (by omega), Option.isSome_some]

variable [Mul V]

/-- The stereo frames of a block, at its gain. -/
def MonitorBlock.scaled (block : MonitorBlock (Traced O V)) : List (V × V) :=
  (List.range block.frames.toNat).map fun i =>
    ((block.samples 0 i * block.gain).value, (block.samples 1 i * block.gain).value)

/-- The stereo frames of all blocks, in order. -/
def performance (blocks : List (MonitorBlock (Traced O V))) : List (V × V) :=
  blocks.flatMap MonitorBlock.scaled

/-- Sample `j` of a packet in which a frame is added to silence, if there is one. -/
def sounded [Zero V] [Add V] (frame : Option (V × V)) (j : Nat) : V :=
  match frame with
  | some frame => 0 + if j % 2 = 0 then frame.1 else frame.2
  | none => 0

theorem scaled_length (block : MonitorBlock (Traced O V)) :
    block.scaled.length = block.frames.toNat := by
  simp [MonitorBlock.scaled]

theorem performance_snoc (blocks : List (MonitorBlock (Traced O V)))
    (block : MonitorBlock (Traced O V)) :
    performance (blocks ++ [block]) = performance blocks ++ block.scaled := by
  rw [performance, List.flatMap_append, List.flatMap_singleton]
  rfl

end Performance

namespace Tap

variable {S : Type*} [Zero S] [Mul S] {tap : Tap S} {block : MonitorBlock S}
  {rate : UInt32} {target : Int}

/-- A block that the clock places exactly goes to the timeline from its target on. -/
theorem put_timeline (blend : S → S → ℚ → S) (cursor lookbehindNs : Int)
    (undelayed : block.syncNs = 0)
    (precise : MonitorClock.Exact (tap.clock.position block.timestamp block.arrival block.frames
      rate) target block.frames) (output : Nat → S) :
    let result := (tap.put blend block ⟨block.frames, output, 0⟩ rate cursor lookbehindNs).1
    result.timeline = ((tap.timeline.resize (rate.toNat * capacitySeconds 0 lookbehindNs)).put
        target output block.frames.toNat block.gain cursor).1 ∧
      result.resampler = tap.resampler ∧ result.inputRate = tap.inputRate ∧
      result.outputRate = tap.outputRate ∧ result.speakers = tap.speakers := by
  have delay : clamp (0 : Int) (-20000000000) 20000000000 = 0 := by decide
  have still : nsToFrames (0 - (0 : UInt64).toInt64.toInt) rate = 0 := by simp [nsToFrames]
  unfold put
  generalize tap.clock.position block.timestamp block.arrival block.frames rate = answer
    at precise ⊢
  obtain ⟨clock, position⟩ := answer
  obtain ⟨here, adjusted, steady, inStep⟩ := precise
  simp only at here adjusted steady inStep
  subst here
  simp only [undelayed, delay, still, steady, adjusted, StereoRetimer.process_same,
    Bool.false_eq_true, if_false, Int.add_zero, and_self]

end Tap

namespace TracedTap

open StereoTimeline MonitorClock

variable {O V : Type*} {source : SteadySource} {resampling : Resampling V} {audio : TracedTap O V}
  {cursor : Int} {blocks : List (MonitorBlock (Traced O V))} {block : MonitorBlock (Traced O V)}
  {timeline : StereoTimeline (Traced O V)}

theorem resampler_output (passes : resampling.Passes source)
    (history : List (MonitorBlock (Traced O V))) (block : MonitorBlock (Traced O V)) :
    ∃ output, resampling.resampler source.rate source.rate source.speakers history block =
        some ⟨block.frames, output, 0⟩ ∧
      ∀ j, (output j).value = (block.samples (j % 2) (j / 2)).value := by
  rw [Resampling.resampler, List.map_append, List.map_singleton, passes.output, Option.map_some]
  exact ⟨_, rfl, fun _ => rfl⟩

section Silence

variable [Zero V]

theorem resize_size (timeline : StereoTimeline (Traced O V)) (frames : Nat) :
    (timeline.resize frames).size = frames := by
  rw [resize]
  split
  · rfl
  · rename_i same
    exact (not_not.mp same).symm

variable [Add V]

/-- Mixing onto silence, also of a timeline that has no size yet. -/
theorem mix_silence {planned : Int → Option (Traced O V × Traced O V)}
    (tells : Tells timeline cursor planned) (frames : Nat) :
    Tells (timeline.mix cursor (fun _ => 0) frames).1 (cursor + frames) planned ∧
      (timeline.mix cursor (fun _ => 0) frames).1.size = timeline.size ∧
      (timeline.mix cursor (fun _ => 0) frames).2 =
        Score.played ⟨timeline.size, cursor, planned⟩ (fun _ => 0) frames := by
  by_cases empty : timeline.size = 0
  · have nothing (j : Nat) : planned (cursor + (j / 2 : Nat)) = none := by
      by_contra some
      obtain ⟨frame, found⟩ := Option.ne_none_iff_exists'.mp some
      have near := (tells.live _ frame (by omega) found).2
      omega
    rw [StereoTimeline.mix, if_pos empty]
    refine ⟨Represents.advance tells (by omega), rfl, ?_⟩
    funext j
    rw [Score.played]
    split
    · simp only [nothing]
    · rfl
  · exact tells.mix (Nat.pos_of_ne_zero empty) (fun _ => 0) frames

end Silence

variable [Mul V]

/-- A tap in the format of the source, whose clock expects the next frame at `target`. -/
structure InTune (source : SteadySource) (resampling : Resampling V) (audio : TracedTap O V)
    (target : Int) : Prop where
  resampler : audio.tap.resampler =
    some (resampling.resampler source.rate source.rate source.speakers audio.history)
  inputRate : audio.tap.inputRate = source.rate
  outputRate : audio.tap.outputRate = source.rate
  speakers : audio.tap.speakers = source.speakers
  inStep : InStep audio.tap.clock target
  size : audio.tap.timeline.size = source.window

/-- The blocks that were placed, and nothing else, are planned from the cursor on. -/
def Plans (source : SteadySource) (timeline : StereoTimeline (Traced O V)) (cursor : Int)
    (blocks : List (MonitorBlock (Traced O V))) : Prop :=
  ∃ planned, Tells timeline cursor planned ∧ ∀ time, cursor ≤ time →
    (planned time).map (fun frame => (frame.1.value, frame.2.value)) =
      frameAt (performance blocks) (time - source.origin)

/-- A tap that has placed these blocks of the source. -/
structure Plays (source : SteadySource) (resampling : Resampling V) (audio : TracedTap O V)
    (cursor : Int) (blocks : List (MonitorBlock (Traced O V))) : Prop where
  plans : Plans source audio.tap.timeline cursor blocks
  fresh : blocks = [] → audio.tap.resampler = none ∧ audio.tap.outputRate = 0
  tuned : blocks ≠ [] →
    InTune source resampling audio (source.origin + (performance blocks).length)

/-- The block that comes next in the source, in time for the window. -/
structure Continues (source : SteadySource) (blocks : List (MonitorBlock (Traced O V)))
    (block : MonitorBlock (Traced O V)) : Prop where
  stamped : Tap.Stamped source.start source.rate (performance blocks).length block
  plain : Tap.Plain block source.rate source.speakers
  fits : source.start.toNat + nanoseconds (performance blocks).length source.rate.toNat < 2 ^ 64
  early : block.timestamp.toNat < 2 ^ 63
  direct : blocks = [] → (Tap.request block).Direct source.rate

theorem plans_blank (source : SteadySource) (nonneg : 0 ≤ cursor)
    (empty : ∀ cell, (timeline.data cell).tag = -1) : Plans source timeline cursor [] := by
  refine ⟨fun _ => none, .blank nonneg empty, fun time _ => ?_⟩
  simp [performance, frameAt]

theorem Plans.advance (plans : Plans source timeline cursor blocks) {later : Int}
    (order : cursor ≤ later) : Plans source timeline later blocks := by
  obtain ⟨planned, tells, same⟩ := plans
  exact ⟨planned, Represents.advance tells order, fun time reached =>
    same time (order.trans reached)⟩

theorem offered_scaled (target time : Int) (output : Nat → Traced O V)
    (values : ∀ j, (output j).value = (block.samples (j % 2) (j / 2)).value) :
    (offered target output block.frames.toNat block.gain time).map
        (fun frame => (frame.1.value, frame.2.value)) =
      frameAt block.scaled (time - target) := by
  have product (a b : Traced O V) : (a * b).value = a.value * b.value := rfl
  by_cases inside : target ≤ time ∧ time < target + block.frames.toNat
  · have odd : ((time - target).toNat * 2 + 1) / 2 = (time - target).toNat := by omega
    have short : (time - target).toNat < block.frames.toNat := by omega
    rw [offered, if_pos inside, frameAt, if_pos (by omega), MonitorBlock.scaled]
    simp [product, values, odd, short]
  · rw [offered, if_neg inside, frameAt, Option.map_none]
    split
    · rw [eq_comm, List.getElem?_eq_none_iff, scaled_length]
      omega
    · rfl

/-- A block that lies inside the window is added to the plan. -/
theorem Plans.put (plans : Plans source timeline cursor blocks) (size : 0 < timeline.size)
    (output : Nat → Traced O V)
    (values : ∀ j, (output j).value = (block.samples (j % 2) (j / 2)).value)
    (inside : source.origin + (performance blocks).length + block.frames.toNat ≤
      cursor + timeline.size) :
    Plans source (timeline.put (source.origin + (performance blocks).length) output
      block.frames.toNat block.gain cursor).1 cursor (blocks ++ [block]) := by
  obtain ⟨planned, tells, same⟩ := plans
  obtain ⟨told, -, -⟩ := tells.put size (source.origin + (performance blocks).length) output
    block.frames.toNat block.gain
  refine ⟨_, told, fun time reached => ?_⟩
  have apart : time - (source.origin + (performance blocks).length) =
      time - source.origin - (performance blocks).length := by omega
  have frames := offered_scaled (source.origin + (performance blocks).length) time output values
  rw [performance_snoc, frameAt_append, ← same time reached, ← apart, ← frames, admitted,
    Option.map_or]
  by_cases near : time < cursor + timeline.size
  · rw [if_pos ⟨reached, near⟩]
  · rw [if_neg (fun both => near both.2), offered, if_neg (by omega)]

theorem Plays.reset (plays : Plays source resampling audio cursor []) :
    Plays source resampling audio.resetAudio cursor [] := by
  obtain ⟨planned, tells, -⟩ := plays.plans
  exact ⟨plans_blank source tells.nonneg fun _ => rfl, fun _ => ⟨rfl, rfl⟩, fun some =>
    absurd rfl some⟩

theorem Plays.outputRate (plays : Plays source resampling audio cursor blocks) :
    audio.tap.outputRate = 0 ∨ audio.tap.outputRate = source.rate := by
  by_cases begun : blocks = []
  · exact .inl (plays.fresh begun).2
  · exact .inr (plays.tuned begun).outputRate

variable [Zero V]

/-- What `place` comes to, for a block that is resampled. -/
theorem place_made (audio : TracedTap O V) (blend : V → V → ℚ → V) (lookbehindNs : Int)
    {tuned : Tap (Traced O V)}
    (tune : audio.tap.tune resampling.create block source.rate = tuned)
    {made : Resampler (Traced O V)} (resampler : tuned.resampler = some made)
    {resampled : Resampled (Traced O V)} (answer : made block = some resampled)
    (nonempty : resampled.frames ≠ 0) :
    let placed :=
      (tuned.put (Traced.join blend) block resampled source.rate cursor lookbehindNs).1
    let history := (if retunes audio.tap block source.rate then [] else audio.history) ++ [block]
    audio.place resampling blend source.rate cursor lookbehindNs block =
      { tap := { placed with
          resampler := placed.resampler.map fun _ =>
            resampling.resampler placed.inputRate placed.outputRate placed.speakers history }
        history } := by
  simp only [place, Tap.place, tune, resampler, Option.bind_some, answer, if_neg nonempty]

/-- A tap in the source's format places the block at its own time. -/
theorem Plays.put (plans : Plans source timeline cursor blocks) (passes : resampling.Passes source)
    (blend : V → V → ℚ → V) (next : Continues source blocks block)
    (inside : source.origin + (performance blocks).length + block.frames.toNat ≤
      cursor + source.window)
    {tuned : Tap (Traced O V)} (tune : audio.tap.tune resampling.create block source.rate = tuned)
    {history : List (MonitorBlock (Traced O V))}
    (resampler : tuned.resampler =
      some (resampling.resampler source.rate source.rate source.speakers history))
    (inputRate : tuned.inputRate = source.rate) (outputRate : tuned.outputRate = source.rate)
    (speakers : tuned.speakers = source.speakers)
    (resized : tuned.timeline.resize source.window = timeline)
    (size : timeline.size = source.window)
    (precise : Exact (tuned.clock.position block.timestamp block.arrival block.frames source.rate)
      (source.origin + (performance blocks).length) block.frames) :
    Plays source resampling
      (audio.place resampling blend source.rate cursor source.lookbehindNs block) cursor
      (blocks ++ [block]) := by
  obtain ⟨output, answer, values⟩ := resampler_output passes history block
  have nonempty : block.frames ≠ 0 := next.plain.frames_ne
  obtain ⟨put, kept, input, out, format⟩ := Tap.put_timeline (Traced.join blend) cursor
    source.lookbehindNs next.plain.undelayed precise output
  obtain ⟨-, inStep, -, -⟩ := Tap.put_exact tuned (Traced.join blend) cursor source.lookbehindNs
    next.plain precise output
  rw [show source.rate.toNat * Tap.capacitySeconds 0 source.lookbehindNs = source.window from rfl,
    resized] at put
  have positive : 0 < timeline.size := size ▸ source.window_pos
  rw [place_made audio blend source.lookbehindNs tune resampler answer nonempty]
  refine ⟨?_, fun none => absurd none (by simp), fun _ => ⟨?_, ?_, ?_, ?_, ?_, ?_⟩⟩
  · simp only [put]
    exact plans.put positive output values (size ▸ inside)
  · simp only [kept, input, out, format, resampler, inputRate, outputRate, speakers,
      Option.map_some]
  · exact input.trans inputRate
  · exact out.trans outputRate
  · exact format.trans speakers
  · rw [performance_snoc, List.length_append, scaled_length, Nat.cast_add, ← Int.add_assoc]
    exact inStep
  · obtain ⟨planned, tells, -⟩ := plans
    simp only [put, (tells.put positive _ output _ _).2.1, size]

theorem Plays.place (plays : Plays source resampling audio cursor blocks)
    (passes : resampling.Passes source) (blend : V → V → ℚ → V)
    (next : Continues source blocks block)
    (inside : source.origin + (performance blocks).length + block.frames.toNat ≤
      cursor + source.window) :
    Plays source resampling
      (audio.place resampling blend source.rate cursor source.lookbehindNs block) cursor
      (blocks ++ [block]) := by
  have audible := source.audible
  obtain ⟨-, behind, ahead⟩ := next.stamped.frames audible source.small next.fits next.early
  by_cases begun : blocks = []
  · subst begun
    obtain ⟨none, -⟩ := plays.fresh rfl
    obtain ⟨planned, tells, -⟩ := plays.plans
    -- The first block makes the resampler, and its timestamp sets the clock.
    have tune : audio.tap.tune resampling.create block source.rate = { audio.tap with
        resampler := some (resampling.resampler source.rate source.rate source.speakers [])
        inputRate := source.rate
        outputRate := source.rate
        speakers := source.speakers
        timeline := audio.tap.timeline.clear
        clock := {}
        retimer := audio.tap.retimer.reset } := by
      rw [Tap.tune, if_pos (by simp [none]), next.plain.rate, next.plain.speakers,
        Resampling.create, if_pos passes.creates]
      rfl
    have first : (Tap.request block).stamp source.rate = source.origin + (0 : Nat) := by
      rw [Request.stamp, Tap.request, toInt64_of_small next.early, next.stamped.first,
        SteadySource.origin, Nat.cast_zero, Int.add_zero]
    have precise := position_fresh (show ({} : MonitorClock).initialized = false from rfl)
      (next.direct rfl) audible
    rw [first] at precise
    have resized : ∀ cell,
        ((audio.tap.timeline.clear.resize source.window).data cell).tag = -1 := by
      intro cell
      rw [resize]
      split <;> rfl
    exact Plays.put (plans_blank source tells.nonneg resized) passes blend next inside tune rfl rfl
      rfl rfl rfl (resize_size _ _) precise
  · obtain ⟨resampler, inputRate, outputRate, speakers, inStep, size⟩ := plays.tuned begun
    have tune : audio.tap.tune resampling.create block source.rate = audio.tap := by
      rw [Tap.tune, if_neg]
      simp [resampler, inputRate, outputRate, speakers, next.plain.rate, next.plain.speakers]
    have resized : audio.tap.timeline.resize source.window = audio.tap.timeline := by
      rw [resize, if_neg (not_not.mpr size.symm)]
    have precise := inStep.position audible behind ahead
    exact Plays.put plays.plans passes blend next inside tune resampler inputRate outputRate
      speakers resized size precise

variable [Add V]

/-- The frame of the source that belongs at a time, if it has been placed, is all that is added
there. -/
theorem Plays.mix (plays : Plays source resampling audio cursor blocks) (frames : Nat) :
    Plays source resampling (audio.mix cursor frames).1 (cursor + frames) blocks ∧
      ∀ j, j < frames * 2 → ((audio.mix cursor frames).2 j).value =
        sounded (frameAt (performance blocks) (cursor + (j / 2 : Nat) - source.origin)) j := by
  obtain ⟨planned, tells, same⟩ := plays.plans
  obtain ⟨told, size, played⟩ := mix_silence tells frames
  refine ⟨⟨⟨planned, told, fun time reached => same time (by omega)⟩, plays.fresh, fun begun => ?_⟩,
    fun j inside => ?_⟩
  · obtain ⟨resampler, inputRate, outputRate, speakers, inStep, window⟩ := plays.tuned begun
    exact ⟨resampler, inputRate, outputRate, speakers, inStep, size.trans window⟩
  · rw [show (audio.mix cursor frames).2 = _ from played, ← same _ (by omega)]
    simp only [Score.played, if_pos inside]
    cases planned (cursor + (j / 2 : Nat)) with
    | none => rfl
    | some frame =>
      simp only [Option.map_some, sounded]
      split <;> rfl

end TracedTap

end VbanStream
