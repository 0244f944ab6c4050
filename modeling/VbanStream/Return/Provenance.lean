import VbanStream.Library.Traced
import VbanStream.Return.MonitorReturn

/-! Where the frames of a source come from: the samples of a block are followed through the
resampler with its memory, the retimer and the timeline. -/

namespace VbanStream

open Library

section Origins

variable {O V : Type*}

/-- All that a resampler reads of a block: eight planes at most. -/
def MonitorBlock.origins (block : MonitorBlock (Traced O V)) : List O :=
  (List.range 8).flatMap fun c =>
    (List.range block.frames.toNat).flatMap fun i => (block.samples c i).origins

def MonitorBlock.values (block : MonitorBlock (Traced O V)) : MonitorBlock V :=
  { block with
    samples := fun c i => (block.samples c i).value
    gain := block.gain.value }

/-- Every sample of a block, and its gain, has one origin. -/
def MonitorBlock.traced (block : MonitorBlock V) (origin : O) : MonitorBlock (Traced O V) :=
  { block with
    samples := fun c i => ⟨block.samples c i, [origin]⟩
    gain := ⟨block.gain, [origin]⟩ }

/-- What `audio_resampler_create` and `audio_resampler_resample` do: a resampler is made or not,
and its output may depend on every block since it was made, the last one included. -/
structure Resampling (V : Type*) where
  creates : UInt32 → UInt32 → UInt8 → Bool
  output : UInt32 → UInt32 → UInt8 → List (MonitorBlock V) → Option (Resampled V)

namespace Resampling

variable (resampling : Resampling V)

/-- A resampler that has read some blocks. -/
def resampler (input output : UInt32) (speakers : UInt8)
    (history : List (MonitorBlock (Traced O V))) : Resampler (Traced O V) := fun block =>
  let read := history ++ [block]
  (resampling.output input output speakers (read.map MonitorBlock.values)).map fun resampled =>
    { resampled with output := fun j => ⟨resampled.output j, read.flatMap MonitorBlock.origins⟩ }

def create (input output : UInt32) (speakers : UInt8) : Option (Resampler (Traced O V)) :=
  if resampling.creates input output speakers then
    some (resampling.resampler input output speakers [])
  else none

end Resampling

/-- The worker's side of a tap, with the blocks that its resampler has read. -/
structure TracedTap (O V : Type*) where
  tap : Tap (Traced O V)
  history : List (MonitorBlock (Traced O V)) := []

namespace TracedTap

variable [Zero V] [Add V] [Mul V]

/-- What `reset_audio` does to the audio: no old sample is reached from then on. -/
def resetAudio (audio : TracedTap O V) : TracedTap O V where
  tap := { audio.tap with
    timeline := audio.tap.timeline.clear
    clock := audio.tap.clock.reset
    retimer := audio.tap.retimer.reset
    resampler := none
    inputRate := 0
    outputRate := 0 }

/-- Whether a resampler is made for the block. -/
def retunes (tap : Tap (Traced O V)) (block : MonitorBlock (Traced O V)) (rate : UInt32) : Bool :=
  tap.resampler.isNone || tap.inputRate != block.rate || tap.outputRate != rate ||
    tap.speakers != block.speakers

/-- One turn of the loop in `service`, after which the resampler has read the block. -/
def place (resampling : Resampling V) (blend : V → V → ℚ → V) (rate : UInt32)
    (cursor lookbehindNs : Int) (audio : TracedTap O V) (block : MonitorBlock (Traced O V)) :
    TracedTap O V :=
  let history := (if retunes audio.tap block rate then [] else audio.history) ++ [block]
  let (tap, _) :=
    audio.tap.place resampling.create (Traced.join blend) rate cursor lookbehindNs block
  { tap := { tap with
      resampler := tap.resampler.map fun _ =>
        resampling.resampler tap.inputRate tap.outputRate tap.speakers history }
    history }

/-- `mix` of the timeline, onto silence: the source's own part of the packet. -/
def mix (audio : TracedTap O V) (cursor : Int) (frames : Nat) :
    TracedTap O V × (Nat → Traced O V) :=
  let (timeline, added) := audio.tap.timeline.mix cursor (fun _ => 0) frames
  ({ audio with tap := { audio.tap with timeline } }, added)

end TracedTap

end Origins

section Within

variable {O V : Type*} {good : O → Prop}

/-- Every frame that a time other than -1 can reach. -/
def StereoTimeline.Within (good : O → Prop) (timeline : StereoTimeline (Traced O V)) : Prop :=
  ∀ cell, (timeline.data cell).tag ≠ -1 →
    (timeline.data cell).left.Within good ∧ (timeline.data cell).right.Within good

/-- The last frame of the block before, while it is used. -/
def StereoRetimer.Within (good : O → Prop) (retimer : StereoRetimer (Traced O V)) : Prop :=
  retimer.havePrevious = true →
    retimer.previous.1.Within good ∧ retimer.previous.2.Within good

/-- All that the audio of a tap holds. -/
structure TracedTap.Within (good : O → Prop) (resampling : Resampling V) (audio : TracedTap O V) :
    Prop where
  timeline : audio.tap.timeline.Within good
  retimer : audio.tap.retimer.Within good
  history : ∀ block ∈ audio.history, ∀ origin ∈ block.origins, good origin
  resampler : ∀ resampler, audio.tap.resampler = some resampler →
    resampler = resampling.resampler audio.tap.inputRate audio.tap.outputRate audio.tap.speakers
      audio.history

namespace StereoTimeline

variable {timeline : StereoTimeline (Traced O V)}

theorem within_clear (timeline : StereoTimeline (Traced O V)) : timeline.clear.Within good :=
  fun _ marked => absurd rfl marked

theorem Within.resize [Zero V] (within : timeline.Within good) (frames : Nat) :
    (timeline.resize frames).Within good := by
  rw [StereoTimeline.resize]
  split
  · exact fun _ marked => absurd rfl marked
  · exact within

theorem Within.store (within : timeline.Within good) (cell : Nat)
    {frame : StereoFrame (Traced O V)}
    (fine : frame.tag ≠ -1 → frame.left.Within good ∧ frame.right.Within good) :
    ({ timeline with data := Function.update timeline.data cell frame } :
      StereoTimeline (Traced O V)).Within good := by
  intro other marked
  by_cases same : other = cell
  · subst same
    simp only [Function.update_self] at marked ⊢
    exact fine marked
  · simp only [Function.update_of_ne same] at marked ⊢
    exact within other marked

theorem Within.putFrame [Mul V] (within : timeline.Within good) {samples : Nat → Traced O V}
    {gain : Traced O V} (sampled : ∀ j, (samples j).Within good) (loud : gain.Within good)
    (start cursor : Int) (late i : Nat) :
    (StereoTimeline.putFrame start samples gain cursor (timeline, late) i).1.Within good := by
  simp only [StereoTimeline.putFrame]
  split
  · exact within
  · split
    · exact within
    · split
      · exact within
      · exact within.store _ fun _ => ⟨(sampled _).mul loud, (sampled _).mul loud⟩

theorem Within.put [Mul V] (within : timeline.Within good) {samples : Nat → Traced O V}
    {gain : Traced O V} (sampled : ∀ j, (samples j).Within good) (loud : gain.Within good)
    (start cursor : Int) (frames : Nat) :
    (timeline.put start samples frames gain cursor).1.Within good := by
  rw [StereoTimeline.put]
  split
  · exact within
  · induction frames with
    | zero => exact within
    | succ count ih =>
      rw [List.range_succ, List.foldl_append]
      exact ih.putFrame sampled loud start cursor _ count

variable [Add V]

theorem Within.mixFrame (within : timeline.Within good) (out : Nat → Traced O V) (start : Int)
    (i : Nat) : (StereoTimeline.mixFrame start (timeline, out) i).1.Within good := by
  simp only [StereoTimeline.mixFrame]
  split
  · exact within
  · exact within.store _ fun marked => absurd rfl marked

theorem Within.mix (within : timeline.Within good) (out : Nat → Traced O V) (start : Int)
    (frames : Nat) : (timeline.mix start out frames).1.Within good := by
  rw [StereoTimeline.mix]
  split
  · exact within
  · induction frames with
    | zero => exact within
    | succ count ih =>
      rw [List.range_succ, List.foldl_append]
      exact ih.mixFrame _ start count

/-- A cell that was never filled, or was cleared, is marked -1: at every other time the frame
that is found is one of the timeline. -/
theorem Within.mixFrame_added (within : timeline.Within good) {out : Nat → Traced O V}
    {start : Int} (quiet : ∀ j : Nat, start + (j / 2 : Nat) ≠ -1 → (out j).Within good) (i j : Nat)
    (apart : start + (j / 2 : Nat) ≠ -1) :
    ((StereoTimeline.mixFrame start (timeline, out) i).2 j).Within good := by
  have before := quiet j apart
  simp only [StereoTimeline.mixFrame]
  split
  · exact before
  · rename_i found
    rw [not_not] at found
    dsimp only
    by_cases here : j / 2 = i
    · rw [here] at apart
      obtain ⟨left, right⟩ := within _ (found ▸ apart)
      by_cases odd : j = i * 2 + 1
      · subst odd
        rw [Function.update_self, Function.update_of_ne (by omega)]
        exact before.add right
      · rw [Function.update_of_ne odd, show j = i * 2 by omega, Function.update_self]
        rw [show j = i * 2 by omega] at before
        exact before.add left
    · rw [Function.update_of_ne (by omega), Function.update_of_ne (by omega)]
      exact before

theorem Within.mix_added (within : timeline.Within good) {out : Nat → Traced O V} {start : Int}
    (quiet : ∀ j : Nat, start + (j / 2 : Nat) ≠ -1 → (out j).Within good) (frames j : Nat)
    (apart : start + (j / 2 : Nat) ≠ -1) : ((timeline.mix start out frames).2 j).Within good := by
  rw [StereoTimeline.mix]
  split
  · exact quiet j apart
  · have both : ((List.range frames).foldl (StereoTimeline.mixFrame start)
          (timeline, out)).1.Within good ∧
        ∀ j : Nat, start + (j / 2 : Nat) ≠ -1 →
          (((List.range frames).foldl (StereoTimeline.mixFrame start)
            (timeline, out)).2 j).Within good := by
      induction frames with
      | zero => exact ⟨within, quiet⟩
      | succ count ih =>
        rw [List.range_succ, List.foldl_append]
        exact ⟨ih.1.mixFrame _ start count, ih.1.mixFrame_added ih.2 count⟩
    exact both.2 j apart

end StereoTimeline

namespace StereoRetimer

variable {retimer : StereoRetimer (Traced O V)} {input : Nat → Traced O V}

theorem within_reset (retimer : StereoRetimer (Traced O V)) : retimer.reset.Within good := nofun

/-- The retimer mixes samples of its block with the frame before it. -/
theorem Within.process (within : retimer.Within good) (sampled : ∀ j, (input j).Within good)
    (blend : V → V → ℚ → V) (frames adjusted : Nat) :
    (retimer.process (Traced.join blend) input frames adjusted).1.Within good ∧
      ∀ j, ((retimer.process (Traced.join blend) input frames adjusted).2 j).Within good := by
  rw [StereoRetimer.process]
  split
  · exact ⟨within, sampled⟩
  · refine ⟨fun _ => ⟨sampled _, sampled _⟩, fun j => ?_⟩
    dsimp only
    split
    · have before : (if retimer.havePrevious then retimer.previous
          else (input 0, input 1)).1.Within good ∧
          (if retimer.havePrevious then retimer.previous
            else (input 0, input 1)).2.Within good := by
        split
        · exact within ‹_›
        · exact ⟨sampled 0, sampled 1⟩
      refine Traced.Within.join blend ?_ (sampled _) _
      split
      · split
        · exact before.1
        · exact before.2
      · exact sampled _
    · exact sampled j

end StereoRetimer

/-- Every sample of the block, and its gain. -/
structure MonitorBlock.Within (good : O → Prop) (block : MonitorBlock (Traced O V)) : Prop where
  samples : ∀ c i, (block.samples c i).Within good
  gain : block.gain.Within good

theorem MonitorBlock.Within.origins {block : MonitorBlock (Traced O V)}
    (within : block.Within good) : ∀ origin ∈ block.origins, good origin := by
  intro origin member
  obtain ⟨c, _, inner⟩ := List.mem_flatMap.mp member
  obtain ⟨i, _, found⟩ := List.mem_flatMap.mp inner
  exact within.samples c i origin found

namespace TracedTap

variable {resampling : Resampling V} {audio : TracedTap O V}

/-- A reset leaves nothing that could be heard, whatever was there. -/
theorem within_resetAudio (good : O → Prop) (resampling : Resampling V) (audio : TracedTap O V) :
    audio.resetAudio.Within good resampling where
  timeline := StereoTimeline.within_clear _
  retimer := StereoRetimer.within_reset _
  history := by simp [resetAudio]
  resampler := by simp [resetAudio]

theorem Within.imp {other : O → Prop} (within : audio.Within good resampling)
    (weaker : ∀ origin, good origin → other origin) : audio.Within other resampling where
  timeline cell marked :=
    ⟨(within.timeline cell marked).1.imp weaker, (within.timeline cell marked).2.imp weaker⟩
  retimer have_ := ⟨(within.retimer have_).1.imp weaker, (within.retimer have_).2.imp weaker⟩
  history block member origin inside := weaker origin (within.history block member origin inside)
  resampler := within.resampler

theorem Within.tune (within : audio.Within good resampling)
    (block : MonitorBlock (Traced O V)) (rate : UInt32) :
    let tuned : TracedTap O V :=
      { tap := audio.tap.tune resampling.create block rate
        history := if retunes audio.tap block rate then [] else audio.history }
    tuned.Within good resampling := by
  have same : (audio.tap.resampler.isNone = true ∨ audio.tap.inputRate ≠ block.rate ∨
      audio.tap.outputRate ≠ rate ∨ audio.tap.speakers ≠ block.speakers) ↔
        retunes audio.tap block rate = true := by
    simp [retunes, or_assoc]
  rw [Tap.tune]
  by_cases retuned : retunes audio.tap block rate = true
  · rw [if_pos (same.mpr retuned), if_pos retuned]
    refine ⟨StereoTimeline.within_clear _, StereoRetimer.within_reset _, by simp, ?_⟩
    intro resampler made
    obtain ⟨_, same⟩ := Option.ite_none_right_eq_some.mp made
    exact (Option.some.inj same).symm
  · rw [if_neg (mt same.mp retuned), if_neg retuned]
    exact within

section Mix

variable [Zero V] [Add V]

theorem Within.mix (within : audio.Within good resampling) (cursor : Int) (frames : Nat) :
    (audio.mix cursor frames).1.Within good resampling :=
  ⟨within.timeline.mix _ cursor frames, within.retimer, within.history, within.resampler⟩

theorem Within.mix_added (within : audio.Within good resampling) (cursor : Int) (frames j : Nat)
    (apart : cursor + (j / 2 : Nat) ≠ -1) : ((audio.mix cursor frames).2 j).Within good :=
  within.timeline.mix_added (fun _ _ => Traced.within_zero) frames j apart

end Mix

variable [Zero V] [Mul V]

theorem put_within {tap : Tap (Traced O V)} (timeline : tap.timeline.Within good)
    (retimer : tap.retimer.Within good) {block : MonitorBlock (Traced O V)}
    (fine : block.Within good) {resampled : Resampled (Traced O V)}
    (sampled : ∀ j, (resampled.output j).Within good) (blend : V → V → ℚ → V) (rate : UInt32)
    (cursor lookbehindNs : Int) :
    (tap.put (Traced.join blend) block resampled rate cursor lookbehindNs).1.timeline.Within
        good ∧
      (tap.put (Traced.join blend) block resampled rate cursor lookbehindNs).1.retimer.Within
        good := by
  have resized := timeline.resize (rate.toNat * Tap.capacitySeconds
    (clamp block.syncNs (-20000000000) 20000000000) lookbehindNs)
  unfold Tap.put
  rcases tap.clock.position block.timestamp block.arrival resampled.frames rate with ⟨clock, placed⟩
  obtain ⟨discontinuities, retimer', timeline', chosen, retimed, stored⟩ :
      ∃ discontinuities retimer' timeline',
        (if clock.discontinuity then
            (tap.discontinuities + 1, tap.retimer.reset, (tap.timeline.resize (rate.toNat *
              Tap.capacitySeconds (clamp block.syncNs (-20000000000) 20000000000)
                lookbehindNs)).clear)
          else (tap.discontinuities, tap.retimer, tap.timeline.resize (rate.toNat *
            Tap.capacitySeconds (clamp block.syncNs (-20000000000) 20000000000)
              lookbehindNs))) = (discontinuities, retimer', timeline') ∧
          retimer'.Within good ∧ timeline'.Within good := by
    split
    · exact ⟨_, _, _, rfl, StereoRetimer.within_reset _, StereoTimeline.within_clear _⟩
    · exact ⟨_, _, _, rfl, retimer, resized⟩
  dsimp only
  rw [chosen]
  obtain ⟨last, pcm⟩ :=
    retimed.process sampled blend resampled.frames.toNat clock.adjustedFrames.toNat
  exact ⟨stored.put pcm fine.gain _ _ _, last⟩

theorem Within.place (within : audio.Within good resampling) {block : MonitorBlock (Traced O V)}
    (fine : block.Within good) (blend : V → V → ℚ → V) (rate : UInt32)
    (cursor lookbehindNs : Int) :
    (audio.place resampling blend rate cursor lookbehindNs block).Within good resampling := by
  have tuned := within.tune block rate
  obtain ⟨timeline, retimer, history, resampler⟩ := tuned
  have read : ∀ member ∈ (if retunes audio.tap block rate then [] else audio.history) ++ [block],
      ∀ origin ∈ member.origins, good origin := by
    intro member inside
    rcases List.mem_append.mp inside with old | new
    · exact history member old
    · rw [List.mem_singleton.mp new]
      exact fine.origins
  have placed : (audio.tap.place resampling.create (Traced.join blend) rate cursor lookbehindNs
        block).1.timeline.Within good ∧
      (audio.tap.place resampling.create (Traced.join blend) rate cursor lookbehindNs
        block).1.retimer.Within good := by
    rw [Tap.place]
    dsimp only
    split
    · exact ⟨timeline, retimer⟩
    · rename_i resampled made
      split
      · exact ⟨timeline, retimer⟩
      · refine put_within timeline retimer fine ?_ blend rate cursor lookbehindNs
        obtain ⟨made_, used, produced⟩ := Option.bind_eq_some_iff.mp made
        rw [resampler made_ used] at produced
        obtain ⟨raw, _, same⟩ := Option.map_eq_some_iff.mp produced
        subst same
        intro j origin member
        obtain ⟨block', inside, found⟩ := List.mem_flatMap.mp member
        exact read block' inside origin found
  refine ⟨placed.1, placed.2, read, fun resampler made => ?_⟩
  obtain ⟨_, _, same⟩ := Option.map_eq_some_iff.mp made
  exact same.symm

end TracedTap

end Within

end VbanStream
