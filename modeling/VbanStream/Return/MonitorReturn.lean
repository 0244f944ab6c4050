import VbanStream.Return.MonitorClock
import VbanStream.Return.StereoTimeline

/-! The way of one source's audio: `capture` splits a callback into stamped blocks, and the
worker's `service` places each block on the timeline of its tap. -/

namespace VbanStream

open Library

/-- `StereoRetimer`, with the last frame of the block before. -/
structure StereoRetimer (S : Type*) where
  havePrevious : Bool := false
  previous : S × S

namespace StereoRetimer

variable {S : Type*} (blend : S → S → ℚ → S)

/-- Sample `c` of frame `i` of a stretched block. `blend left right fraction` is
`left + (right - left) * fraction` in single precision. -/
def interpolate (previous : S × S) (input : Nat → S) (frames adjusted i c : Nat) : S :=
  let round := binary64.round
  let scaled := round (((i + 1 : Nat) : ℚ) * frames)
  let position := round (round (scaled / adjusted) - 1)
  let a := ⌊position⌋
  let b := min (a + 1).toNat (frames - 1)
  let fraction := binary32.round (round (position - a))
  let left :=
    if a < 0 then if c = 0 then previous.1 else previous.2 else input (a.toNat * 2 + c)
  blend left (input (b * 2 + c)) fraction

def process (retimer : StereoRetimer S) (input : Nat → S) (frames adjusted : Nat) :
    StereoRetimer S × (Nat → S) :=
  if frames = 0 ∨ adjusted = 0 then (retimer, input)
  else
    let previous := if retimer.havePrevious then retimer.previous else (input 0, input 1)
    let result :=
      if frames ≠ adjusted then
        fun j => interpolate blend previous input frames adjusted (j / 2) (j % 2)
      else input
    (⟨true, input ((frames - 1) * 2), input ((frames - 1) * 2 + 1)⟩, result)

def reset (retimer : StereoRetimer S) : StereoRetimer S := { retimer with havePrevious := false }

theorem process_same (retimer : StereoRetimer S) (input : Nat → S) (frames : Nat) :
    (retimer.process blend input frames frames).2 = input := by
  unfold process
  split
  · rfl
  · simp

end StereoRetimer

/-- `MonitorBlock`: samples by channel and index. -/
structure MonitorBlock (S : Type*) where
  samples : Nat → Nat → S
  timestamp : UInt64
  arrival : UInt64
  syncNs : Int
  rate : UInt32
  frames : UInt32
  speakers : UInt8
  gain : S

/-- What a capture callback receives, and what it reads of its source. -/
structure Callback (S : Type*) where
  data : Nat → Nat → S
  frames : UInt32
  timestamp : UInt64
  arrival : UInt64
  syncNs : Int
  speakers : UInt8
  gain : S

namespace Callback

variable {S : Type*}

/-- The block that starts at frame `start` of the callback. -/
def block (callback : Callback S) (rate start : UInt32) : MonitorBlock S where
  samples c i := callback.data c (start.toNat + i)
  timestamp := callback.timestamp + framesToNs start.toUInt64 rate
  arrival := callback.arrival + framesToNs start.toUInt64 rate
  syncNs := callback.syncNs
  rate
  frames := if callback.frames - start < 256 then callback.frames - start else 256
  speakers := callback.speakers
  gain := callback.gain

/-- The loop of `capture` while the ring has room: its counter has 32 bits. -/
def split (callback : Callback S) (rate : UInt32) : Nat → UInt32 → Option (List (MonitorBlock S))
  | 0, _ => none
  | fuel + 1, start =>
    if start < callback.frames then
      (callback.split rate fuel (start + 256)).map (callback.block rate start :: ·)
    else some []

/-- `2 ^ 24` turns reach every start of a block. -/
def blocks (callback : Callback S) (rate : UInt32) : List (MonitorBlock S) :=
  (callback.split rate (2 ^ 24) 0).getD []

end Callback

/-- What a resampler makes of a block: interleaved samples, and its delay in nanoseconds. -/
structure Resampled (S : Type*) where
  frames : UInt32
  output : Nat → S
  offset : UInt64

abbrev Resampler (S : Type*) := MonitorBlock S → Option (Resampled S)

/-- The worker's side of a tap. -/
structure Tap (S : Type*) where
  timeline : StereoTimeline S
  clock : MonitorClock
  retimer : StereoRetimer S
  resampler : Option (Resampler S)
  inputRate : UInt32
  outputRate : UInt32
  speakers : UInt8
  discontinuities : Nat
  clockCorrections : Nat
  lateFrames : Nat

/-- What `StereoTimeline::put` is given. -/
structure Placement (S : Type*) where
  position : Int
  pcm : Nat → S
  frames : UInt32

namespace Tap

variable {S : Type*} [Zero S] [Add S] [Mul S]

/-- A resampler is made for the first block, and again when a format changes. -/
def tune (create : UInt32 → UInt32 → UInt8 → Option (Resampler S)) (tap : Tap S)
    (block : MonitorBlock S) (rate : UInt32) : Tap S :=
  if tap.resampler.isNone ∨ tap.inputRate ≠ block.rate ∨ tap.outputRate ≠ rate ∨
      tap.speakers ≠ block.speakers then
    { tap with
      resampler := create block.rate rate block.speakers
      inputRate := block.rate
      outputRate := rate
      speakers := block.speakers
      timeline := tap.timeline.clear
      clock := tap.clock.reset
      retimer := tap.retimer.reset }
  else tap

/-- Room for the delay and the look-behind, in whole seconds. -/
def capacitySeconds (delay lookbehindNs : Int) : Nat :=
  1 + sizeOfTime ((max 0 delay + lookbehindNs + 999999999).tdiv 1000000000)

/-- A resampled block is placed by the clock, retimed, and put on the timeline. -/
def put (blend : S → S → ℚ → S) (tap : Tap S) (block : MonitorBlock S) (resampled : Resampled S)
    (rate : UInt32) (cursor lookbehindNs : Int) : Tap S × Placement S :=
  let delay := clamp block.syncNs (-20000000000) 20000000000
  let timeline := tap.timeline.resize (rate.toNat * capacitySeconds delay lookbehindNs)
  let (clock, placed) := tap.clock.position block.timestamp block.arrival resampled.frames rate
  let position := placed + nsToFrames (delay - resampled.offset.toInt64.toInt) rate
  let (discontinuities, retimer, timeline) :=
    if clock.discontinuity then (tap.discontinuities + 1, tap.retimer.reset, timeline.clear)
    else (tap.discontinuities, tap.retimer, timeline)
  let (retimer, pcm) := retimer.process blend resampled.output resampled.frames.toNat
    clock.adjustedFrames.toNat
  let (timeline, late) :=
    timeline.put position pcm clock.adjustedFrames.toNat block.gain cursor
  ({ tap with
      timeline
      clock
      retimer
      discontinuities
      clockCorrections :=
        tap.clockCorrections + if clock.adjustedFrames ≠ resampled.frames then 1 else 0
      lateFrames := tap.lateFrames + late },
    { position, pcm, frames := clock.adjustedFrames })

/-- One turn of the loop in `service`, for a block that it does not discard. -/
def place (create : UInt32 → UInt32 → UInt8 → Option (Resampler S)) (blend : S → S → ℚ → S)
    (rate : UInt32) (cursor lookbehindNs : Int) (tap : Tap S) (block : MonitorBlock S) :
    Tap S × Option (Placement S) :=
  let tap := tap.tune create block rate
  match tap.resampler.bind fun resampler => resampler block with
  | none => (tap, none)
  | some resampled =>
    if resampled.frames = 0 then (tap, none)
    else
      let (tap, placement) := tap.put blend block resampled rate cursor lookbehindNs
      (tap, some placement)

/-- The blocks in order, each with the cursor and the look-behind of its turn. -/
def serve (create : UInt32 → UInt32 → UInt8 → Option (Resampler S)) (blend : S → S → ℚ → S)
    (rate : UInt32) (turns : Nat → Int × Int) :
    Nat → Tap S → List (MonitorBlock S) → Tap S × List (Placement S)
  | _, tap, [] => (tap, [])
  | turn, tap, block :: rest =>
    let (cursor, lookbehindNs) := turns turn
    let (tap, placement) := tap.place create blend rate cursor lookbehindNs block
    let (tap, placements) := tap.serve create blend rate turns (turn + 1) rest
    (tap, placement.toList ++ placements)

end Tap

end VbanStream
