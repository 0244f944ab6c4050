import VbanStream.Protocol.Audio
import VbanStream.Library.Binary

/-! `MonitorClock`: where the blocks of one source lie on the output clock. A block is
stretched or shrunk by one frame when its timestamp is more than a frame off. -/

namespace VbanStream

open Library

/-- Signed division truncates, here in both steps. The products are those of `int64_t` for rates
up to 1000000, as `nsToFramesWithin_eq` proves. -/
def nsToFrames (ns : Int) (rate : UInt32) : Int :=
  ns.tdiv 1000000000 * rate.toNat + (ns.tmod 1000000000 * rate.toNat).tdiv 1000000000

structure MonitorClock where
  initialized : Bool := false
  discontinuity : Bool := false
  offset : Int := 0
  next : Int := 0
  expectedTimestamp : Int := 0
  adjustedFrames : UInt32 := 0
  arrivalError : ℚ := 0

namespace MonitorClock

/-- The first block, or one that is far from where it was expected, sets the clock anew. -/
def anchor (clock : MonitorClock) (ts now : Int) (rate : UInt32) : MonitorClock :=
  if clock.initialized = false ∨ |ts - clock.expectedTimestamp| > ((rate / 2).toNat : Int) then
    let offset := if |ts - now| < ((rate * 2).toNat : Int) then 0 else now - ts
    { clock with
      discontinuity := clock.initialized
      offset
      next := ts + offset
      initialized := true
      arrivalError := 0 }
  else clock

/-- A foreign clock follows the arrivals through a low-pass filter. -/
def follow (clock : MonitorClock) (ts now : Int) (frames rate : UInt32) : MonitorClock :=
  if clock.offset ≠ 0 then
    let round := binary64.round
    let alpha := min 1 (round ((frames.toNat : ℚ) / rate.toNat))
    let behind := round (round ((ts + clock.offset - now : Int) : ℚ) - clock.arrivalError)
    let arrivalError := round (clock.arrivalError + round (behind * alpha))
    if |arrivalError| > round ((rate.toNat : ℚ) / 200) then
      let correction : Int := if arrivalError < 0 then 1 else -1
      { clock with
        offset := clock.offset + correction
        arrivalError := round (arrivalError + correction) }
    else { clock with arrivalError }
  else clock

/-- A large error is cut out at once, a small one by one frame of this block. -/
def correct (clock : MonitorClock) (ts : Int) (frames rate : UInt32) : MonitorClock :=
  let error := ts + clock.offset - clock.next
  if |error| > ((rate / 100).toNat : Int) then
    { clock with next := ts + clock.offset, discontinuity := true }
  else if frames > 1 ∧ |error| > 1 then
    { clock with adjustedFrames := if error > 0 then frames + 1 else frames - 1 }
  else clock

/-- The position of a block, and the clock after it. -/
def position (clock : MonitorClock) (timestamp arrival : UInt64) (frames rate : UInt32) :
    MonitorClock × Int :=
  let ts := nsToFrames timestamp.toInt64.toInt rate
  let now := nsToFrames arrival.toInt64.toInt rate
  let asked := { clock with adjustedFrames := frames, discontinuity := false }
  let placed := ((asked.anchor ts now rate).follow ts now frames rate).correct ts frames rate
  ({ placed with
      next := placed.next + placed.adjustedFrames.toNat
      expectedTimestamp := ts + frames.toNat },
    placed.next)

def reset (_clock : MonitorClock) : MonitorClock := {}

/-- What a caller asks of the clock. -/
structure Request where
  timestamp : UInt64
  arrival : UInt64
  frames : UInt32

/-- The timestamp in frames. -/
def Request.stamp (request : Request) (rate : UInt32) : Int :=
  nsToFrames request.timestamp.toInt64.toInt rate

/-- The code's test for a source on the local clock, within two seconds of its arrival. -/
def Request.Direct (request : Request) (rate : UInt32) : Prop :=
  |request.stamp rate - nsToFrames request.arrival.toInt64.toInt rate| < ((rate * 2).toNat : Int)

instance (request : Request) (rate : UInt32) : Decidable (request.Direct rate) :=
  inferInstanceAs (Decidable (_ < _))

/-- What the caller reads off the clock after `position`. -/
structure Answer where
  request : Request
  position : Int
  frames : UInt32
  discontinuity : Bool

/-- Calls at one rate, in order. -/
def serve (rate : UInt32) : MonitorClock → List Request → List Answer
  | _, [] => []
  | clock, request :: rest =>
    let (after, position) :=
      clock.position request.timestamp request.arrival request.frames rate
    ⟨request, position, after.adjustedFrames, after.discontinuity⟩ :: serve rate after rest

/-- The frame that is added or left out for an error of more than one frame. -/
def correction (error : Int) : Int := if 1 < error then 1 else if error < -1 then -1 else 0

/-- A direct clock that is at most a frame away from where the next block is expected. -/
structure Locked (clock : MonitorClock) : Prop where
  initialized : clock.initialized = true
  direct : clock.offset = 0
  near : |clock.expectedTimestamp - clock.next| ≤ 1

section Steps

variable {clock : MonitorClock} {request : Request} {rate : UInt32}

theorem correction_close {error : Int} (close : |error| ≤ 2) :
    |error - correction error| ≤ 1 ∧ |correction error| ≤ 1 := by
  simp only [correction, abs_le] at *
  split
  · omega
  · split <;> omega

/-- Small errors never cut: they change the length of this block by their correction. -/
theorem correct_steady (direct : clock.offset = 0) (asked : clock.adjustedFrames = request.frames)
    (audible : 1000 ≤ rate.toNat) (long : 2 ≤ request.frames.toNat)
    (short : request.frames.toNat < 2 ^ 32 - 1) {ts : Int} (close : |ts - clock.next| ≤ 2) :
    ∃ adjusted : UInt32, clock.correct ts request.frames rate =
        { clock with adjustedFrames := adjusted } ∧
      (adjusted.toNat : Int) = request.frames.toNat + correction (ts - clock.next) := by
  have hundredth : (rate / 100).toNat = rate.toNat / 100 := UInt32.toNat_div ..
  have plural : request.frames > 1 := UInt32.lt_iff_toNat_lt.mpr long
  have one : (1 : UInt32).toNat = 1 := rfl
  have error : ts + clock.offset - clock.next = ts - clock.next := by rw [direct, Int.add_zero]
  simp only [correct, error, correction]
  rw [if_neg (by omega)]
  by_cases far : |ts - clock.next| > 1
  · rw [if_pos ⟨plural, far⟩]
    refine ⟨_, rfl, ?_⟩
    rcases lt_abs.mp far with ahead | behind
    · rw [if_pos (by omega), if_pos ahead, UInt32.toNat_add, one]
      omega
    · rw [if_neg (by omega), if_neg (by omega), if_pos (by omega), UInt32.toNat_sub, one]
      omega
  · obtain ⟨low, high⟩ := abs_le.mp (not_lt.mp far)
    rw [if_neg (fun both => far both.2), if_neg (by omega), if_neg (by omega)]
    exact ⟨clock.adjustedFrames, rfl, by rw [asked, Int.add_zero]⟩

/-- What one call does to a clock that keeps up. -/
structure Kept (clock after : MonitorClock) (position : Int) (request : Request)
    (rate : UInt32) : Prop where
  locked : Locked after
  expected : after.expectedTimestamp = request.stamp rate + request.frames.toNat
  steady : after.discontinuity = false
  placed : position = clock.next
  close : |position - request.stamp rate| ≤ 2
  adjusted : (after.adjustedFrames.toNat : Int) =
    request.frames.toNat + correction (request.stamp rate - position)
  next : after.next = position + after.adjustedFrames.toNat

theorem follow_direct (direct : clock.offset = 0) (ts now : Int) (frames : UInt32) :
    clock.follow ts now frames rate = clock := by
  rw [follow, if_neg (not_not.mpr direct)]

theorem anchor_expected (clock : MonitorClock) (initialized : clock.initialized = true)
    (ts now : Int) (rate : UInt32)
    (expected : |ts - clock.expectedTimestamp| ≤ ((rate / 2).toNat : Int)) :
    clock.anchor ts now rate = clock := by
  rw [anchor, if_neg]
  rintro (fresh | far)
  · simp [initialized] at fresh
  · exact absurd expected (not_le.mpr far)

/-- The last two stages of a call, once the clock is anchored. -/
theorem kept_of_anchored (clock anchored : MonitorClock) (initialized : anchored.initialized = true)
    (direct : anchored.offset = 0) (steady : anchored.discontinuity = false)
    (asked : anchored.adjustedFrames = request.frames) (next : anchored.next = clock.next)
    (audible : 1000 ≤ rate.toNat) (long : 2 ≤ request.frames.toNat)
    (short : request.frames.toNat < 2 ^ 32 - 1) (now : Int)
    (close : |request.stamp rate - clock.next| ≤ 2) :
    let placed := (anchored.follow (request.stamp rate) now request.frames rate).correct
      (request.stamp rate) request.frames rate
    Kept clock { placed with
      next := placed.next + placed.adjustedFrames.toNat
      expectedTimestamp := request.stamp rate + request.frames.toNat }
        placed.next request rate := by
  rw [← next] at close
  obtain ⟨adjusted, corrected, length⟩ :=
    correct_steady direct asked audible long short close
  obtain ⟨near, _⟩ := correction_close close
  rw [follow_direct direct, corrected]
  refine ⟨⟨initialized, direct, ?_⟩, rfl, steady, next, ?_, length, rfl⟩
  · show |request.stamp rate + request.frames.toNat - (anchored.next + adjusted.toNat)| ≤ 1
    rw [length]
    convert near using 2
    omega
  · rw [abs_sub_comm]
    exact close

/-- A clock in step places the next block after the last one. -/
theorem Locked.position (locked : Locked clock) (audible : 1000 ≤ rate.toNat)
    (long : 2 ≤ request.frames.toNat) (short : request.frames.toNat < 2 ^ 32 - 1)
    (expected : |request.stamp rate - clock.expectedTimestamp| ≤ 1) :
    let answer := clock.position request.timestamp request.arrival request.frames rate
    Kept clock answer.1 answer.2 request rate := by
  have half : (rate / 2).toNat = rate.toNat / 2 := UInt32.toNat_div ..
  have near := locked.near
  have close : |request.stamp rate - clock.next| ≤ 2 := by
    rw [abs_le] at *
    omega
  have anchored := anchor_expected
    { clock with adjustedFrames := request.frames, discontinuity := false } locked.initialized
    (request.stamp rate) (nsToFrames request.arrival.toInt64.toInt rate) rate
    (by rw [half]; exact expected.trans (by omega))
  have kept := kept_of_anchored clock
    { clock with adjustedFrames := request.frames, discontinuity := false }
    locked.initialized locked.direct rfl rfl rfl audible long short
    (nsToFrames request.arrival.toInt64.toInt rate) close
  rw [← anchored] at kept
  exact kept

/-- The first block of a direct source sets the clock to its timestamp. -/
theorem anchor_fresh (fresh : clock.initialized = false) (request : Request)
    (direct : request.Direct rate) :
    ({ clock with adjustedFrames := request.frames, discontinuity := false } :
      MonitorClock).anchor (request.stamp rate) (nsToFrames request.arrival.toInt64.toInt rate)
        rate = { clock with
          adjustedFrames := request.frames
          discontinuity := false
          offset := 0
          next := request.stamp rate
          initialized := true
          arrivalError := 0 } := by
  rw [anchor, if_pos (.inl fresh)]
  simp only [if_pos (show _ < _ from direct), fresh, Int.add_zero]

theorem position_first (fresh : clock.initialized = false) (direct : request.Direct rate)
    (audible : 1000 ≤ rate.toNat) (long : 2 ≤ request.frames.toNat)
    (short : request.frames.toNat < 2 ^ 32 - 1) :
    let answer := clock.position request.timestamp request.arrival request.frames rate
    Kept { clock with next := request.stamp rate } answer.1 answer.2 request rate := by
  have anchored := anchor_fresh fresh request direct
  have kept := kept_of_anchored { clock with next := request.stamp rate }
    (({ clock with adjustedFrames := request.frames, discontinuity := false } :
      MonitorClock).anchor (request.stamp rate)
        (nsToFrames request.arrival.toInt64.toInt rate) rate)
    (by rw [anchored]) (by rw [anchored]) (by rw [anchored]) (by rw [anchored])
    (by rw [anchored]) audible long short (nsToFrames request.arrival.toInt64.toInt rate)
    (by simp)
  exact kept

/-- Successive timestamps are a block apart, up to one frame. -/
def Successive (rate : UInt32) (earlier later : Request) : Prop :=
  |later.stamp rate - earlier.stamp rate - earlier.frames.toNat| ≤ 1

/-- An answer without a cut, for a length and a position close to what was asked. -/
def Answer.Smooth (rate : UInt32) (answer : Answer) : Prop :=
  answer.discontinuity = false ∧
    |(answer.frames.toNat : Int) - answer.request.frames.toNat| ≤ 1 ∧
    |answer.position - answer.request.stamp rate| ≤ 2

/-- The next block starts where this one ends. -/
def Answer.Continued (earlier later : Answer) : Prop :=
  later.position = earlier.position + earlier.frames.toNat

theorem Kept.smooth {after : MonitorClock} {position : Int}
    (kept : Kept clock after position request rate) :
    Answer.Smooth rate ⟨request, position, after.adjustedFrames, after.discontinuity⟩ := by
  have close := kept.close
  rw [abs_sub_comm] at close
  have bounded := (correction_close close).2
  refine ⟨kept.steady, ?_, kept.close⟩
  show |(after.adjustedFrames.toNat : Int) - request.frames.toNat| ≤ 1
  rwa [kept.adjusted, add_sub_cancel_left]

end Steps

variable {clock : MonitorClock} {rate : UInt32}

/-- From a clock in step, every later call stays in step. -/
theorem serve_smooth (audible : 1000 ≤ rate.toNat) (requests : List Request)
    (sizes : ∀ request ∈ requests, 2 ≤ request.frames.toNat ∧ request.frames.toNat < 2 ^ 32 - 1)
    (last : Request) (locked : Locked clock)
    (expected : clock.expectedTimestamp = last.stamp rate + last.frames.toNat)
    (steady : (last :: requests).IsChain (Successive rate)) :
    (∀ answer ∈ serve rate clock requests, answer.Smooth rate) ∧
      (serve rate clock requests).IsChain Answer.Continued ∧
      ∀ answer ∈ (serve rate clock requests).head?, answer.position = clock.next := by
  induction requests generalizing clock last with
  | nil => exact ⟨nofun, .nil, nofun⟩
  | cons request rest ih =>
    obtain ⟨succeeds, onward⟩ := List.isChain_cons_cons.mp steady
    obtain ⟨long, short⟩ := sizes request (List.mem_cons_self ..)
    have near : |request.stamp rate - clock.expectedTimestamp| ≤ 1 := by
      rw [expected, ← sub_sub]
      exact succeeds
    have kept := locked.position audible long short near
    obtain ⟨smooth, chained, starts⟩ := ih (fun other member =>
      sizes other (List.mem_cons_of_mem _ member)) request kept.locked kept.expected onward
    refine ⟨?_, ?_, ?_⟩
    · intro answer member
      rcases List.mem_cons.mp member with rfl | later
      · exact kept.smooth
      · exact smooth answer later
    · apply List.IsChain.cons chained
      intro answer begins
      exact (starts answer begins).trans kept.next
    · rintro _ ⟨⟩
      exact kept.placed

/-- A source clock that drifts by up to a frame a block never cuts the audio: no call reports
a discontinuity, the lengths differ by at most one frame from what was asked, the positions
join, and stay within two frames of the timestamps. The clock computes without overflow at
the rates of `nsToFramesWithin_eq`. -/
theorem drift_contiguous (audible : 1000 ≤ rate.toNat) (fresh : clock.initialized = false)
    (first : Request) (rest : List Request) (direct : first.Direct rate)
    (sizes : ∀ request ∈ first :: rest,
      2 ≤ request.frames.toNat ∧ request.frames.toNat < 2 ^ 32 - 1)
    (steady : (first :: rest).IsChain (Successive rate)) :
    (∀ answer ∈ serve rate clock (first :: rest), answer.discontinuity = false ∧
        |(answer.frames.toNat : Int) - answer.request.frames.toNat| ≤ 1 ∧
        |answer.position - answer.request.stamp rate| ≤ 2) ∧
      (serve rate clock (first :: rest)).IsChain fun (earlier later : Answer) =>
        later.position = earlier.position + earlier.frames.toNat := by
  obtain ⟨long, short⟩ := sizes first (List.mem_cons_self ..)
  have kept := position_first fresh direct audible long short
  obtain ⟨smooth, chained, starts⟩ := serve_smooth audible rest
    (fun other member => sizes other (List.mem_cons_of_mem _ member)) first kept.locked
    kept.expected steady
  constructor
  · intro answer member
    rcases List.mem_cons.mp member with rfl | later
    · exact kept.smooth
    · exact smooth answer later
  · refine List.IsChain.cons (R := Answer.Continued) chained ?_
    intro answer begins
    exact (starts answer begins).trans kept.next

/-- Two late frames are made up for in the third block. -/
theorem drift_contiguous_late :
    let answers := serve 48000 {} [⟨0, 0, 256⟩, ⟨5355000, 5355000, 256⟩, ⟨10709000, 10709000, 256⟩]
    (answers.IsChain fun (earlier later : Answer) =>
        later.position = earlier.position + earlier.frames.toNat) ∧
      answers.map Answer.frames = [256, 256, 257] := by
  refine ⟨(drift_contiguous (by decide) rfl _ _ (by decide) (by decide) ?_).2, by decide +kernel⟩
  simp only [List.isChain_cons_cons, List.isChain_singleton, and_true, Successive]
  decide +kernel

/-- A block of `2 ^ 32 - 1` frames cannot be stretched: its length wraps to zero, and the next
block is cut out of the sequence. -/
theorem drift_wraps : ∃ (rate : UInt32) (first : Request) (rest : List Request),
    1000 ≤ rate.toNat ∧ first.Direct rate ∧
      (∀ request ∈ first :: rest, 2 ≤ request.frames.toNat) ∧
      (first :: rest).IsChain (Successive rate) ∧
      ∃ answer ∈ serve rate {} (first :: rest), answer.discontinuity = true := by
  refine ⟨1000000, ⟨0, 0, 2⟩, [⟨3000, 0, 2⟩, ⟨6000, 0, 4294967295⟩, ⟨4294967301000, 0, 2⟩],
    by decide, by decide, by decide, ?_, ?_⟩
  · simp only [List.isChain_cons_cons, List.isChain_singleton, and_true, Successive]
    decide +kernel
  · apply List.any_eq_true.mp
    decide +kernel

end MonitorClock

end VbanStream
