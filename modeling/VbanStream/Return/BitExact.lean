import VbanStream.Return.Passthrough

namespace VbanStream

open Library

namespace Tap

open MonitorClock

variable {S : Type*} {rate : UInt32} {speakers : UInt8}

section Callbacks

variable {callback : Callback S} {start : UInt64}

/-- Callbacks whose timestamps count the frames before them. -/
def Undrifted (start : UInt64) (rate : UInt32) : Nat → List (Callback S) → Prop
  | _, [] => True
  | earlier, callback :: rest =>
    callback.timestamp = start + framesToNs (UInt64.ofNat earlier) rate ∧
      Undrifted start rate (earlier + callback.frames.toNat) rest

/-- Callbacks of one format without a sync offset, whose loop counter does not wrap. -/
structure Regular (callback : Callback S) (speakers : UInt8) : Prop where
  speakers : callback.speakers = speakers
  undelayed : callback.syncNs = 0
  bounded : callback.frames.toNat ≤ 2 ^ 32 - 256

/-- The blocks that `split` makes from frame `s` on hold the rest of the callback. -/
structure Splits (callback : Callback S) (start : UInt64) (rate : UInt32) (speakers : UInt8)
    (earlier s : Nat) (blocks : List (MonitorBlock S)) : Prop where
  heard : blocks.flatMap MonitorBlock.stereo = callback.stereo.drop s
  onward : ∀ rest, Sequence start rate speakers (earlier + callback.frames.toNat) rest →
    Sequence start rate speakers (earlier + min s callback.frames.toNat) (blocks ++ rest)

theorem splits_past {earlier s : Nat} (past : callback.frames.toNat ≤ s) :
    Splits callback start rate speakers earlier s [] := by
  constructor
  · rw [List.drop_eq_nil_of_le]
    · rfl
    · simpa [Callback.stereo] using past
  · intro rest sequence
    rwa [Nat.min_eq_right past]

theorem block_frames (rate : UInt32) {s : UInt32} (inside : s < callback.frames) :
    (callback.block rate s).frames.toNat = min 256 (callback.frames.toNat - s.toNat) := by
  have order := UInt32.lt_iff_toNat_lt.mp inside
  have remaining : (callback.frames - s).toNat = callback.frames.toNat - s.toNat :=
    UInt32.toNat_sub_of_le _ _ (UInt32.le_iff_toNat_le.mpr order.le)
  have whole : (256 : UInt32).toNat = 256 := rfl
  show (if callback.frames - s < 256 then callback.frames - s else 256).toNat = _
  split
  · rename_i short
    rw [UInt32.lt_iff_toNat_lt, remaining, whole] at short
    omega
  · rename_i long
    rw [UInt32.lt_iff_toNat_lt, remaining, whole] at long
    omega

theorem block_stereo {s : UInt32} (inside : s < callback.frames) :
    (callback.block rate s).stereo = (callback.stereo.drop s.toNat).take 256 := by
  apply List.ext_getElem
  · simp [MonitorBlock.stereo, Callback.stereo, block_frames rate inside]
  · intro i left right
    simp [MonitorBlock.stereo, Callback.stereo, Callback.block]

theorem Regular.split (regular : Regular callback speakers) {earlier : Nat}
    (stamped : callback.timestamp = start + framesToNs (UInt64.ofNat earlier) rate) (turns : Nat)
    (s : UInt32) (enough : callback.frames.toNat ≤ s.toNat + 256 * turns) :
    ∃ blocks, callback.split rate (turns + 1) s = some blocks ∧
      Splits callback start rate speakers earlier s.toNat blocks := by
  induction turns generalizing s with
  | zero =>
    have past : ¬ s < callback.frames := by
      rw [UInt32.lt_iff_toNat_lt]
      omega
    exact ⟨[], by rw [Callback.split, if_neg past], splits_past (by omega)⟩
  | succ turns ih =>
    by_cases inside : s < callback.frames
    · have order := UInt32.lt_iff_toNat_lt.mp inside
      have bounded := regular.bounded
      have whole : (256 : UInt32).toNat = 256 := rfl
      have next : (s + 256).toNat = s.toNat + 256 := by
        rw [UInt32.toNat_add, whole]
        omega
      obtain ⟨blocks, made, splits⟩ := ih (s + 256) (by omega)
      refine ⟨callback.block rate s :: blocks, ?_, ?_, ?_⟩
      · rw [Callback.split, if_pos inside, made, Option.map_some]
      · rw [List.flatMap_cons, splits.heard, block_stereo inside, next, ← List.drop_drop,
          List.take_append_drop]
      · intro rest sequence
        have follows := splits.onward rest sequence
        have length := block_frames rate inside
        rw [Nat.min_eq_left order.le, List.cons_append]
        refine .cons ⟨earlier, s.toNat, rfl, ?_⟩
          ⟨rfl, regular.speakers, regular.undelayed, by omega⟩ (by omega) ?_
        · have precise : UInt64.ofNat s.toNat = s.toUInt64 := by
            apply UInt64.toNat_inj.mp
            simp
          rw [precise, ← stamped]
          rfl
        · convert follows using 1
          omega
    · refine ⟨[], by rw [Callback.split, if_neg inside], splits_past ?_⟩
      exact Nat.le_of_not_lt (mt UInt32.lt_iff_toNat_lt.mpr inside)

/-- The loop of `capture` ends, and its blocks are the callback. -/
theorem Regular.blocks (regular : Regular callback speakers) {earlier : Nat}
    (stamped : callback.timestamp = start + framesToNs (UInt64.ofNat earlier) rate) :
    callback.split rate (2 ^ 24) 0 = some (callback.blocks rate) ∧
      Splits callback start rate speakers earlier 0 (callback.blocks rate) := by
  have bounded := regular.bounded
  have zero : (0 : UInt32).toNat = 0 := rfl
  obtain ⟨blocks, made, splits⟩ := regular.split stamped 16777215 0 (by omega)
  have enough : callback.split rate (2 ^ 24) 0 = some blocks := made
  rw [Callback.blocks, enough, Option.getD_some]
  exact ⟨rfl, splits⟩

/-- All callbacks together are one sequence. -/
theorem Undrifted.sequence {callbacks : List (Callback S)} {earlier : Nat}
    (undrifted : Undrifted start rate earlier callbacks)
    (regular : ∀ callback ∈ callbacks, Regular callback speakers) :
    Sequence start rate speakers earlier (callbacks.flatMap fun callback => callback.blocks rate) ∧
      (callbacks.flatMap fun callback => callback.blocks rate).flatMap MonitorBlock.stereo =
        callbacks.flatMap Callback.stereo ∧
      ∀ callback ∈ callbacks, callback.split rate (2 ^ 24) 0 = some (callback.blocks rate) := by
  induction callbacks generalizing earlier with
  | nil => exact ⟨.nil, rfl, nofun⟩
  | cons callback rest ih =>
    obtain ⟨stamped, later⟩ := undrifted
    obtain ⟨made, splits⟩ := (regular callback (List.mem_cons_self ..)).blocks stamped
    obtain ⟨sequence, heard, ends⟩ := ih later fun other member =>
      regular other (List.mem_cons_of_mem _ member)
    have onward := splits.onward _ sequence
    rw [Nat.zero_min, Nat.add_zero] at onward
    refine ⟨?_, ?_, ?_⟩
    · rwa [List.flatMap_cons]
    · rw [List.flatMap_cons, List.flatMap_append, heard, splits.heard, List.drop_zero,
        List.flatMap_cons]
    · intro other member
      rcases List.mem_cons.mp member with rfl | tail
      · exact made
      · exact ends other tail

end Callbacks

end Tap

open Tap in
/-- A source that counts its own frames passes through bit by bit, as long as its timestamps
fit a signed 64-bit clock: `capture` splits every callback, no block is corrected or reported
as a discontinuity, and the timeline is given the frames of the callbacks from the start time
on, one position after the other. -/
theorem passthrough {S : Type*} [Zero S] [Add S] [Mul S] (start : UInt64) (rate : UInt32)
    (origin : start.toNat < 2 ^ 62) (audible : 1000 ≤ rate.toNat) (small : rate.toNat ≤ 1000000)
    (callbacks : List (Callback S)) (speakers : UInt8)
    (undrifted : Undrifted start rate 0 callbacks)
    (regular : ∀ callback ∈ callbacks, Regular callback speakers)
    (early : ∀ block ∈ callbacks.flatMap fun callback => callback.blocks rate,
      block.timestamp.toNat < 2 ^ 63)
    (direct : ∀ block ∈ (callbacks.flatMap fun callback => callback.blocks rate).head?,
      (request block).Direct rate)
    (create : UInt32 → UInt32 → UInt8 → Option (Resampler S))
    (made : create rate rate speakers = some identity) (blend : S → S → ℚ → S) (tap : Tap S)
    (fresh : tap.resampler = none) (turns : Nat → Int × Int) :
    let result := tap.serve create blend rate turns 0
      (callbacks.flatMap fun callback => callback.blocks rate)
    (∀ callback ∈ callbacks, callback.split rate (2 ^ 24) 0 = some (callback.blocks rate)) ∧
      result.1.discontinuities = tap.discontinuities ∧
      result.1.clockCorrections = tap.clockCorrections ∧
      result.2.flatMap Placement.stereo =
        numbered (nsToFrames start.toInt64.toInt rate) 0 (callbacks.flatMap Callback.stereo) := by
  obtain ⟨sequence, heard, ends⟩ := undrifted.sequence regular
  obtain ⟨_, served⟩ := serve_first fresh blend made audible small sequence early direct turns
  rw [heard, ← toInt64_of_small (by omega)] at served
  exact ⟨ends, served⟩

open Tap in
/-- Two callbacks at 48 kHz, from one second on. -/
theorem passthrough_short :
    let callbacks : List (Callback Int) :=
      [⟨fun c i => c + 2 * i, 2, 1000000000, 1000000000, 0, 2, 1⟩,
        ⟨fun c _ => 7 + c, 1, 1000041666, 1000050000, 0, 2, 1⟩]
    let tap : Tap Int :=
      ⟨StereoTimeline.empty, {}, ⟨false, 0, 0⟩, none, 0, 0, 0, 0, 0, 0⟩
    (tap.serve (fun _ _ _ => some identity) (fun left _ _ => left) 48000 (fun _ => (0, 0)) 0
      (callbacks.flatMap fun callback => callback.blocks 48000)).2.flatMap Placement.stereo =
        [(48000, 0, 1), (48001, 2, 3), (48002, 7, 8)] := by
  intro callbacks tap
  have regular : ∀ callback ∈ callbacks, Regular callback 2 := by
    intro callback member
    rcases List.mem_pair.mp member with rfl | rfl
    · exact ⟨rfl, rfl, by decide⟩
    · exact ⟨rfl, rfl, by decide⟩
  have served := passthrough 1000000000 48000 (by decide) (by decide) (by decide) callbacks 2
    ⟨by decide, by decide, trivial⟩ regular (by decide +kernel) (by decide +kernel)
    (fun _ _ _ => some identity) rfl (fun left _ _ => left) tap rfl fun _ => (0, 0)
  exact served.2.2.2

namespace Tap

section Overflow

open MonitorClock

variable {create : UInt32 → UInt32 → UInt8 → Option (Resampler Int)} {blend : Int → Int → ℚ → Int}
  {rate : UInt32} {speakers : UInt8} {target : Int} {tap : Tap Int} {block : MonitorBlock Int}

/-- A timestamp more than half a second off sets the clock anew. -/
theorem position_jump {clock : MonitorClock} {request : Request}
    (initialized : clock.initialized = true) (direct : request.Direct rate)
    (audible : 1000 ≤ rate.toNat)
    (far : ((rate / 2).toNat : Int) < |request.stamp rate - clock.expectedTimestamp|) :
    (clock.position request.timestamp request.arrival request.frames
      rate).1.discontinuity = true := by
  have anchored : ({ clock with adjustedFrames := request.frames, discontinuity := false } :
      MonitorClock).anchor (request.stamp rate) (nsToFrames request.arrival.toInt64.toInt rate)
        rate = { clock with
          adjustedFrames := request.frames
          discontinuity := true
          offset := 0
          next := request.stamp rate
          initialized := true
          arrivalError := 0 } := by
    rw [anchor, if_pos (.inr far)]
    simp only [if_pos (show _ < _ from direct), initialized, Int.add_zero]
  change (correct (follow (anchor _ (request.stamp rate) _ _) _ _ _ _) (request.stamp rate)
    _ _).discontinuity = true
  rw [anchored, follow_direct rfl, correct_exact rfl audible (by simp)]

theorem put_jump (blend : Int → Int → ℚ → Int) (output : Nat → Int) (cursor lookbehindNs : Int)
    (jumps : (tap.clock.position block.timestamp block.arrival block.frames
      rate).1.discontinuity = true) :
    (tap.put blend block ⟨block.frames, output, 0⟩ rate cursor
      lookbehindNs).1.discontinuities = tap.discontinuities + 1 := by
  unfold put
  generalize tap.clock.position block.timestamp block.arrival block.frames rate = answer
    at jumps ⊢
  simp only [jumps, if_true]

/-- A jump is counted as a discontinuity. -/
theorem Ready.jump (ready : Ready tap rate speakers target) (plain : Plain block rate speakers)
    (direct : (request block).Direct rate) (audible : 1000 ≤ rate.toNat)
    (far : ((rate / 2).toNat : Int) <
      |(request block).stamp rate - tap.clock.expectedTimestamp|) (cursor lookbehindNs : Int) :
    (tap.place create blend rate cursor lookbehindNs block).1.discontinuities =
      tap.discontinuities + 1 := by
  have jumps := position_jump ready.inStep.initialized direct audible far
  have counted := put_jump blend (fun j => block.samples (j % 2) (j / 2)) cursor lookbehindNs jumps
  simp only [Tap.place, ready.tune create plain, ready.resampler, identity, Option.bind_some,
    if_neg plain.frames_ne]
  exact counted

theorem serve_append (turns : Nat → Int × Int) (turn : Nat) (tap : Tap Int)
    (first : List (MonitorBlock Int)) (last : MonitorBlock Int) :
    (tap.serve create blend rate turns turn (first ++ [last])).1 =
      ((tap.serve create blend rate turns turn first).1.place create blend rate
        (turns (turn + first.length)).1 (turns (turn + first.length)).2 last).1 := by
  induction first generalizing tap turn with
  | nil => rfl
  | cons block rest ih =>
    rw [List.length_cons, ← Nat.add_assoc, Nat.add_right_comm]
    exact ih (turn + 1) _

/-- Callbacks of 256 frames at 1 kHz, from `2 ^ 62 - 1` nanoseconds on. -/
def slow (i : Nat) : Callback Int where
  data _ _ := 0
  frames := 256
  timestamp := 4611686018427387903 + framesToNs (UInt64.ofNat (256 * i)) 1000
  arrival := 4611686018427387903 + framesToNs (UInt64.ofNat (256 * i)) 1000
  syncNs := 0
  speakers := 2
  gain := 1

theorem framesToNs_slow {i : Nat} (early : i ≤ 18014398510) :
    (framesToNs (UInt64.ofNat (256 * i)) 1000).toNat = 256000000 * i := by
  have rate : (1000 : UInt32).toNat = 1000 := rfl
  have precise : nanoseconds (256 * i) 1000 = 256000000 * i := by
    rw [nanoseconds]
    omega
  rw [framesToNs_ofNat (by decide) (by decide) (by rw [rate, precise]; omega), rate, precise]

theorem slow_timestamp {i : Nat} (early : i ≤ 18014398510) :
    (slow i).timestamp.toNat = 4611686018427387903 + 256000000 * i := by
  have start : (4611686018427387903 : UInt64).toNat = 4611686018427387903 := rfl
  rw [slow, UInt64.toNat_add, framesToNs_slow early, start]
  omega

theorem slow_undrifted (count first : Nat) :
    Undrifted 4611686018427387903 1000 (256 * first) ((List.range' first count).map slow) := by
  induction count generalizing first with
  | zero => trivial
  | succ count ih => exact ⟨rfl, ih (first + 1)⟩

theorem slow_regular (i : Nat) : Regular (slow i) 2 :=
  ⟨rfl, rfl, (by decide : (256 : UInt32).toNat ≤ 2 ^ 32 - 256)⟩

theorem slow_blocks (i : Nat) : (slow i).blocks 1000 = [(slow i).block 1000 0] := by
  have made : (slow i).split 1000 (16777214 + 1 + 1) 0 = some [(slow i).block 1000 0] := by
    have inside : (0 : UInt32) < (slow i).frames := (by decide : (0 : UInt32) < 256)
    have past : ¬ (0 + 256 : UInt32) < (slow i).frames := (by decide : ¬ (0 + 256 : UInt32) < 256)
    rw [Callback.split, if_pos inside, Callback.split, if_neg past, Option.map_some]
  exact congrArg (Option.getD · []) made

theorem slow_flatMap (count first : Nat) :
    ((List.range' first count).map slow).flatMap (fun callback => callback.blocks 1000) =
      (List.range' first count).map fun i => (slow i).block 1000 0 := by
  induction count generalizing first with
  | zero => rfl
  | succ count ih =>
    rw [List.range'_succ, List.map_cons, List.flatMap_cons, slow_blocks, ih, List.map_cons,
      List.singleton_append]

theorem slow_block_timestamp {i : Nat} (early : i ≤ 18014398510) :
    ((slow i).block 1000 0).timestamp.toNat = 4611686018427387903 + 256000000 * i := by
  rw [← slow_timestamp early]
  show ((slow i).timestamp + framesToNs (UInt32.toUInt64 0) 1000).toNat = _
  have none : framesToNs (UInt32.toUInt64 0) 1000 = 0 := by decide
  rw [none, UInt64.add_zero]

theorem slow_block_frames (i : Nat) : ((slow i).block 1000 0).frames.toNat = 256 :=
  (by decide : (if (256 : UInt32) - 0 < 256 then (256 : UInt32) - 0 else 256).toNat = 256)

theorem slow_concat (count : Nat) :
    (((List.range' 0 (count + 1)).map slow).flatMap fun callback => callback.blocks 1000) =
      ((List.range' 0 count).map fun i => (slow i).block 1000 0) ++
        [(slow count).block 1000 0] := by
  rw [slow_flatMap, List.range'_concat, List.map_append, List.map_singleton]
  simp

theorem slow_early {count : Nat} (few : count ≤ 18014398510) :
    ∀ block ∈ (List.range' 0 count).map (fun i => (slow i).block 1000 0),
      block.timestamp.toNat < 2 ^ 63 := by
  intro block member
  obtain ⟨i, inside, rfl⟩ := List.mem_map.mp member
  have bound := (List.mem_range'_1.mp inside).2
  rw [slow_block_timestamp (by omega)]
  omega

theorem slow_length (count : Nat) :
    (((List.range' 0 count).map fun i => (slow i).block 1000 0).flatMap
      MonitorBlock.stereo).length = 256 * count := by
  simp [List.length_flatMap, Function.comp_def, stereo_length, slow_block_frames, Nat.mul_comm]

/-- The last of these blocks is stamped after `2 ^ 63` nanoseconds. -/
theorem slow_overflows (count : Nat) (last : count = 18014398510)
    (made : create 1000 1000 2 = some identity) (fresh : tap.resampler = none)
    (turns : Nat → Int × Int) :
    (tap.serve create blend 1000 turns 0 (((List.range' 0 (count + 1)).map slow).flatMap
      fun callback => callback.blocks 1000)).1.discontinuities = tap.discontinuities + 1 := by
  obtain ⟨sequence, _, _⟩ := (slow_undrifted count 0).sequence fun callback member => by
    obtain ⟨i, _, rfl⟩ := List.mem_map.mp member
    exact slow_regular i
  rw [slow_flatMap] at sequence
  have direct : ∀ block ∈ ((List.range' 0 count).map fun i => (slow i).block 1000 0).head?,
      (request block).Direct 1000 := by
    rw [last]
    rintro _ ⟨⟩
    decide +kernel
  obtain ⟨ready, same, _, _⟩ := serve_first fresh blend made (by decide) (by decide) sequence
    (slow_early last.le) direct turns
  have ready := ready (by rw [last]; simp)
  have stamp : (request ((slow count).block 1000 0)).stamp 1000 = -9223372036722 := by
    rw [last]
    decide +kernel
  have behind := ready.inStep.behind
  rw [slow_length] at behind
  have origin : nsToFrames (4611686018427387903 : UInt64).toNat 1000 = 4611686018427 := by
    decide +kernel
  rw [slow_concat, serve_append, ready.jump, same]
  · exact ⟨rfl, rfl, rfl, by rw [slow_block_frames]; decide⟩
  · rw [last]
    decide +kernel
  · decide
  · have half : ((1000 / 2 : UInt32).toNat : Int) = 500 := rfl
    rw [stamp, half, lt_abs]
    omega

/-- The 32-bit counter of the loop steps over the end of the longest callbacks. -/
theorem split_endless {callback : Callback Int} (longest : callback.frames.toNat = 2 ^ 32 - 1)
    (rate : UInt32) (fuel : Nat) {s : UInt32} (aligned : s.toNat % 256 = 0) :
    callback.split rate fuel s = none := by
  induction fuel generalizing s with
  | zero => rfl
  | succ fuel ih =>
    have bound := s.toNat_lt
    have inside : s < callback.frames := by
      rw [UInt32.lt_iff_toNat_lt, longest]
      omega
    have next : (s + 256).toNat % 256 = 0 := by
      have whole : (256 : UInt32).toNat = 256 := rfl
      rw [UInt32.toNat_add, whole]
      omega
    rw [Callback.split, if_pos inside, ih next, Option.map_none]

end Overflow

end Tap

open Tap in
/-- After `2 ^ 63` nanoseconds a discontinuity is reported, and a callback of `2 ^ 32 - 1`
frames is never done. -/
theorem passthrough_overflows :
    (∃ (start : UInt64) (rate : UInt32) (callbacks : List (Callback Int)) (speakers : UInt8)
      (create : UInt32 → UInt32 → UInt8 → Option (Resampler Int)) (blend : Int → Int → ℚ → Int)
      (tap : Tap Int) (turns : Nat → Int × Int),
      start.toNat < 2 ^ 62 ∧ 1000 ≤ rate.toNat ∧ rate.toNat ≤ 1000000 ∧
        Undrifted start rate 0 callbacks ∧ (∀ callback ∈ callbacks, Regular callback speakers) ∧
        (∀ block ∈ (callbacks.flatMap fun callback => callback.blocks rate).head?,
          (request block).Direct rate) ∧
        create rate rate speakers = some identity ∧ tap.resampler = none ∧
        (tap.serve create blend rate turns 0
          (callbacks.flatMap fun callback => callback.blocks rate)).1.discontinuities ≠
            tap.discontinuities) ∧
      ∃ callback : Callback Int, ∀ fuel, callback.split 48000 fuel 0 = none := by
  constructor
  · refine ⟨4611686018427387903, 1000, (List.range' 0 (18014398510 + 1)).map slow, 2,
      fun _ _ _ => some identity, fun left _ _ => left,
      ⟨StereoTimeline.empty, {}, ⟨false, 0, 0⟩, none, 0, 0, 0, 0, 0, 0⟩, fun _ => (0, 0),
      by decide, by decide, by decide, slow_undrifted _ 0, ?_, ?_, rfl, rfl, ?_⟩
    · intro callback member
      obtain ⟨i, _, rfl⟩ := List.mem_map.mp member
      exact slow_regular i
    · rw [slow_flatMap]
      rintro _ ⟨⟩
      decide +kernel
    · rw [slow_overflows _ rfl rfl rfl]
      exact Nat.succ_ne_self _
  · exact ⟨⟨fun _ _ => 0, 4294967295, 0, 0, 0, 2, 1⟩, fun fuel =>
      split_endless rfl 48000 fuel rfl⟩

end VbanStream
