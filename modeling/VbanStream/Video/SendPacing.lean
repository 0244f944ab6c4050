import VbanStream.Library.Shares
import VbanStream.Video.Completeness
import VbanStream.Video.ProgramOutput

namespace VbanStream

open Library

namespace FrameSender

section Arithmetic

variable (config : FrameOutputConfig) (encoded : List UInt8)

def bitRate : UInt64 := UInt64.ofInt config.mbps * 1000000

/-- `wire_size`: Ethernet and IP overhead is counted for every datagram. -/
def wireBytes : UInt64 :=
  let size := UInt64.ofNat encoded.length
  let packets := (size + 1435) / 1436
  size + packets * (28 + 66)

def transferDuration : UInt64 := wireBytes encoded * 8000000000 / bitRate config

/-- A small image is spread over most of its frame interval. -/
def imageDuration : UInt64 :=
  max (transferDuration config encoded) (850000000 / UInt64.ofInt config.fps)

/-- `previous_bytes` after a datagram. -/
def packetBytes (index : Nat) : UInt64 :=
  UInt64.ofNat (headerSize + (payload encoded index).length) + 66

/-- The nanoseconds that are kept after a datagram. -/
def pause (index : Nat) : UInt64 :=
  packetBytes encoded index * imageDuration config encoded / wireBytes encoded

end Arithmetic

/-- The delays around one datagram: of the end of its wait, up to the check of the sender's
deadline, up to the call of `send`, and in it. -/
structure Delays where
  wake : Nat := 0
  check : Nat := 0
  start : Nat := 0
  send : Nat := 0

/-- One call of `send_image`, with the clock's reading at its start. -/
structure TimedCall where
  config : FrameOutputConfig
  encoded : List UInt8
  began : Nat
  delays : Nat → Delays
  /-- The stop flag is seen before the datagram is sent. -/
  stops : Nat → Bool
  /-- The error code of `send`. -/
  fails : Nat → Option Int

namespace TimedCall

variable (c : TimedCall)

/-- The check of the sender's deadline: all datagrams but the first wait for the pause after
the one before, of which `previous` is the end. -/
def checked (previous index : Nat) : Nat :=
  (if index = 0 then previous
    else previous + (pause c.config c.encoded (index - 1)).toNat) +
    (c.delays index).wake + (c.delays index).check

/-- The clock after the datagrams before `index`. -/
def previousPacket : Nat → Nat
  | 0 => c.began
  | index + 1 =>
    c.checked (previousPacket index) index + (c.delays index).start + (c.delays index).send

/-- The call of `send` for a datagram. -/
def start (index : Nat) : Nat :=
  c.checked (c.previousPacket index) index + (c.delays index).start

/-- The end of the last pause. -/
def paced : Nat :=
  let count := fragmentCount c.encoded
  c.previousPacket count + (pause c.config c.encoded (count - 1)).toNat

/-- What becomes of each datagram. -/
def attempt (index : Nat) : Attempt :=
  if c.stops index then .stopped
  else if c.checked (c.previousPacket index) index - c.began > 1500000000 then .late
  else
    match c.fails index with
    | some code => .failed code
    | none => .sent

def sendCall : SendCall := { config := c.config, encoded := c.encoded, attempts := c.attempt }

end TimedCall

/-- A setting that is allowed, and an image that passes the budget check. -/
structure Budgeted (config : FrameOutputConfig) (encoded : List UInt8) : Prop where
  mbps : config.mbps ∈ [6, 12, 24, 48, 84]
  fps : 1 ≤ config.fps ∧ config.fps ≤ 30
  accepted : ∀ attempts, accepts { config, encoded, attempts } = true

section Exact

variable {config : FrameOutputConfig} {encoded : List UInt8}

theorem toNat_ofInt {value : Int} (low : 0 ≤ value) (high : value < 2 ^ 64) :
    (UInt64.ofInt value).toNat = value.toNat := by
  rw [UInt64.ofInt, UInt64.toNat_ofNat', Int.emod_eq_of_lt low high, Nat.mod_eq_of_lt]
  omega

theorem packetBytes_toNat (encoded : List UInt8) (index : Nat) :
    (packetBytes encoded index).toNat = 28 + (payload encoded index).length + 66 := by
  have short := length_payload encoded index
  have size : (UInt64.ofNat (headerSize + (payload encoded index).length)).toNat =
      28 + (payload encoded index).length := by
    rw [UInt64.toNat_ofNat', headerSize, Nat.mod_eq_of_lt (by omega)]
  rw [packetBytes, UInt64.toNat_add, size]
  simp only [UInt64.reduceToNat]
  omega

theorem sum_packetBytes (encoded : List UInt8) (count : Nat) :
    ∑ k ∈ Finset.range count, (packetBytes encoded k).toNat =
      min encoded.length (count * 1436) + count * 94 := by
  induction count with
  | zero => simp
  | succ count ih =>
    have short := length_payload encoded count
    rw [Finset.sum_range_succ, ih, packetBytes_toNat]
    omega

theorem sum_wireSize (encoded : List UInt8) : ∑ k ∈ Finset.range (fragmentCount encoded),
    (packetBytes encoded k).toNat = wireSize encoded := by
  rw [sum_packetBytes, wireSize, fragmentCount, fragmentBytes, headerSize]
  omega

theorem sum_le_wireSize {count : Nat} (inside : count ≤ fragmentCount encoded) :
    ∑ k ∈ Finset.range count, (packetBytes encoded k).toNat ≤ wireSize encoded := by
  rw [← sum_wireSize]
  exact Finset.sum_le_sum_of_subset (Finset.range_mono inside)

namespace Budgeted

variable (budgeted : Budgeted config encoded)

include budgeted

theorem rate : 6 ≤ config.mbps.toNat ∧ config.mbps.toNat ≤ 84 := by
  have listed := budgeted.mbps
  simp only [List.mem_cons, List.not_mem_nil, or_false] at listed
  omega

theorem sized : 0 < encoded.length ∧ encoded.length ≤ 48 * 1024 * 1024 ∧
    wireSize encoded * 8 ≤ config.mbps.toNat * 1000000 := by
  have accepted := budgeted.accepted fun _ => .sent
  simp only [accepts, Bool.and_eq_true, Bool.not_eq_true', List.isEmpty_eq_false_iff,
    decide_eq_true_eq] at accepted
  obtain ⟨⟨some, small⟩, fits⟩ := accepted
  exact ⟨List.length_pos_iff.mpr some, small, by omega⟩

theorem wireSize_pos : 0 < wireSize encoded :=
  Nat.lt_of_lt_of_le budgeted.sized.1 (Nat.le_add_right ..)

theorem bitRate_toNat : (bitRate config).toNat = config.mbps.toNat * 1000000 := by
  have rate := budgeted.rate
  rw [bitRate, UInt64.toNat_mul, toNat_ofInt (by omega) (by omega)]
  simp only [UInt64.reduceToNat]
  exact Nat.mod_eq_of_lt (by omega)

theorem wireBytes_toNat : (wireBytes encoded).toNat = wireSize encoded := by
  have small := budgeted.sized.2.1
  have size : (UInt64.ofNat encoded.length).toNat = encoded.length := by
    rw [UInt64.toNat_ofNat', Nat.mod_eq_of_lt (by omega)]
  simp only [wireBytes, wireSize, fragmentCount, fragmentBytes, headerSize, UInt64.toNat_add,
    UInt64.toNat_mul, UInt64.toNat_div, size, UInt64.reduceToNat]
  omega

theorem transferDuration_toNat : (transferDuration config encoded).toNat =
    wireSize encoded * 8000000000 / (config.mbps.toNat * 1000000) := by
  have fits := budgeted.sized.2.2
  have rate := budgeted.rate
  rw [transferDuration, UInt64.toNat_div, UInt64.toNat_mul, budgeted.bitRate_toNat,
    budgeted.wireBytes_toNat]
  simp only [UInt64.reduceToNat]
  rw [Nat.mod_eq_of_lt (by omega)]

theorem imageDuration_toNat : (imageDuration config encoded).toNat =
    max (wireSize encoded * 8000000000 / (config.mbps.toNat * 1000000))
      (850000000 / config.fps.toNat) := by
  have fps := budgeted.fps
  have interval : (850000000 / UInt64.ofInt config.fps).toNat = 850000000 / config.fps.toNat := by
    rw [UInt64.toNat_div, toNat_ofInt (by omega) (by omega)]
    rfl
  rw [imageDuration, UInt64.toNat_max, budgeted.transferDuration_toNat, interval]

theorem imageDuration_le : (imageDuration config encoded).toNat ≤ 1000000000 := by
  have fits := budgeted.sized.2.2
  have rate := budgeted.rate
  rw [budgeted.imageDuration_toNat]
  apply max_le
  · apply Nat.div_le_of_le_mul
    omega
  · exact (Nat.div_le_self ..).trans (by decide)

theorem transfer_le_imageDuration : wireSize encoded * 8000000000 ≤
    ((imageDuration config encoded).toNat + 1) * (config.mbps.toNat * 1000000) := by
  have rate := budgeted.rate
  have whole : wireSize encoded * 8000000000 ≤
      (wireSize encoded * 8000000000 / (config.mbps.toNat * 1000000) + 1) *
        (config.mbps.toNat * 1000000) := by
    rw [Nat.succ_mul]
    exact (Nat.lt_div_mul_add (by omega)).le
  apply whole.trans
  apply Nat.mul_le_mul_right
  rw [budgeted.imageDuration_toNat]
  exact Nat.succ_le_succ (le_max_left ..)

theorem product_lt (index : Nat) :
    (packetBytes encoded index).toNat * (imageDuration config encoded).toNat < 2 ^ 64 := by
  have short := length_payload encoded index
  have bytes := packetBytes_toNat encoded index
  calc (packetBytes encoded index).toNat * (imageDuration config encoded).toNat
      ≤ 1530 * 1000000000 := Nat.mul_le_mul (by omega) budgeted.imageDuration_le
    _ < 2 ^ 64 := by decide

theorem pause_toNat (index : Nat) : (pause config encoded index).toNat =
    (packetBytes encoded index).toNat * (imageDuration config encoded).toNat /
      wireSize encoded := by
  rw [pause, UInt64.toNat_div, UInt64.toNat_mul, Nat.mod_eq_of_lt (budgeted.product_lt index),
    budgeted.wireBytes_toNat]

end Budgeted

end Exact

theorem sendFrom_complete {encoded : List UInt8} {attempts : Nat → Attempt}
    (sent : ∀ k < fragmentCount encoded, attempts k = .sent) (packet : Memory)
    {index remaining : Nat} (total : index + remaining = fragmentCount encoded) :
    (sendFrom encoded attempts packet index remaining).complete = true := by
  induction remaining generalizing packet index with
  | zero => rfl
  | succ remaining ih =>
    rw [sendFrom, sent index (by omega)]
    exact ih _ (by omega)

namespace TimedCall

variable {c : TimedCall}

theorem start_apart (c : TimedCall) (index : Nat) :
    c.start index + (pause c.config c.encoded index).toNat ≤ c.start (index + 1) := by
  have later : c.start (index + 1) = c.start index + (c.delays index).send +
      (pause c.config c.encoded index).toNat + (c.delays (index + 1)).wake +
      (c.delays (index + 1)).check + (c.delays (index + 1)).start := rfl
  omega

theorem start_exact (prompt : ∀ k, c.delays k = {}) (index : Nat) :
    c.start index =
      c.began + ∑ k ∈ Finset.range index, (pause c.config c.encoded k).toNat := by
  induction index with
  | zero => simp [start, checked, previousPacket, prompt]
  | succ index ih =>
    have later : c.start (index + 1) = c.start index + (c.delays index).send +
        (pause c.config c.encoded index).toNat + (c.delays (index + 1)).wake +
        (c.delays (index + 1)).check + (c.delays (index + 1)).start := rfl
    rw [later, ih, prompt, prompt, Finset.sum_range_succ, Nat.add_zero, Nat.add_zero, Nat.add_zero,
      Nat.add_zero, Nat.add_assoc]

section Budget

variable (budgeted : Budgeted c.config c.encoded)

include budgeted

theorem pauses_le {count : Nat} (inside : count ≤ fragmentCount c.encoded) :
    ∑ k ∈ Finset.range count, (pause c.config c.encoded k).toNat ≤
      (imageDuration c.config c.encoded).toNat := by
  simp only [budgeted.pause_toNat]
  exact shares_le_total budgeted.wireSize_pos (sum_le_wireSize inside)

theorem start_rate {index : Nat} (inside : index < fragmentCount c.encoded) :
    (∑ k ∈ Finset.range index, (packetBytes c.encoded k).toNat) * 8000000000 ≤
      (c.start index - c.start 0 + (index + 1)) * (c.config.mbps.toNat * 1000000) := by
  apply spaced_rate budgeted.wireSize_pos budgeted.transfer_le_imageDuration
  · intro k
    rw [← budgeted.pause_toNat]
    exact c.start_apart k
  · exact sum_le_wireSize inside.le

theorem start_le (prompt : ∀ k, c.delays k = {}) {index : Nat}
    (inside : index ≤ fragmentCount c.encoded) :
    c.start index ≤ c.began + (imageDuration c.config c.encoded).toNat := by
  rw [start_exact prompt]
  exact Nat.add_le_add_left (pauses_le budgeted inside) _

theorem fragmentCount_pos : 0 < fragmentCount c.encoded := by
  have some := budgeted.sized.1
  rw [fragmentCount, fragmentBytes]
  omega

theorem paced_le (prompt : ∀ k, c.delays k = {}) :
    c.paced ≤ c.began + (imageDuration c.config c.encoded).toNat := by
  obtain ⟨last, count⟩ := Nat.exists_eq_succ_of_ne_zero (fragmentCount_pos budgeted).ne'
  have ended : c.paced = c.start last + (c.delays last).send +
      (pause c.config c.encoded last).toNat := by
    rw [paced, count]
    rfl
  have whole := pauses_le budgeted (le_refl (fragmentCount c.encoded))
  rw [count, Finset.sum_range_succ] at whole
  have none : (c.delays last).send = 0 := by rw [prompt]
  rw [ended, start_exact prompt, none]
  omega

theorem attempt_timely (prompt : ∀ k, c.delays k = {}) {index : Nat}
    (inside : index < fragmentCount c.encoded) : c.attempt index ≠ .late := by
  have early := start_le budgeted prompt inside.le
  have short := budgeted.imageDuration_le
  have checked : c.start index = c.checked (c.previousPacket index) index := by
    rw [start, prompt]
    rfl
  rw [attempt, if_neg (show ¬ c.checked (c.previousPacket index) index - c.began > 1500000000 by
    omega)]
  split
  · exact Attempt.noConfusion
  · split <;> exact Attempt.noConfusion

theorem prompt_complete (prompt : ∀ k, c.delays k = {}) (running : ∀ k, c.stops k = false)
    (taken : ∀ k, c.fails k = none) (sequence : UInt32) :
    (sendImage sequence c.sendCall).2.complete = true := by
  have sent (k : Nat) (inside : k < fragmentCount c.encoded) : c.attempt k = .sent := by
    have timely := attempt_timely budgeted prompt inside
    rw [attempt, if_neg (by rw [running]; decide)] at timely ⊢
    split at timely
    · exact absurd rfl timely
    · rename_i early
      rw [if_neg early, taken]
  have accepted : accepts c.sendCall = true := budgeted.accepted c.attempt
  rw [sendImage, if_neg (by rw [accepted]; decide)]
  exact sendFrom_complete sent _ (Nat.zero_add _)

end Budget

end TimedCall

theorem expire_within (a : FrameAssembler) {first later : Nat} (order : first ≤ later)
    (soon : later ≤ first + 2000000000) (started : a.started = UInt64.ofNat first) :
    a.expire (UInt64.ofNat later) = a := by
  obtain ⟨gap, rfl⟩ := Nat.exists_eq_add_of_le order
  have elapsed : (UInt64.ofNat (first + gap) - a.started).toNat = gap := by
    rw [started, UInt64.ofNat_add, UInt64.add_comm, UInt64.add_sub_cancel, UInt64.toNat_ofNat',
      Nat.mod_eq_of_lt (by omega)]
  have young : ¬ UInt64.ofNat (first + gap) - a.started > frameTimeoutNs := by
    rw [gt_iff_lt, UInt64.lt_iff_toNat_lt, elapsed, frameTimeoutNs]
    simp only [UInt64.reduceToNat]
    omega
  rw [FrameAssembler.expire, if_neg fun old => young old.2]

theorem capped_rat {sent time count rate : ℕ} (positive : 0 < rate)
    (capped : sent * 8000000000 ≤ (time + (count + 1)) * rate) :
    (sent : ℚ) * 8 * 10 ^ 9 / rate - (count + 1) ≤ time := by
  have cast : ((sent * 8000000000 : ℕ) : ℚ) ≤ ((time + (count + 1)) * rate : ℕ) :=
    Nat.cast_le.mpr capped
  rw [sub_le_iff_le_add, div_le_iff₀ (Nat.cast_pos.mpr positive)]
  push_cast at cast
  linarith

/-- For every allowed setting and every image within the budget: the datagrams make up the
wire size; the 64-bit arithmetic is exact; whatever the delays, every datagram starts late
enough for the network cap, up to a nanosecond for each; and without delays all of them and
the last pause end within the image duration, of a second at most, so that no deadline fires:
not the sender's, nor that of an assembler that the first datagram has started. -/
theorem send_paced (c : TimedCall) (mbps : c.config.mbps ∈ [6, 12, 24, 48, 84])
    (fps : 1 ≤ c.config.fps ∧ c.config.fps ≤ 30) (accepted : accepts c.sendCall = true) :
    let count := fragmentCount c.encoded
    let rate := c.config.mbps.toNat * 1000000
    let duration := (imageDuration c.config c.encoded).toNat
    ∑ k ∈ Finset.range count, (packetBytes c.encoded k).toNat = wireSize c.encoded ∧
    ((bitRate c.config).toNat = rate ∧ (wireBytes c.encoded).toNat = wireSize c.encoded ∧
      wireSize c.encoded * 8000000000 < 2 ^ 64 ∧
      duration = max (wireSize c.encoded * 8000000000 / rate) (850000000 / c.config.fps.toNat) ∧
      ∀ k, (packetBytes c.encoded k).toNat * duration < 2 ^ 64 ∧
        (pause c.config c.encoded k).toNat =
          (packetBytes c.encoded k).toNat * duration / wireSize c.encoded) ∧
    (∀ k < count, ((∑ i ∈ Finset.range k, (packetBytes c.encoded i).toNat : ℕ) : ℚ) * 8 * 10 ^ 9 /
      rate - (k + 1) ≤ (c.start k : ℚ) - c.start 0) ∧
    ((∀ k, c.delays k = {}) →
      (∀ k < count, c.start k ≤ c.began + duration ∧ c.attempt k ≠ .late) ∧
      c.paced ≤ c.began + duration ∧ duration ≤ 1000000000 ∧
      ∀ (a : FrameAssembler) (base k), k < count → a.started = UInt64.ofNat (base + c.start 0) →
        a.expire (UInt64.ofNat (base + c.start k)) = a) := by
  have budgeted : Budgeted c.config c.encoded := ⟨mbps, fps, fun _ => accepted⟩
  have rate := budgeted.rate
  refine ⟨sum_wireSize c.encoded, ⟨budgeted.bitRate_toNat, budgeted.wireBytes_toNat, ?_,
    budgeted.imageDuration_toNat, fun k => ⟨budgeted.product_lt k, budgeted.pause_toNat k⟩⟩,
    ?_, ?_⟩
  · have fits := budgeted.sized.2.2
    omega
  · intro k inside
    have capped := TimedCall.start_rate budgeted inside
    have order : c.start 0 ≤ c.start k :=
      (Nat.le_add_right ..).trans (spaced_lower c.start_apart k)
    have positive : 0 < c.config.mbps.toNat * 1000000 := by omega
    rw [← Nat.cast_sub order]
    exact capped_rat positive capped
  · intro prompt
    refine ⟨fun k inside => ⟨TimedCall.start_le budgeted prompt inside.le,
      TimedCall.attempt_timely budgeted prompt inside⟩, TimedCall.paced_le budgeted prompt,
      budgeted.imageDuration_le, ?_⟩
    intro a base k inside started
    have short := budgeted.imageDuration_le
    have late := TimedCall.start_le budgeted prompt inside.le
    have first : c.start 0 = c.began := by rw [TimedCall.start_exact prompt]; simp
    have order : c.start 0 ≤ c.start k :=
      (Nat.le_add_right ..).trans (spaced_lower c.start_apart k)
    exact expire_within a (by omega) (by omega) started

/-- Two datagrams at the default rate, sent without delay. -/
def twoPackets : TimedCall :=
  { config := {}, encoded := List.replicate 2000 0, began := 5, delays := fun _ => {}
    stops := fun _ => false, fails := fun _ => none }

theorem send_paced_two : twoPackets.start 1 ≤ 5 + 1000000000 ∧ twoPackets.attempt 1 ≠ .late := by
  obtain ⟨_, _, _, prompt⟩ := send_paced twoPackets (by decide) (by decide) (by decide +kernel)
  obtain ⟨each, _, second, _⟩ := prompt fun _ => rfl
  obtain ⟨early, timely⟩ := each 1 (by decide +kernel)
  exact ⟨early.trans (Nat.add_le_add_left second _), timely⟩

end FrameSender

end VbanStream
