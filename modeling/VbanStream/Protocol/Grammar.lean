import VbanStream.Library.Checked
import VbanStream.Protocol.Audio

namespace VbanStream

open Library

/-- The loop of `read_stream_name`, which stops at the first NUL. -/
def nameWithin (bytes : List UInt8) (offset : Nat) : Nat → Option StreamName
  | 0 => some []
  | remaining + 1 => do
    let c ← bytes[offset]?
    if c = 0 then return []
    let rest ← nameWithin bytes (offset + 1) remaining
    return c :: rest

/-- One sample of the payload; the outer `Option` fails on a read outside the datagram. -/
def sampleWithin (bytes : List UInt8) (type width channels frame channel : Nat) :
    OptionT Option ℚ := OptionT.mk do
  let raw ← readWithin bytes (headerSize + (frame * channels + channel) * width) width
  return (sampleValue type width (littleEndian raw)).map fun sample =>
    binary32.round (clamp sample (-1) 1)

def samplesWithin (bytes : List UInt8) (type width frames channels outputChannels : Nat) :
    OptionT Option (List ℚ) := do
  let rows ← (List.range frames).mapM fun frame => do
    let row ← (List.range channels).mapM (sampleWithin bytes type width channels frame)
    return row ++ List.replicate (outputChannels - channels) 0
  return rows.flatten

/-- `decode` as it reads the datagram and writes the packet behind its last argument;
`none` stands for a read outside the datagram. -/
def decodeWithin (bytes : List UInt8) (out : Packet) : Option (Option ParseError × Packet) := do
  if bytes.length < headerSize then return (some .truncated, out)
  let opening ← readWithin bytes 0 4
  if opening ≠ signature then return (some .signature, out)
  let protocol ← bytes[4]?
  if protocol &&& 0xe0 ≠ 0 then return (some .protocol, out)
  let codec ← bytes[7]?
  if codec &&& 0xf0 ≠ 0 then return (some .codec, out)
  if codec &&& 0x08 ≠ 0 then return (some .reserved, out)
  let rateIndex := (protocol &&& 0x1f).toNat
  if rateIndex ≥ sampleRates.length then return (some .sampleRate, out)
  let lanes ← bytes[6]?
  let channels := lanes.toNat + 1
  if channels > 8 then return (some .channels, out)
  let type := codec &&& 7
  if type > 5 then return (some .sampleType, out)
  let width := sampleWidths.getD type.toNat 0
  let count ← bytes[5]?
  let frames := count.toNat + 1
  if bytes.length > maxDatagram ∨ bytes.length ≠ headerSize + frames * channels * width then
    return (some .length, out)
  let name ← nameWithin bytes 8 16
  if validStreamName name = false then return (some .streamName, out)
  let sequence ← readWithin bytes 24 4
  let format : Format := ⟨sampleRates.getD rateIndex 0, UInt8.ofNat channels, type⟩
  match ← (samplesWithin bytes type.toNat width frames channels format.outputChannels).run with
  | none => return (some .nonfinite, out)
  | some samples =>
    return (none, {
      format, samples, name
      frames := UInt16.ofNat frames
      sequence := UInt32.ofNat (littleEndian sequence) })

/-- The error that is returned, and the packet behind the last argument afterwards. -/
def delivered (out : Packet) : Except ParseError Packet → Option ParseError × Packet
  | .error error => (some error, out)
  | .ok packet => (none, packet)

theorem nameWithin_eq {bytes : List UInt8} {offset remaining : Nat}
    (inside : offset + remaining ≤ bytes.length) :
    nameWithin bytes offset remaining =
      some (((Memory.ofBytes bytes).read offset remaining).takeWhile (· ≠ 0)) := by
  induction remaining generalizing offset with
  | zero => rfl
  | succ remaining ih =>
    have later : nameWithin bytes (offset + 1) remaining = _ := ih (by omega)
    have one : (Memory.ofBytes bytes).read offset 1 = [Memory.ofBytes bytes offset] := rfl
    unfold nameWithin
    rw [Nat.add_comm remaining 1, Memory.read_append, one, List.singleton_append,
      List.takeWhile_cons, byte_within (by omega : offset < bytes.length), later]
    by_cases ended : Memory.ofBytes bytes offset = 0
    · simp [ended]
    · simp [ended]

theorem sampleWithin_eq {bytes : List UInt8} {type width channels frame channel : Nat}
    (inside : headerSize + (frame * channels + channel) * width + width ≤ bytes.length) :
    (sampleWithin bytes type width channels frame channel).run =
      some (decodeSample (Memory.ofBytes bytes) type width channels frame channel) := by
  rw [sampleWithin, OptionT.run_mk, readWithin_eq inside]
  rfl

theorem slot_within (width : Nat) {frames channels frame channel : Nat} (row : frame < frames)
    (lane : channel < channels) :
    (frame * channels + channel) * width + width ≤ frames * channels * width := by
  have next : frame * channels + channel + 1 ≤ frames * channels := by
    calc frame * channels + channel + 1 ≤ (frame + 1) * channels := by rw [Nat.succ_mul]; omega
      _ ≤ frames * channels := Nat.mul_le_mul_right _ row
  calc (frame * channels + channel) * width + width
      = (frame * channels + channel + 1) * width := (Nat.succ_mul ..).symm
    _ ≤ frames * channels * width := Nat.mul_le_mul_right _ next

theorem samplesWithin_eq {bytes : List UInt8} {type width frames channels outputChannels : Nat}
    (whole : bytes.length = headerSize + frames * channels * width) :
    (samplesWithin bytes type width frames channels outputChannels).run =
      some (decodeSamples (Memory.ofBytes bytes) type width frames channels outputChannels) := by
  rw [samplesWithin, decodeSamples, Option.map_eq_bind, Function.comp_def]
  apply bind_within
  · apply mapM_within
    intro frame row
    rw [Option.map_eq_bind, Function.comp_def]
    apply bind_within
    · apply mapM_within
      intro channel lane
      apply sampleWithin_eq
      have fits := slot_within width (List.mem_range.mp row) (List.mem_range.mp lane)
      omega
    · intro given _
      rfl
  · intro given _
    rfl

theorem delivered_check {condition : Prop} [Decidable condition] {out : Packet}
    {error : ParseError} {more : Option (Option ParseError × Packet)}
    {rest : Except ParseError Packet} (later : ¬ condition → more = some (delivered out rest)) :
    (if condition then pure (some error, out) else more) =
      some (delivered out (if condition then .error error else rest)) := by
  by_cases refused : condition
  · rw [if_pos refused, if_pos refused]
    rfl
  · rw [if_neg refused, if_neg refused]
    exact later refused

theorem decodeWithin_eq (bytes : List UInt8) (out : Packet) :
    decodeWithin bytes out =
      some (delivered out (decode (Memory.ofBytes bytes) bytes.length)) := by
  rw [decode, decodeWithin]
  apply delivered_check
  intro long
  have whole : 28 ≤ bytes.length := Nat.le_of_not_lt long
  have byte (index : Nat) (small : index < 28) := byte_within (show index < bytes.length by omega)
  rw [readWithin_eq (show 0 + 4 ≤ bytes.length by omega),
    readWithin_eq (show 24 + 4 ≤ bytes.length by omega),
    nameWithin_eq (show 8 + 16 ≤ bytes.length by omega),
    byte 4 (by omega), byte 5 (by omega), byte 6 (by omega), byte 7 (by omega)]
  simp only [Option.bind_eq_bind, Option.bind_some]
  apply delivered_check
  intro opened
  iterate 6
    apply delivered_check
    intro _
  apply delivered_check
  intro fits
  rw [not_or, not_not] at fits
  have headed : ¬ (bytes.length < headerSize ∨ (Memory.ofBytes bytes).read 0 4 ≠ signature) :=
    not_or.mpr ⟨long, opened⟩
  rw [samplesWithin_eq fits.2, readStreamName, if_neg headed]
  dsimp only
  generalize ((Memory.ofBytes bytes).read 8 16).takeWhile _ = name
  cases valid : validStreamName name with
  | false => rfl
  | true =>
    simp only [Bool.true_eq_false, if_false, if_true, Option.bind_some]
    cases decodeSamples _ _ _ _ _ _ <;> rfl

namespace Wire

variable (bytes : List UInt8)

/-- A byte of the header as a number. -/
def field (index : Nat) : Nat := (bytes.getD index 0).toNat

def frames : Nat := field bytes 5 + 1
def channels : Nat := field bytes 6 + 1
def type : Nat := field bytes 7 % 8
def width : Nat := sampleWidths.getD (type bytes) 0

/-- The name field up to its first NUL. -/
def name : StreamName := ((bytes.drop 8).take 16).takeWhile (· ≠ 0)

/-- The raw bits of one sample, lowest byte first. -/
def raw (frame channel : Nat) : Nat :=
  littleEndian ((bytes.drop (28 + (frame * channels bytes + channel) * width bytes)).take
    (width bytes))

/-- The exponent bits are not all ones; integers have none. -/
def Finite (bits : Nat) : Prop :=
  (type bytes = 4 → bits / 2 ^ 23 % 2 ^ 8 ≠ 2 ^ 8 - 1) ∧
    (type bytes = 5 → bits / 2 ^ 52 % 2 ^ 11 ≠ 2 ^ 11 - 1)

/-- The number that a sample stands for: unsigned around 128, in two's complement, or in
binary floating point. -/
def number (bits : Nat) : ℚ :=
  if type bytes = 0 then ((bits : ℚ) - 128) / 128
  else if type bytes ≤ 3 then
    ((BitVec.ofNat (8 * width bytes) bits).toInt : ℚ) / 2 ^ (8 * width bytes - 1)
  else if type bytes = 4 then (binary32.value bits).getD 0
  else (binary64.value bits).getD 0

/-- The supported VBAN audio datagrams. -/
structure Supported : Prop where
  header : 28 ≤ bytes.length
  opening : bytes.take 4 = signature
  protocol : field bytes 4 / 32 = 0
  rate : field bytes 4 % 32 < 21
  channels : field bytes 6 ≤ 7
  codec : field bytes 7 / 16 = 0
  reserved : field bytes 7 / 8 % 2 = 0
  type : type bytes ≤ 5
  length : bytes.length = 28 + frames bytes * Wire.channels bytes * width bytes
  size : bytes.length ≤ 1464
  named : 1 ≤ (name bytes).length ∧ (name bytes).length ≤ 16
  printable : ∀ c ∈ name bytes, 32 ≤ c ∧ c ≤ 126
  finite : ∀ frame < frames bytes, ∀ channel < Wire.channels bytes,
    Finite bytes (raw bytes frame channel)

/-- The packet is the datagram's: its header, and in every frame the samples of the
channels, limited to one and narrowed to a float, and silence in the lanes after them. -/
structure Carried (packet : Packet) : Prop where
  rate : sampleRates[field bytes 4 % 32]? = some packet.format.rate
  channels : packet.format.channels.toNat = channels bytes
  type : packet.format.type.toNat = type bytes
  frames : packet.frames.toNat = frames bytes
  name : packet.name = name bytes
  sequence : packet.sequence.toNat = littleEndian ((bytes.drop 24).take 4)
  length : packet.samples.length = Wire.frames bytes * packet.format.outputChannels
  samples : ∀ frame < Wire.frames bytes, ∀ channel < Wire.channels bytes,
    packet.samples[frame * packet.format.outputChannels + channel]? =
      some (binary32.round (clamp (number bytes (raw bytes frame channel)) (-1) 1))
  exact : Wire.type bytes ≠ 3 → Wire.type bytes ≠ 5 →
    ∀ frame < Wire.frames bytes, ∀ channel < Wire.channels bytes,
      packet.samples[frame * packet.format.outputChannels + channel]? =
        some (clamp (number bytes (raw bytes frame channel)) (-1) 1)
  silent : ∀ frame < Wire.frames bytes,
    ∀ lane, Wire.channels bytes ≤ lane → lane < packet.format.outputChannels →
      Wire.channels bytes = 7 ∧ lane = 7 ∧
        packet.samples[frame * packet.format.outputChannels + lane]? = some 0

section Fields

theorem mask_byte (byte : UInt8) :
    (byte &&& 0xe0 = 0 ↔ byte.toNat / 32 = 0) ∧ (byte &&& 0xf0 = 0 ↔ byte.toNat / 16 = 0) ∧
      (byte &&& 0x08 = 0 ↔ byte.toNat / 8 % 2 = 0) ∧ (byte &&& 0x1f).toNat = byte.toNat % 32 ∧
      (byte &&& 7).toNat = byte.toNat % 8 := by
  have all : ∀ n : Fin 256, let byte := UInt8.ofNat n
      (byte &&& 0xe0 = 0 ↔ byte.toNat / 32 = 0) ∧ (byte &&& 0xf0 = 0 ↔ byte.toNat / 16 = 0) ∧
        (byte &&& 0x08 = 0 ↔ byte.toNat / 8 % 2 = 0) ∧
        (byte &&& 0x1f).toNat = byte.toNat % 32 ∧ (byte &&& 7).toNat = byte.toNat % 8 := by
    decide +kernel
  simpa using all ⟨byte.toNat, byte.toNat_lt⟩

variable {bytes : List UInt8}

theorem raw_eq {frame channel : Nat} (row : frame < frames bytes) (lane : channel < channels bytes)
    (whole : bytes.length = 28 + frames bytes * channels bytes * width bytes) :
    littleEndian ((Memory.ofBytes bytes).read
      (headerSize + (frame * channels bytes + channel) * width bytes) (width bytes)) =
        raw bytes frame channel := by
  have fits := slot_within (width bytes) row lane
  rw [read_ofBytes (by rw [whole, headerSize]; omega)]
  rfl

theorem raw_lt (bytes : List UInt8) (frame channel : Nat) :
    raw bytes frame channel < 2 ^ (8 * width bytes) := by
  rw [raw, Nat.pow_mul]
  apply (littleEndian_lt _).trans_le
  exact Nat.pow_le_pow_right (by omega) (List.length_take_le ..)

theorem width_cases (small : type bytes ≤ 5) :
    type bytes = 0 ∧ width bytes = 1 ∨ type bytes = 1 ∧ width bytes = 2 ∨
      type bytes = 2 ∧ width bytes = 3 ∨ type bytes = 3 ∧ width bytes = 4 ∨
      type bytes = 4 ∧ width bytes = 4 ∨ type bytes = 5 ∧ width bytes = 8 := by
  rw [width]
  interval_cases type bytes <;> decide

theorem signed_toInt {count bits : Nat} (positive : 0 < count) (small : bits < 2 ^ count) :
    (BitVec.ofNat count bits).toInt =
      if bits.testBit (count - 1) then (bits : ℤ) - 2 ^ count else bits := by
  rw [BitVec.toInt_eq_msb_cond, BitVec.msb_eq_getLsbD_last, BitVec.getLsbD_ofNat,
    BitVec.toNat_ofNat, Nat.mod_eq_of_lt small, decide_eq_true (by omega : count - 1 < count)]
  push_cast
  rfl

theorem sampleValue_finite (small : type bytes ≤ 5) {bits : Nat}
    (finite : Finite bytes bits) (bound : bits < 2 ^ (8 * width bytes)) :
    sampleValue (type bytes) (width bytes) bits = some (number bytes bits) := by
  have pcm (positive : 0 < width bytes) (signed : type bytes ≠ 0) (integer : type bytes ≤ 3) :
      sampleValue (type bytes) (width bytes) bits = some (number bytes bits) := by
    rw [sampleValue, number, if_neg signed, if_neg signed, if_pos integer, if_pos integer,
      signed_toInt (by omega) bound, Nat.mul_comm]
  have float (format : BinaryFormat) (known : format.value bits ≠ none) :
      format.value bits = some ((format.value bits).getD 0) := by
    cases value : format.value bits with
    | none => exact absurd value known
    | some value => rfl
  rcases width_cases small with ⟨kind, wide⟩ | ⟨kind, wide⟩ | ⟨kind, wide⟩ | ⟨kind, wide⟩ |
    ⟨kind, wide⟩ | ⟨kind, wide⟩
  · simp [sampleValue, number, kind]
  · exact pcm (by omega) (by omega) (by omega)
  · exact pcm (by omega) (by omega) (by omega)
  · exact pcm (by omega) (by omega) (by omega)
  · simpa [sampleValue, number, kind] using
      float binary32 fun infinite => finite.1 kind (binary32.value_eq_none.mp infinite)
  · simpa [sampleValue, number, kind] using
      float binary64 fun infinite => finite.2 kind (binary64.value_eq_none.mp infinite)

theorem sampleValue_infinite {bits : Nat} (infinite : ¬ Finite bytes bits) :
    sampleValue (type bytes) (width bytes) bits = none := by
  rcases not_and_or.mp infinite with single | double
  · obtain ⟨kind, ones⟩ := Classical.not_imp.mp single
    simpa [sampleValue, kind] using binary32.value_eq_none.mpr (not_not.mp ones)
  · obtain ⟨kind, ones⟩ := Classical.not_imp.mp double
    simpa [sampleValue, kind] using binary64.value_eq_none.mpr (not_not.mp ones)

/-- Except in the widest layouts, the number is a float, also after it is limited. -/
theorem number_exact (small : type bytes ≤ 5) (narrow : type bytes ≠ 3 ∧ type bytes ≠ 5)
    {bits : Nat} (bound : bits < 2 ^ (8 * width bytes)) :
    binary32.round (clamp (number bytes bits) (-1) 1) = clamp (number bytes bits) (-1) 1 := by
  suffices exact : binary32.round (number bytes bits) = number bytes bits by
    rw [clamp]
    split
    · simpa using binary32.round_fixed (-1) (Nat.zero_le _) (by decide) (by decide)
    · split
      · simpa using binary32.round_fixed 1 (Nat.zero_le _) (by decide) (by decide)
      · exact exact
  have pcm (signed : type bytes ≠ 0) (integer : type bytes ≤ 3) (positive : 0 < width bytes)
      (fits : width bytes ≤ 3) : binary32.round (number bytes bits) = number bytes bits := by
    rw [number, if_neg signed, if_pos integer]
    apply binary32.round_fixed
    · simp only [binary32]
      omega
    · decide
    · have low := BitVec.le_toInt (BitVec.ofNat (8 * width bytes) bits)
      have high := BitVec.toInt_lt (x := BitVec.ofNat (8 * width bytes) bits)
      rw [abs_le]
      exact ⟨low, high.le⟩
  rcases width_cases small with ⟨kind, wide⟩ | ⟨kind, wide⟩ | ⟨kind, wide⟩ | ⟨kind, wide⟩ |
    ⟨kind, wide⟩ | ⟨kind, wide⟩
  · rw [number, if_pos kind]
    rw [wide] at bound
    have fixed := binary32.round_fixed (bits - 128) (by decide : 7 ≤ 23) (by decide)
      (abs_le.mpr ⟨by omega, by omega⟩)
    norm_num at fixed ⊢
    exact fixed
  · exact pcm (by omega) (by omega) (by omega) (by omega)
  · exact pcm (by omega) (by omega) (by omega) (by omega)
  · exact absurd kind narrow.1
  · rw [number, if_neg (by omega), if_neg (by omega), if_pos kind]
    cases value : binary32.value bits with
    | none =>
      simpa using binary32.round_fixed 0 (Nat.zero_le _) (by decide) (by decide)
    | some value => exact binary32.round_value value
  · exact absurd kind narrow.2

/-- The lanes of one frame. -/
def row (bytes : List UInt8) (outputChannels frame : Nat) : List ℚ :=
  ((List.range (channels bytes)).map fun channel =>
    binary32.round (clamp (number bytes (raw bytes frame channel)) (-1) 1)) ++
    List.replicate (outputChannels - channels bytes) 0

theorem decodeSamples_finite (small : type bytes ≤ 5)
    (whole : bytes.length = 28 + frames bytes * channels bytes * width bytes)
    (finite : ∀ frame < frames bytes, ∀ channel < channels bytes,
      Finite bytes (raw bytes frame channel)) (outputChannels : Nat) :
    decodeSamples (Memory.ofBytes bytes) (type bytes) (width bytes) (frames bytes)
      (channels bytes) outputChannels =
        some ((List.range (frames bytes)).flatMap (row bytes outputChannels)) := by
  rw [decodeSamples, mapM_eq_map (row bytes outputChannels), Option.map_some, List.flatMap_def]
  intro frame inside
  rw [mapM_eq_map fun channel =>
    binary32.round (clamp (number bytes (raw bytes frame channel)) (-1) 1)]
  · rfl
  · intro channel lane
    have early := List.mem_range.mp inside
    have low := List.mem_range.mp lane
    rw [decodeSample, raw_eq early low whole,
      sampleValue_finite small (finite frame early channel low) (raw_lt bytes frame channel)]
    rfl

theorem decodeSamples_infinite
    (whole : bytes.length = 28 + frames bytes * channels bytes * width bytes)
    {frame channel : Nat} (early : frame < frames bytes) (low : channel < channels bytes)
    (infinite : ¬ Finite bytes (raw bytes frame channel)) (outputChannels : Nat) :
    decodeSamples (Memory.ofBytes bytes) (type bytes) (width bytes) (frames bytes)
      (channels bytes) outputChannels = none := by
  rw [decodeSamples, mapM_eq_none (List.mem_range.mpr early), Option.map_none]
  rw [mapM_eq_none (List.mem_range.mpr low), Option.map_none]
  rw [decodeSample, raw_eq early low whole, sampleValue_infinite infinite]
  rfl

theorem check_congr {first second : Prop} [Decidable first] [Decidable second]
    {error : ParseError} {rest later : Except ParseError Packet} (same : first ↔ second)
    (otherwise : ¬ second → rest = later) :
    (if first then .error error else rest) = if second then .error error else later := by
  by_cases refused : second
  · rw [if_pos refused, if_pos (same.mpr refused)]
  · rw [if_neg refused, if_neg (mt same.mp refused), otherwise refused]

/-- The checks of `decode` on the fields of the header. -/
theorem decode_fields (bytes : List UInt8) :
    decode (Memory.ofBytes bytes) bytes.length =
      if bytes.length < 28 then .error .truncated
      else if bytes.take 4 ≠ signature then .error .signature
      else if field bytes 4 / 32 ≠ 0 then .error .protocol
      else if field bytes 7 / 16 ≠ 0 then .error .codec
      else if field bytes 7 / 8 % 2 ≠ 0 then .error .reserved
      else if field bytes 4 % 32 ≥ 21 then .error .sampleRate
      else if channels bytes > 8 then .error .channels
      else if type bytes > 5 then .error .sampleType
      else if bytes.length > 1464 ∨
          bytes.length ≠ 28 + frames bytes * channels bytes * width bytes then .error .length
      else if validStreamName (name bytes) = false then .error .streamName
      else
        let format : Format := ⟨sampleRates.getD (field bytes 4 % 32) 0,
          UInt8.ofNat (channels bytes), bytes.getD 7 0 &&& 7⟩
        match decodeSamples (Memory.ofBytes bytes) (type bytes) (width bytes) (frames bytes)
            (channels bytes) format.outputChannels with
        | none => .error .nonfinite
        | some samples => .ok {
            format, samples
            name := name bytes
            frames := UInt16.ofNat (frames bytes)
            sequence := UInt32.ofNat (littleEndian ((bytes.drop 24).take 4)) } := by
  obtain ⟨protocol, _, _, rate, _⟩ := mask_byte (bytes.getD 4 0)
  obtain ⟨_, codec, reserved, _, kind⟩ := mask_byte (bytes.getD 7 0)
  have seventh : (Memory.ofBytes bytes 7 &&& 7).toNat = type bytes := kind
  have fourth : (Memory.ofBytes bytes 4 &&& 0x1f).toNat = field bytes 4 % 32 := rate
  rw [decode, headerSize]
  refine check_congr Iff.rfl fun long => ?_
  rw [read_ofBytes (by omega), read_ofBytes (by omega), List.drop_zero]
  refine check_congr Iff.rfl fun opened => ?_
  refine check_congr (not_congr protocol) fun _ => ?_
  refine check_congr (not_congr codec) fun _ => ?_
  refine check_congr (not_congr reserved) fun _ => ?_
  dsimp only
  rw [fourth, seventh]
  refine check_congr Iff.rfl fun _ => ?_
  refine check_congr Iff.rfl fun _ => ?_
  refine check_congr (by rw [gt_iff_lt, UInt8.lt_iff_toNat_lt, seventh]; rfl) fun _ => ?_
  refine check_congr Iff.rfl fun _ => ?_
  have headed : ¬ (bytes.length < headerSize ∨ (Memory.ofBytes bytes).read 0 4 ≠ signature) := by
    rw [not_or, read_ofBytes (by omega), List.drop_zero]
    exact ⟨long, opened⟩
  have named : readStreamName (Memory.ofBytes bytes) bytes.length =
      if validStreamName (name bytes) then some (name bytes) else none := by
    rw [readStreamName, if_neg headed, read_ofBytes (by omega), name]
  rw [named]
  cases validStreamName (name bytes) <;> rfl

theorem passed_check {condition : Prop} [Decidable condition] {error : ParseError}
    {rest : Except ParseError Packet} {packet : Packet}
    (accepted : (if condition then .error error else rest) = .ok packet) :
    ¬ condition ∧ rest = .ok packet := by
  by_cases refused : condition
  · rw [if_pos refused] at accepted
    cases accepted
  · rw [if_neg refused] at accepted
    exact ⟨refused, accepted⟩

theorem supported_of_decode {packet : Packet}
    (accepted : decode (Memory.ofBytes bytes) bytes.length = .ok packet) : Supported bytes := by
  rw [decode_fields] at accepted
  obtain ⟨long, accepted⟩ := passed_check accepted
  obtain ⟨opened, accepted⟩ := passed_check accepted
  obtain ⟨protocol, accepted⟩ := passed_check accepted
  obtain ⟨codec, accepted⟩ := passed_check accepted
  obtain ⟨reserved, accepted⟩ := passed_check accepted
  obtain ⟨rate, accepted⟩ := passed_check accepted
  obtain ⟨lanes, accepted⟩ := passed_check accepted
  obtain ⟨kind, accepted⟩ := passed_check accepted
  obtain ⟨fits, accepted⟩ := passed_check accepted
  obtain ⟨named, accepted⟩ := passed_check accepted
  obtain ⟨small, whole⟩ := not_or.mp fits
  obtain ⟨some, short, printable⟩ := validStreamName_iff.mp (eq_true_of_ne_false named)
  exact {
    header := Nat.le_of_not_lt long
    opening := not_not.mp opened
    protocol := not_not.mp protocol
    rate := Nat.lt_of_not_le rate
    channels := Nat.le_of_succ_le_succ (Nat.le_of_not_lt lanes)
    codec := not_not.mp codec
    reserved := not_not.mp reserved
    type := Nat.le_of_not_lt kind
    length := not_not.mp whole
    size := Nat.le_of_not_lt small
    named := ⟨List.length_pos_iff.mpr some, short⟩
    printable
    finite := by
      intro frame early channel low
      by_contra infinite
      dsimp only at accepted
      rw [decodeSamples_infinite (not_not.mp whole) early low infinite] at accepted
      cases accepted }

theorem outputChannels_eq (rate : UInt32) (kind : UInt8) {channels : Nat} (few : channels ≤ 8) :
    (⟨rate, UInt8.ofNat channels, kind⟩ : Format).outputChannels =
      if channels = 7 then 8 else channels := by
  rw [Format.outputChannels]
  interval_cases channels <;> rfl

theorem length_row {outputChannels : Nat} (wide : channels bytes ≤ outputChannels)
    (frame : Nat) : (row bytes outputChannels frame).length = outputChannels := by
  simp [row, wide]

theorem row_channel {outputChannels frame channel : Nat} (low : channel < channels bytes) :
    (row bytes outputChannels frame)[channel]? =
      some (binary32.round (clamp (number bytes (raw bytes frame channel)) (-1) 1)) := by
  rw [row, List.getElem?_append_left (by simpa using low), List.getElem?_map,
    List.getElem?_range low]
  rfl

theorem row_silent {outputChannels frame lane : Nat} (high : channels bytes ≤ lane)
    (inside : lane < outputChannels) : (row bytes outputChannels frame)[lane]? = some 0 := by
  rw [row, List.getElem?_append_right (by simpa using high), List.getElem?_replicate,
    if_pos (by simp; omega)]

/-- The format in the header. -/
def formatOf (bytes : List UInt8) : Format :=
  ⟨sampleRates.getD (field bytes 4 % 32) 0, UInt8.ofNat (channels bytes), bytes.getD 7 0 &&& 7⟩

/-- The packet that a supported datagram becomes. -/
def packetOf (bytes : List UInt8) : Packet where
  format := formatOf bytes
  samples := (List.range (frames bytes)).flatMap (row bytes (formatOf bytes).outputChannels)
  name := name bytes
  frames := UInt16.ofNat (frames bytes)
  sequence := UInt32.ofNat (littleEndian ((bytes.drop 24).take 4))

theorem decode_supported (supported : Supported bytes) :
    decode (Memory.ofBytes bytes) bytes.length = .ok (packetOf bytes) := by
  obtain ⟨some, short⟩ := supported.named
  have named : validStreamName (name bytes) = true :=
    validStreamName_iff.mpr ⟨List.length_pos_iff.mp some, short, supported.printable⟩
  have lanes : channels bytes ≤ 8 := Nat.succ_le_succ supported.channels
  have fits : ¬ (bytes.length > 1464 ∨
      bytes.length ≠ 28 + frames bytes * channels bytes * width bytes) :=
    not_or.mpr ⟨Nat.not_lt.mpr supported.size, not_not.mpr supported.length⟩
  rw [decode_fields, if_neg (Nat.not_lt.mpr supported.header),
    if_neg (not_not.mpr supported.opening), if_neg (not_not.mpr supported.protocol),
    if_neg (not_not.mpr supported.codec), if_neg (not_not.mpr supported.reserved),
    if_neg (Nat.not_le.mpr supported.rate), if_neg (Nat.not_lt.mpr lanes),
    if_neg (Nat.not_lt.mpr supported.type), if_neg fits, if_neg (by rw [named]; decide)]
  dsimp only
  rw [decodeSamples_finite supported.type supported.length supported.finite]
  rfl

theorem output_supported (supported : Supported bytes) : (formatOf bytes).outputChannels =
    if channels bytes = 7 then 8 else channels bytes :=
  outputChannels_eq _ _ (Nat.succ_le_succ supported.channels)

theorem output_wide (supported : Supported bytes) :
    channels bytes ≤ (formatOf bytes).outputChannels := by
  rw [output_supported supported]
  split <;> omega

theorem sequence_lt (supported : Supported bytes) :
    littleEndian ((bytes.drop 24).take 4) < 2 ^ 32 := by
  have four : ((bytes.drop 24).take 4).length = 4 := by
    have long := supported.header
    rw [List.length_take, List.length_drop]
    omega
  have small := littleEndian_lt ((bytes.drop 24).take 4)
  rwa [four] at small

/-- Where the samples of a packet are: frame by frame, lane by lane. -/
theorem packetOf_lane (supported : Supported bytes) {frame lane : Nat}
    (early : frame < frames bytes) (inside : lane < (formatOf bytes).outputChannels) :
    (packetOf bytes).samples[frame * (formatOf bytes).outputChannels + lane]? =
      (row bytes (formatOf bytes).outputChannels frame)[lane]? :=
  getElem?_flatMap_block (length_row (output_wide supported)) early inside

theorem packetOf_channel (supported : Supported bytes) {frame channel : Nat}
    (early : frame < frames bytes) (low : channel < channels bytes) :
    (packetOf bytes).samples[frame * (formatOf bytes).outputChannels + channel]? =
      some (binary32.round (clamp (number bytes (raw bytes frame channel)) (-1) 1)) := by
  rw [packetOf_lane supported early (low.trans_le (output_wide supported)), row_channel low]

theorem carried_packetOf (supported : Supported bytes) : Carried bytes (packetOf bytes) where
  rate := by
    have listed : field bytes 4 % 32 < sampleRates.length := supported.rate
    rw [packetOf, formatOf, List.getElem?_eq_getElem listed, List.getD_eq_getElem _ _ listed]
  channels := by
    have few := supported.channels
    rw [packetOf, formatOf, UInt8.toNat_ofNat', Wire.channels, Nat.mod_eq_of_lt (by omega)]
  type := (mask_byte (bytes.getD 7 0)).2.2.2.2
  frames := by
    have count : frames bytes ≤ 256 := (bytes.getD 5 0).toNat_lt
    rw [packetOf, UInt16.toNat_ofNat', Nat.mod_eq_of_lt (by omega)]
  name := rfl
  sequence := (UInt32.toNat_ofNat' ..).trans (Nat.mod_eq_of_lt (sequence_lt supported))
  length := by
    rw [packetOf, List.length_flatMap]
    simp [length_row (output_wide supported)]
  samples := fun _ early _ low => packetOf_channel supported early low
  exact := by
    intro single double frame early channel low
    rw [← number_exact supported.type ⟨single, double⟩ (raw_lt bytes frame channel)]
    exact packetOf_channel supported early low
  silent := by
    intro frame early lane high inside
    have short : lane < if Wire.channels bytes = 7 then 8 else Wire.channels bytes := by
      rw [← output_supported supported]
      exact inside
    have seven : Wire.channels bytes = 7 ∧ lane = 7 := by
      split at short <;> omega
    have silence := packetOf_lane supported early inside
    exact ⟨seven.1, seven.2, silence.trans (row_silent high inside)⟩

end Fields

/-- On every byte string, `decode` reads only inside the string; it succeeds exactly on the
supported datagrams, and then the packet is the datagram's; otherwise the packet stays. -/
theorem decode_grammar (bytes : List UInt8) (out : Packet) :
    ∃ error packet, decodeWithin bytes out = some (error, packet) ∧
      (error = none ↔ Supported bytes) ∧ (error = none → Carried bytes packet) ∧
      (error ≠ none → packet = out) := by
  rw [decodeWithin_eq]
  cases outcome : decode (Memory.ofBytes bytes) bytes.length with
  | error error =>
    refine ⟨some error, out, rfl, ⟨fun same => absurd same (Option.some_ne_none _), ?_⟩,
      fun same => absurd same (Option.some_ne_none _), fun _ => rfl⟩
    intro supported
    rw [decode_supported supported] at outcome
    cases outcome
  | ok packet =>
    have supported := supported_of_decode outcome
    rw [decode_supported supported] at outcome
    cases outcome
    exact ⟨none, packetOf bytes, rfl, ⟨fun _ => supported, fun _ => rfl⟩,
      fun _ => carried_packetOf supported, fun fails => absurd rfl fails⟩

end Wire

end VbanStream
