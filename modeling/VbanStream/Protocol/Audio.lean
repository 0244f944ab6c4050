import VbanStream.Library.Memory
import VbanStream.Library.Binary

/-! The VBAN audio datagram: its header, its sample layouts and the parser, as
`vban-protocol.cpp` has them. -/

namespace VbanStream

open Library

abbrev slotCount : Nat := 8
def headerSize : Nat := 28
def maxDatagram : Nat := 1464

def sampleRates : List UInt32 :=
  [6000, 12000, 24000, 48000, 96000, 192000, 384000,
   8000, 16000, 32000, 64000, 128000, 256000, 512000,
   11025, 22050, 44100, 88200, 176400, 352800, 705600]

/-- The bytes of a `std::string` that names a stream on the wire. -/
abbrev StreamName := List UInt8

/-- The four bytes "VBAN". -/
def signature : List UInt8 := [0x56, 0x42, 0x41, 0x4e]

structure Format where
  rate : UInt32 := 0
  channels : UInt8 := 0
  type : UInt8 := 0
deriving DecidableEq, Repr

/-- Seven channels travel in an eight-channel layout. -/
def Format.outputChannels (format : Format) : Nat :=
  if format.channels = 7 then 8 else format.channels.toNat

/-- Samples are the exact values of the decoder's finite floats. -/
structure Packet where
  format : Format := {}
  sequence : UInt32 := 0
  frames : UInt16 := 0
  name : StreamName := []
  samples : List ℚ := []
deriving DecidableEq, Repr

inductive ParseError where
  | signature | truncated | protocol | codec | reserved | sampleRate | channels
  | sampleType | length | streamName | nonfinite
deriving DecidableEq, Repr

def describe : ParseError → String
  | .signature => "Invalid VBAN signature"
  | .truncated => "Truncated VBAN header"
  | .protocol => "Only VBAN AUDIO is supported"
  | .codec => "Only uncompressed PCM is supported"
  | .reserved => "Reserved header bit is set"
  | .sampleRate => "Invalid sample rate"
  | .channels => "Only 1 to 8 channels are supported"
  | .sampleType => "10-bit and 12-bit PCM are unsupported"
  | .length => "Invalid VBAN payload length"
  | .streamName => "Invalid stream name"
  | .nonfinite => "Non-finite floating point audio"

def validStreamName (name : StreamName) : Bool :=
  !name.isEmpty && name.length ≤ 16 && name.all fun c => 32 ≤ c && c ≤ 126

theorem validStreamName_iff {name : StreamName} : validStreamName name = true ↔
    name ≠ [] ∧ name.length ≤ 16 ∧ ∀ c ∈ name, 32 ≤ c ∧ c ≤ 126 := by
  simp [validStreamName, and_assoc]

/-- The name field up to its first NUL, when it is a valid name. -/
def readStreamName (data : Memory) (size : Nat) : Option StreamName :=
  if size < headerSize ∨ data.read 0 4 ≠ signature then none
  else
    let name := (data.read 8 16).takeWhile (· ≠ 0)
    if validStreamName name then some name else none

def sampleWidths : List Nat := [1, 2, 3, 4, 4, 8]

/-- One raw sample as a number, before it is clamped; `none` if not finite. -/
def sampleValue (type width bits : Nat) : Option ℚ :=
  if type = 0 then some (((bits : ℚ) - 128) / 128)
  else if type ≤ 3 then
    let count := width * 8
    let value : ℤ := if bits.testBit (count - 1) then (bits : ℤ) - 2 ^ count else bits
    some ((value : ℚ) / 2 ^ (count - 1))
  else if type = 4 then binary32.value bits
  else binary64.value bits

/-- One lane of one frame: the payload's sample, clamped and narrowed to a float. -/
def decodeSample (data : Memory) (type width channels frame channel : Nat) : Option ℚ :=
  let bits := littleEndian (data.read (headerSize + (frame * channels + channel) * width) width)
  (sampleValue type width bits).map fun sample => binary32.round (clamp sample (-1) 1)

/-- All frames in order; lanes that carry no channel stay silent. -/
def decodeSamples (data : Memory) (type width frames channels outputChannels : Nat) :
    Option (List ℚ) :=
  ((List.range frames).mapM fun frame =>
    ((List.range channels).mapM (decodeSample data type width channels frame)).map
      (· ++ List.replicate (outputChannels - channels) 0)).map List.flatten

def decode (data : Memory) (size : Nat) : Except ParseError Packet :=
  if size < headerSize then .error .truncated
  else if data.read 0 4 ≠ signature then .error .signature
  else if data 4 &&& 0xe0 ≠ 0 then .error .protocol
  else if data 7 &&& 0xf0 ≠ 0 then .error .codec
  else if data 7 &&& 0x08 ≠ 0 then .error .reserved
  else
    let rateIndex := (data 4 &&& 0x1f).toNat
    if rateIndex ≥ sampleRates.length then .error .sampleRate
    else
      let channels := (data 6).toNat + 1
      if channels > 8 then .error .channels
      else
        let type := data 7 &&& 7
        if type > 5 then .error .sampleType
        else
          let width := sampleWidths.getD type.toNat 0
          let frames := (data 5).toNat + 1
          if size > maxDatagram ∨ size ≠ headerSize + frames * channels * width then
            .error .length
          else
            match readStreamName data size with
            | none => .error .streamName
            | some name =>
              let format : Format := ⟨sampleRates.getD rateIndex 0, UInt8.ofNat channels, type⟩
              match decodeSamples data type.toNat width frames channels format.outputChannels with
              | none => .error .nonfinite
              | some samples => .ok {
                  format, samples, name
                  frames := UInt16.ofNat frames
                  sequence := UInt32.ofNat (littleEndian (data.read 24 4)) }

/-- A rate of zero has no duration. -/
def framesToNs (frames : UInt64) (rate : UInt32) : UInt64 :=
  if rate = 0 then 0
  else (frames / rate.toUInt64) * 1000000000 +
    (frames % rate.toUInt64) * 1000000000 / rate.toUInt64

/-- Exact duration in nanoseconds, rounded down. -/
def nanoseconds (frames rate : Nat) : Nat := frames * 1000000000 / rate

theorem nanoseconds_split (frames : Nat) {rate : Nat} (positive : 0 < rate) :
    nanoseconds frames rate =
      frames / rate * 1000000000 + frames % rate * 1000000000 / rate := by
  unfold nanoseconds
  conv_lhs => rw [← Nat.div_add_mod frames rate]
  rw [Nat.add_mul, Nat.mul_assoc, Nat.mul_add_div positive]

/-- The split quotient and remainder compute the exact rounded-down duration,
as long as it fits in the clock's 64 bits. -/
theorem framesToNs_toNat {frames : UInt64} {rate : UInt32} (small : rate.toNat ≤ 1000000)
    (fits : nanoseconds frames.toNat rate.toNat < 2 ^ 64) :
    (framesToNs frames rate).toNat = nanoseconds frames.toNat rate.toNat := by
  unfold framesToNs
  by_cases zero : rate = 0
  · simp [zero, nanoseconds]
  · have positive : 0 < rate.toNat := by
      rcases Nat.eq_zero_or_pos rate.toNat with none | some
      · exact absurd (UInt32.toNat_inj.mp none) zero
      · exact some
    have remainder := Nat.mod_lt frames.toNat positive
    have split := nanoseconds_split frames.toNat positive
    have product : frames.toNat % rate.toNat * 1000000000 < 2 ^ 64 := by
      calc frames.toNat % rate.toNat * 1000000000
          ≤ 1000000 * 1000000000 := Nat.mul_le_mul_right _ (by omega)
        _ < 2 ^ 64 := by norm_num
    rw [split] at fits ⊢
    have whole := Nat.lt_of_le_of_lt (Nat.le_add_right _ _) fits
    simp only [if_neg zero, UInt64.toNat_add, UInt64.toNat_mul, UInt64.toNat_div, UInt64.toNat_mod,
      UInt32.toNat_toUInt64, UInt64.reduceToNat]
    rw [Nat.mod_eq_of_lt product, Nat.mod_eq_of_lt whole, Nat.mod_eq_of_lt fits]

theorem nanoseconds_mono {fewer more : Nat} (order : fewer ≤ more) (rate : Nat) :
    nanoseconds fewer rate ≤ nanoseconds more rate :=
  Nat.div_le_div_right (Nat.mul_le_mul_right _ order)

theorem nanoseconds_add (first second rate : Nat) :
    nanoseconds first rate + nanoseconds second rate ≤ nanoseconds (first + second) rate := by
  unfold nanoseconds
  rw [Nat.add_mul]
  exact Nat.div_add_div_le_add_div

theorem nanoseconds_add_le (first second rate : Nat) :
    nanoseconds (first + second) rate ≤ nanoseconds first rate + nanoseconds second rate + 1 := by
  unfold nanoseconds
  rcases Nat.eq_zero_or_pos rate with zero | positive
  · simp [zero]
  · rw [Nat.add_mul, Nat.add_div positive]
    split <;> omega

theorem sampleRates_bound {rate : UInt32} (listed : rate ∈ sampleRates) :
    6000 ≤ rate.toNat ∧ rate.toNat ≤ 705600 := by
  have all : (sampleRates.all fun rate =>
      decide (6000 ≤ rate.toNat) && decide (rate.toNat ≤ 705600)) = true := rfl
  simpa using List.all_eq_true.mp all rate listed

end VbanStream
