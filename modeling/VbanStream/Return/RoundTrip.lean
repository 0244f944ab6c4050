import VbanStream.Library.Checked
import VbanStream.Return.Encode
import VbanStream.Settings.Config

namespace VbanStream

open Library

theorem pcmScale_pos (pcmBits : Int) : 0 < pcmScale pcmBits := by
  unfold pcmScale
  split <;> norm_num

theorem pcmValue_mem (pcmBits : Int) (sample : Option ℚ) :
    -pcmScale pcmBits ≤ pcmValue pcmBits sample ∧ pcmValue pcmBits sample < pcmScale pcmBits := by
  have positive := pcmScale_pos pcmBits
  simp only [pcmValue, clamp]
  split
  · omega
  · split <;> omega

theorem pcmValue_exact {pcmBits : Int} {pcm : ℤ} (low : -pcmScale pcmBits ≤ pcm)
    (high : pcm < pcmScale pcmBits) :
    pcmValue pcmBits (some ((pcm : ℚ) / pcmScale pcmBits)) = pcm := by
  have positive : (pcmScale pcmBits : ℚ) ≠ 0 := by exact_mod_cast (pcmScale_pos pcmBits).ne'
  simp only [pcmValue, Option.getD_some, div_mul_cancel₀ _ positive, roundHalfAway_intCast, clamp]
  rw [if_neg (by omega), if_neg (by omega)]

theorem littleEndian_pcmBytes (pcmBits : Int) (pcm : ℤ) (narrow : pcmWidth pcmBits ≤ 4) :
    (littleEndian (pcmBytes pcmBits pcm) : ℤ) = pcm % 256 ^ pcmWidth pcmBits := by
  have whole : (256 : ℤ) ^ pcmWidth pcmBits ∣ 2 ^ 32 := by
    have power : (2 : ℤ) ^ 32 = 256 ^ 4 := by norm_num
    rw [power]
    exact pow_dvd_pow 256 narrow
  rw [pcmBytes, littleEndian_littleEndianBytes]
  rw [Int.natCast_emod, Int.toNat_of_nonneg (Int.emod_nonneg _ (by norm_num)), Nat.cast_pow]
  exact Int.emod_emod_of_dvd _ whole

theorem signed_emod (half : Nat) {raw : Nat} {pcm : ℤ} (low : -(half : ℤ) ≤ pcm) (high : pcm < half)
    (same : (raw : ℤ) = pcm % (2 * half)) :
    (if half ≤ raw then (raw : ℤ) - 2 * half else raw) = pcm := by
  by_cases sign : 0 ≤ pcm
  · rw [Int.emod_eq_of_lt sign (by omega)] at same
    rw [if_neg (by omega), same]
  · have wrapped : pcm % (2 * half) = pcm + 2 * half := by
      rw [← Int.add_emod_right, Int.emod_eq_of_lt (by omega) (by omega)]
    rw [if_pos (by omega), same, wrapped]
    ring

theorem testBit_top {raw : Nat} (bits : Nat) (small : raw < 2 * 2 ^ bits) :
    raw.testBit bits = true ↔ 2 ^ bits ≤ raw := by
  rw [Nat.testBit_eq_decide_div_mod_eq, decide_eq_true_eq]
  have quotient : raw / 2 ^ bits < 2 := Nat.div_lt_of_lt_mul (by omega)
  rw [Nat.mod_eq_of_lt quotient, ← Nat.one_le_div_iff (by positivity)]
  omega

/-- Reading the lowest bytes back with their sign. -/
theorem sampleValue_pcm {pcmBits : Int} (bits : pcmBits = 16 ∨ pcmBits = 24) {pcm : ℤ}
    (low : -pcmScale pcmBits ≤ pcm) (high : pcm < pcmScale pcmBits) :
    sampleValue (if pcmBits = 16 then 1 else 2) (pcmWidth pcmBits)
      (littleEndian (pcmBytes pcmBits pcm)) = some ((pcm : ℚ) / pcmScale pcmBits) := by
  have raw := littleEndian_pcmBytes pcmBits pcm
  generalize littleEndian (pcmBytes pcmBits pcm) = value at raw
  rcases bits with rfl | rfl
  · have raw : (value : ℤ) = pcm % 65536 := raw (by decide)
    have signed : (if 32768 ≤ value then (value : ℤ) - 65536 else value) = pcm :=
      signed_emod 32768 low high raw
    have top : value.testBit 15 = true ↔ 32768 ≤ value := testBit_top 15 (by omega)
    have read : sampleValue 1 2 value = some (((if value.testBit 15 then (value : ℤ) - 65536
        else value : ℤ) : ℚ) / 32768) := by
      norm_num [sampleValue]
    simp only [top, signed] at read
    simpa [pcmScale, pcmWidth] using read
  · have raw : (value : ℤ) = pcm % 16777216 := raw (by decide)
    have signed : (if 8388608 ≤ value then (value : ℤ) - 16777216 else value) = pcm :=
      signed_emod 8388608 low high raw
    have top : value.testBit 23 = true ↔ 8388608 ≤ value := testBit_top 23 (by omega)
    have read : sampleValue 2 3 value = some (((if value.testBit 23 then (value : ℤ) - 16777216
        else value : ℤ) : ℚ) / 8388608) := by
      norm_num [sampleValue]
    simp only [top, signed] at read
    simpa [pcmScale, pcmWidth] using read

/-- The header fields and samples of a return datagram, as they lie in memory. -/
structure ReturnPacket (rate : UInt32) (name : StreamName) (sequence : UInt32)
    (samples : Nat → Option ℚ) (frames : Nat) (pcmBits : Int) (data : Memory) : Prop where
  opening : data.read 0 4 = signature
  rateByte : data 4 = UInt8.ofNat (sampleRates.idxOf rate)
  framesByte : data 5 = UInt8.ofNat (frames - 1)
  channelsByte : data 6 = 1
  typeByte : data 7 = if pcmBits = 16 then 1 else 2
  nameBytes : data.read 8 16 = nameField name
  counter : data.read 24 4 = littleEndianBytes 4 sequence.toNat
  payload : ∀ i < frames * 2, data.read (headerSize + i * pcmWidth pcmBits) (pcmWidth pcmBits) =
    pcmBytes pcmBits (pcmValue pcmBits (samples i))

theorem write_returnPacket (out : Memory) {name : StreamName} (valid : validStreamName name = true)
    (rate sequence : UInt32) (samples : Nat → Option ℚ) (frames : Nat) (pcmBits : Int) :
    ReturnPacket rate name sequence samples frames pcmBits
      (out.write 0 (returnDatagram rate name sequence samples frames pcmBits)) := by
  have byte (index : Nat) (small : index < 8) :
      out.write 0 (returnDatagram rate name sequence samples frames pcmBits) index =
        (returnHead rate frames pcmBits)[index] := by
    have bound : index < (returnDatagram rate name sequence samples frames pcmBits).length := by
      simp only [returnDatagram, List.length_append, length_returnHead]
      omega
    have written := out.write_inside 0 _ bound
    rw [Nat.zero_add] at written
    rw [written]
    exact List.getElem_append_left (by simpa using small)
  constructor
  · exact Memory.read_write_middle out 0 [] VbanStream.signature _
  · exact byte 4 (by decide)
  · exact byte 5 (by decide)
  · exact byte 6 (by decide)
  · exact byte 7 (by decide)
  · have found := out.read_write_middle 0 (returnHead rate frames pcmBits) (nameField name)
      (littleEndianBytes 4 sequence.toNat ++ pcmPayload samples frames pcmBits)
    rwa [length_nameField valid] at found
  · have found := out.read_write_middle 0 (returnHead rate frames pcmBits ++ nameField name)
      (littleEndianBytes 4 sequence.toNat) (pcmPayload samples frames pcmBits)
    rwa [List.append_assoc, List.length_append, length_nameField valid,
      length_littleEndianBytes] at found
  · intro i inside
    have wide (j : Nat) : (pcmBytes pcmBits (pcmValue pcmBits (samples j))).length =
        pcmWidth pcmBits := length_littleEndianBytes _ _
    obtain ⟨front, back, same, length⟩ := flatMap_block wide inside
    have found := out.read_write_middle 0 (returnHead rate frames pcmBits ++ (nameField name ++
      (littleEndianBytes 4 sequence.toNat ++ front))) (pcmBytes pcmBits (pcmValue pcmBits (samples i)))
      back
    have place : 0 + (returnHead rate frames pcmBits ++ (nameField name ++
        (littleEndianBytes 4 sequence.toNat ++ front))).length =
        headerSize + i * pcmWidth pcmBits := by
      simp only [List.length_append, length_returnHead, length_nameField valid,
        length_littleEndianBytes, length, headerSize]
      omega
    rw [place, wide] at found
    simpa only [returnDatagram, pcmPayload, same, List.append_assoc] using found

theorem takeWhile_nameField {name : StreamName} (valid : validStreamName name = true) :
    (nameField name).takeWhile (· ≠ 0) = name := by
  have printable := (validStreamName_iff.mp valid).2.2
  rw [nameField, List.takeWhile_append_of_pos]
  · simp
  · intro c member
    have low := (printable c member).1
    simp only [ne_eq, decide_eq_true_eq]
    rintro rfl
    exact absurd low (by decide)

/-- A rounded sample of the datagram, as the receiver hears it. -/
def heardSample (pcmBits : Int) (sample : Option ℚ) : ℚ :=
  (pcmValue pcmBits sample : ℚ) / pcmScale pcmBits

namespace ReturnPacket

variable {rate : UInt32} {name : StreamName} {sequence : UInt32} {samples : Nat → Option ℚ}
  {frames : Nat} {pcmBits : Int} {data : Memory}

theorem decodeSample (packet : ReturnPacket rate name sequence samples frames pcmBits data)
    (bits : pcmBits = 16 ∨ pcmBits = 24) {frame channel : Nat}
    (inside : frame * 2 + channel < frames * 2) :
    decodeSample data (if pcmBits = 16 then 1 else 2) (pcmWidth pcmBits) 2 frame channel =
      some (heardSample pcmBits (samples (frame * 2 + channel))) := by
  obtain ⟨low, high⟩ := pcmValue_mem pcmBits (samples (frame * 2 + channel))
  have positive : (0 : ℚ) < pcmScale pcmBits := by exact_mod_cast pcmScale_pos pcmBits
  have power : ∃ count ≤ 23, (pcmScale pcmBits : ℚ) = 2 ^ count := by
    rcases bits with rfl | rfl
    · exact ⟨15, by norm_num, by norm_num [pcmScale]⟩
    · exact ⟨23, by norm_num, by norm_num [pcmScale]⟩
  obtain ⟨count, narrow, same⟩ := power
  unfold VbanStream.decodeSample
  dsimp only
  rw [packet.payload _ inside, sampleValue_pcm bits low high, Option.map_some, heardSample]
  generalize pcmValue pcmBits (samples (frame * 2 + channel)) = pcm at low high
  have lowQ : -(pcmScale pcmBits : ℚ) ≤ pcm := by exact_mod_cast low
  have highQ : (pcm : ℚ) ≤ pcmScale pcmBits := by exact_mod_cast high.le
  have bound : |pcm| ≤ 2 ^ count := by
    have size : |(pcm : ℚ)| ≤ 2 ^ count := same ▸ abs_le.mpr ⟨lowQ, highQ⟩
    exact_mod_cast size
  rw [clamp_of_mem, same, binary32.round_fixed pcm narrow (by decide) bound]
  · rw [le_div_iff₀ positive]
    linarith
  · rw [div_le_one positive]
    exact highQ

theorem flatten_pairs (value : Nat → ℚ) (count : Nat) :
    ((List.range count).map fun frame => [value (frame * 2), value (frame * 2 + 1)]).flatten =
      (List.range (count * 2)).map value := by
  induction count with
  | zero => rfl
  | succ count ih =>
    rw [List.range_succ, List.map_append, List.flatten_append, ih, Nat.add_mul, Nat.one_mul,
      List.range_succ, List.range_succ]
    simp

theorem decodeSamples (packet : ReturnPacket rate name sequence samples frames pcmBits data)
    (bits : pcmBits = 16 ∨ pcmBits = 24) :
    decodeSamples data (if pcmBits = 16 then 1 else 2) (pcmWidth pcmBits) frames 2 2 =
      some ((List.range (frames * 2)).map fun i => heardSample pcmBits (samples i)) := by
  have frame (f : Nat) (member : f ∈ List.range frames) :
      ((List.range 2).mapM (VbanStream.decodeSample data (if pcmBits = 16 then 1 else 2)
        (pcmWidth pcmBits) 2 f)).map (· ++ List.replicate (2 - 2) 0) =
        some [heardSample pcmBits (samples (f * 2)), heardSample pcmBits (samples (f * 2 + 1))] := by
    have inside := List.mem_range.mp member
    rw [mapM_eq_map fun channel => heardSample pcmBits (samples (f * 2 + channel))]
    · rfl
    · intro channel small
      exact packet.decodeSample bits (by have := List.mem_range.mp small; omega)
  rw [VbanStream.decodeSamples, mapM_eq_map _ frame, Option.map_some,
    flatten_pairs fun i => heardSample pcmBits (samples i)]

theorem decode (packet : ReturnPacket rate name sequence samples frames pcmBits data)
    (encodable : Encodable rate frames pcmBits) (valid : validStreamName name = true) :
    decode data (headerSize + frames * 2 * pcmWidth pcmBits) = .ok {
      format := ⟨rate, 2, if pcmBits = 16 then 1 else 2⟩
      sequence, name
      frames := UInt16.ofNat frames
      samples := (List.range (frames * 2)).map fun i => heardSample pcmBits (samples i) } := by
  have found : sampleRates.idxOf rate < 21 := List.idxOf_lt_length_of_mem encodable.listed
  have few := encodable.few
  have some' := encodable.some
  have rateByte : ∀ index < 21, UInt8.ofNat index &&& 0xe0 = 0 ∧
      (UInt8.ofNat index &&& 0x1f).toNat = index := by decide
  obtain ⟨protocol, index⟩ := rateByte _ found
  have typeByte : (if pcmBits = 16 then (1 : UInt8) else 2) &&& 0xf0 = 0 ∧
      (if pcmBits = 16 then (1 : UInt8) else 2) &&& 0x08 = 0 ∧
      (if pcmBits = 16 then (1 : UInt8) else 2) &&& 7 = (if pcmBits = 16 then 1 else 2) ∧
      ¬ (if pcmBits = 16 then (1 : UInt8) else 2) > 5 ∧
      (if pcmBits = 16 then (1 : UInt8) else 2).toNat = (if pcmBits = 16 then 1 else 2) := by
    split <;> decide
  have width : sampleWidths.getD (if pcmBits = 16 then 1 else 2) 0 = pcmWidth pcmBits := by
    rcases encodable.bits with rfl | rfl <;> rfl
  have count : (UInt8.ofNat (frames - 1)).toNat + 1 = frames := by
    rw [UInt8.toNat_ofNat']
    omega
  have listed : sampleRates.getD (sampleRates.idxOf rate) 0 = rate := by
    rw [List.getD_eq_getElem _ _ (List.idxOf_lt_length_of_mem encodable.listed), List.getElem_idxOf]
  have number : UInt32.ofNat (littleEndian (data.read 24 4)) = sequence := by
    rw [packet.counter, littleEndian_littleEndianBytes]
    apply UInt32.toNat_inj.mp
    have small := sequence.toNat_lt
    simp only [UInt32.toNat_ofNat']
    omega
  have named : readStreamName data (headerSize + frames * 2 * pcmWidth pcmBits) = some name := by
    rw [readStreamName, if_neg, packet.nameBytes, takeWhile_nameField valid, if_pos valid]
    simp [packet.opening]
  unfold VbanStream.decode
  rw [if_neg (by omega), if_neg (by simp [packet.opening]), packet.rateByte, packet.framesByte,
    packet.channelsByte, packet.typeByte, if_neg (by simp [protocol]), if_neg (by simp [typeByte.1]),
    if_neg (by simp [typeByte.2.1])]
  dsimp only
  rw [index, if_neg (by exact not_le.mpr found), if_neg (by decide), typeByte.2.2.1,
    if_neg typeByte.2.2.2.1, typeByte.2.2.2.2, width, count, if_neg]
  · have lanes : (1 : UInt8).toNat + 1 = 2 := rfl
    rw [named, listed, lanes]
    dsimp only
    rw [show (⟨rate, UInt8.ofNat 2, if pcmBits = 16 then 1 else 2⟩ : Format).outputChannels = 2 from
      rfl, packet.decodeSamples encodable.bits, number]
    rfl
  · have fits := encodable.fits
    have lanes : (1 : UInt8).toNat + 1 = 2 := rfl
    rw [lanes]
    omega

end ReturnPacket

theorem pcmPayload_congr {first second : Nat → Option ℚ} {frames : Nat} {pcmBits : Int}
    (same : ∀ i < frames * 2, pcmValue pcmBits (first i) = pcmValue pcmBits (second i)) :
    pcmPayload first frames pcmBits = pcmPayload second frames pcmBits := by
  rw [pcmPayload, pcmPayload, List.flatMap_def, List.flatMap_def]
  congr 1
  apply List.map_congr_left
  intro i member
  rw [same i (List.mem_range.mp member)]

/-- What was heard encodes to the same datagram. -/
theorem returnDatagram_heard (rate : UInt32) (name : StreamName) (sequence : UInt32)
    (samples : Nat → Option ℚ) (frames : Nat) (pcmBits : Int) :
    returnDatagram rate name sequence
        (fun i => ((List.range (frames * 2)).map fun i => heardSample pcmBits (samples i))[i]?)
        frames pcmBits =
      returnDatagram rate name sequence samples frames pcmBits := by
  rw [returnDatagram, returnDatagram]
  congr 3
  apply pcmPayload_congr
  intro i inside
  obtain ⟨low, high⟩ := pcmValue_mem pcmBits (samples i)
  simp only [List.getElem?_map, List.getElem?_range inside, Option.map_some]
  exact pcmValue_exact low high

/-- Decoding inverts encoding up to the rounding to fixed point, and encoding
inverts decoding byte for byte. -/
theorem return_round_trip {out packet : Memory} {rate : UInt32} {name : StreamName}
    {sequence : UInt32} {samples : Nat → Option ℚ} {frames size : Nat} {pcmBits : Int}
    (encoded : encodeStereoPcm out rate name sequence samples frames pcmBits = (packet, size))
    (accepted : size ≠ 0) :
    let scale : ℤ := if pcmBits = 16 then 2 ^ 15 else 2 ^ 23
    ∃ p, decode packet size = .ok p ∧ p.format.rate = rate ∧ p.format.channels = 2 ∧
      p.format.type = (if pcmBits = 16 then 1 else 2) ∧ p.name = name ∧ p.sequence = sequence ∧
      p.frames.toNat = frames ∧ p.samples.length = frames * 2 ∧
      (∀ i < frames * 2, p.samples[i]? = some
        (((clamp (roundHalfAway ((samples i).getD 0 * scale)) (-scale) (scale - 1) : ℤ) : ℚ) /
          scale)) ∧
      size ≤ 1464 ∧ (∀ index, size ≤ index → packet index = out index) ∧
      ∀ other : Memory, ∃ repeated,
        encodeStereoPcm other p.format.rate p.name p.sequence (fun i => p.samples[i]?)
          p.frames.toNat pcmBits = (repeated, size) ∧
        ∀ index, index < size → repeated index = packet index := by
  intro scale
  obtain ⟨encodable, valid⟩ := encodable_of_size encoded accepted
  rw [encode_accepted out encodable valid] at encoded
  obtain ⟨rfl, rfl⟩ := Prod.mk.inj encoded
  have length : (returnDatagram rate name sequence samples frames pcmBits).length =
      headerSize + frames * 2 * pcmWidth pcmBits := length_returnDatagram valid ..
  have few := encodable.few
  have count : (UInt16.ofNat frames).toNat = frames := by
    rw [UInt16.toNat_ofNat']
    omega
  have scaled : scale = pcmScale pcmBits := by
    rw [pcmScale]
    rfl
  refine ⟨_, (write_returnPacket out valid rate sequence samples frames pcmBits).decode encodable
    valid, rfl, rfl, rfl, rfl, rfl, count, by simp, ?_, encodable.fits, ?_, ?_⟩
  · intro i inside
    simp only [List.getElem?_map, List.getElem?_range inside, Option.map_some]
    rw [scaled]
    rfl
  · intro index beyond
    exact Memory.write_outside _ _ _ (.inr (by omega))
  · intro other
    simp only [count]
    refine ⟨_, encode_accepted other encodable valid sequence _, ?_⟩
    intro index inside
    rw [returnDatagram_heard]
    have bound : index < (returnDatagram rate name sequence samples frames pcmBits).length := by
      omega
    have again := other.write_inside 0 _ bound
    have written := out.write_inside 0 _ bound
    rw [Nat.zero_add] at again written
    rw [again, written]

/-- A frame with a half on the left and a sample that is not finite on the right. -/
def halfFrame (i : Nat) : Option ℚ := if i = 0 then some (1 / 2) else none

theorem return_round_trip_halfFrame :
    let packet := (encodeStereoPcm (fun _ => 0xa5) 48000 (ascii "RETURN") 7 halfFrame 1 16).1
    ∃ p, decode packet 32 = .ok p ∧ p.format.rate = 48000 ∧ p.sequence = 7 ∧
      p.samples[0]? = some (1 / 2) ∧ p.samples[1]? = some 0 ∧ packet 32 = 0xa5 := by
  intro packet
  have encoded : encodeStereoPcm (fun _ => 0xa5) 48000 (ascii "RETURN") 7 halfFrame 1 16 =
      (packet, 32) := Prod.ext rfl (by decide +kernel)
  obtain ⟨p, decoded, rate, _, _, _, sequence, _, _, samples, _, beyond, _⟩ :=
    return_round_trip encoded (by decide)
  refine ⟨p, decoded, rate, sequence, ?_, ?_, beyond 32 le_rfl⟩
  · rw [samples 0 (by decide)]
    decide +kernel
  · rw [samples 1 (by decide)]
    decide +kernel

end VbanStream
