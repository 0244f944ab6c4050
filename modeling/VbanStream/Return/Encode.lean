import VbanStream.Protocol.Audio

namespace VbanStream

open Library

def pcmScale (pcmBits : Int) : ℤ := if pcmBits = 16 then 32768 else 8388608

def pcmWidth (pcmBits : Int) : Nat := (pcmBits / 8).toNat

/-- A float sample in fixed point; what is not finite is silent. -/
def pcmValue (pcmBits : Int) (sample : Option ℚ) : ℤ :=
  let scale := pcmScale pcmBits
  clamp (roundHalfAway (sample.getD 0 * scale)) (-scale) (scale - 1)

/-- The lowest bytes of the two's complement. -/
def pcmBytes (pcmBits : Int) (pcm : ℤ) : List UInt8 :=
  littleEndianBytes (pcmWidth pcmBits) (pcm % 2 ^ 32).toNat

def pcmPayload (samples : Nat → Option ℚ) (frames : Nat) (pcmBits : Int) : List UInt8 :=
  (List.range (frames * 2)).flatMap fun i => pcmBytes pcmBits (pcmValue pcmBits (samples i))

/-- The size of the datagram, zero where nothing is written. -/
def encodeStereoPcm (out : Memory) (rate : UInt32) (name : StreamName) (sequence : UInt32)
    (samples : Nat → Option ℚ) (frames : Nat) (pcmBits : Int) : Memory × Nat :=
  if pcmBits ≠ 16 ∧ pcmBits ≠ 24 then (out, 0)
  else
    let bytesPerSample := pcmWidth pcmBits
    let found := sampleRates.idxOf rate
    if found = sampleRates.length ∨ validStreamName name = false ∨ frames = 0 ∨ frames > 256 ∨
        headerSize + frames * 2 * bytesPerSample > maxDatagram then (out, 0)
    else
      let out := out.fill 0 headerSize 0
      let out := out.write 0 signature
      let out := out.write 4 [UInt8.ofNat found]
      let out := out.write 5 [UInt8.ofNat (frames - 1)]
      let out := out.write 6 [1]
      let out := out.write 7 [if pcmBits = 16 then 1 else 2]
      let out := out.write 8 name
      let out := out.write 24 (littleEndianBytes 4 sequence.toNat)
      let out := out.write headerSize (pcmPayload samples frames pcmBits)
      (out, headerSize + frames * 2 * bytesPerSample)

/-- The name field of a header. -/
def nameField (name : StreamName) : List UInt8 := name ++ List.replicate (16 - name.length) 0

/-- The bytes before the name. -/
def returnHead (rate : UInt32) (frames : Nat) (pcmBits : Int) : List UInt8 :=
  signature ++ [UInt8.ofNat (sampleRates.idxOf rate), UInt8.ofNat (frames - 1), 1,
    if pcmBits = 16 then 1 else 2]

/-- A return datagram, in its four parts. -/
def returnDatagram (rate : UInt32) (name : StreamName) (sequence : UInt32)
    (samples : Nat → Option ℚ) (frames : Nat) (pcmBits : Int) : List UInt8 :=
  returnHead rate frames pcmBits ++ (nameField name ++ (littleEndianBytes 4 sequence.toNat ++
    pcmPayload samples frames pcmBits))

/-- What `encode_stereo_pcm` accepts, the name apart. -/
structure Encodable (rate : UInt32) (frames : Nat) (pcmBits : Int) : Prop where
  bits : pcmBits = 16 ∨ pcmBits = 24
  listed : rate ∈ sampleRates
  some : 0 < frames
  few : frames ≤ 256
  fits : headerSize + frames * 2 * pcmWidth pcmBits ≤ maxDatagram

@[simp] theorem length_returnHead (rate : UInt32) (frames : Nat) (pcmBits : Int) :
    (returnHead rate frames pcmBits).length = 8 := rfl

theorem length_nameField {name : StreamName} (valid : validStreamName name = true) :
    (nameField name).length = 16 := by
  have short := (validStreamName_iff.mp valid).2.1
  simp only [nameField, List.length_append, List.length_replicate]
  omega

theorem length_pcmPayload (samples : Nat → Option ℚ) (frames : Nat) (pcmBits : Int) :
    (pcmPayload samples frames pcmBits).length = frames * 2 * pcmWidth pcmBits := by
  simp [pcmPayload, pcmBytes, List.length_flatMap]

theorem length_returnDatagram {rate : UInt32} {name : StreamName}
    (valid : validStreamName name = true) (sequence : UInt32) (samples : Nat → Option ℚ)
    (frames : Nat) (pcmBits : Int) :
    (returnDatagram rate name sequence samples frames pcmBits).length =
      headerSize + frames * 2 * pcmWidth pcmBits := by
  simp only [returnDatagram, List.length_append, length_returnHead, length_nameField valid,
    length_littleEndianBytes, length_pcmPayload, headerSize]
  omega

/-- The name at its place in the name field. -/
theorem write_name (memory : Memory) {name : StreamName} (valid : validStreamName name = true)
    (front back : List UInt8) :
    (memory.write 0 (front ++ (List.replicate 16 0 ++ back))).write front.length name =
      memory.write 0 (front ++ (nameField name ++ back)) := by
  have short := (validStreamName_iff.mp valid).2.1
  have split : List.replicate 16 (0 : UInt8) =
      List.replicate name.length 0 ++ List.replicate (16 - name.length) 0 := by
    rw [List.replicate_append_replicate]
    congr 1
    omega
  have written := memory.write_over 0 front (List.replicate name.length 0)
    (List.replicate (16 - name.length) 0 ++ back) name (by simp)
  rw [Nat.zero_add] at written
  rw [split, nameField, List.append_assoc, List.append_assoc, written]

/-- The header's fields one after the other. -/
theorem write_header (out : Memory) {name : StreamName} (valid : validStreamName name = true)
    (rate frames channels type : UInt8) (sequence : UInt32) :
    ((((((((out.fill 0 headerSize 0).write 0 signature).write 4 [rate]).write 5 [frames]).write 6
      [channels]).write 7 [type]).write 8 name).write 24 (littleEndianBytes 4 sequence.toNat)) =
      out.write 0 (signature ++ [rate, frames, channels, type] ++
        (nameField name ++ littleEndianBytes 4 sequence.toNat)) := by
  have field (front : List UInt8) (value : UInt8) (back : List UInt8) :
      (out.write 0 (front ++ ([0] ++ back))).write (0 + front.length) [value] =
        out.write 0 (front ++ ([value] ++ back)) := out.write_over 0 front [0] back [value] rfl
  have named := write_name out valid (signature ++ [rate, frames, channels, type])
    (List.replicate 4 0)
  have numbered := out.write_over 0
    (signature ++ [rate, frames, channels, type] ++ nameField name) (List.replicate 4 0) []
    (littleEndianBytes 4 sequence.toNat) (by simp)
  have place : 0 + (signature ++ [rate, frames, channels, type] ++ nameField name).length = 24 := by
    rw [List.length_append, length_nameField valid]
    rfl
  have start : (out.fill 0 headerSize 0).write 0 signature =
      out.write 0 (signature ++ List.replicate 24 0) :=
    out.write_over 0 [] (List.replicate 4 0) (List.replicate 24 0) signature rfl
  rw [place] at numbered
  rw [start]
  have first := field signature rate (List.replicate 23 0)
  have second := field (signature ++ [rate]) frames (List.replicate 22 0)
  have third := field (signature ++ [rate, frames]) channels (List.replicate 21 0)
  have fourth := field (signature ++ [rate, frames, channels]) type (List.replicate 20 0)
  simp only [signature, List.cons_append, List.nil_append, List.append_nil, List.replicate_succ,
    List.replicate_zero, List.length_cons, List.length_nil, Nat.reduceAdd] at *
  rw [first, second, third, fourth, named, numbered]

theorem encode_accepted (out : Memory) {rate : UInt32} {frames : Nat} {pcmBits : Int}
    (encodable : Encodable rate frames pcmBits) {name : StreamName}
    (valid : validStreamName name = true) (sequence : UInt32) (samples : Nat → Option ℚ) :
    encodeStereoPcm out rate name sequence samples frames pcmBits =
      (out.write 0 (returnDatagram rate name sequence samples frames pcmBits),
        headerSize + frames * 2 * pcmWidth pcmBits) := by
  obtain ⟨bits, listed, some, few, fits⟩ := encodable
  have found : sampleRates.idxOf rate < sampleRates.length := List.idxOf_lt_length_of_mem listed
  have header := write_header out valid (UInt8.ofNat (sampleRates.idxOf rate))
    (UInt8.ofNat (frames - 1)) 1 (if pcmBits = 16 then 1 else 2) sequence
  unfold encodeStereoPcm
  rw [if_neg (by omega), if_neg (by simp only [valid, Bool.true_eq_false, false_or]; omega)]
  dsimp only
  rw [header]
  have place : 0 + (returnHead rate frames pcmBits ++
      (nameField name ++ littleEndianBytes 4 sequence.toNat)).length = headerSize := by
    simp only [List.length_append, length_returnHead, length_nameField valid,
      length_littleEndianBytes, headerSize]
  have appended := out.write_append 0 (returnHead rate frames pcmBits ++
    (nameField name ++ littleEndianBytes 4 sequence.toNat)) (pcmPayload samples frames pcmBits)
  rw [place, List.append_assoc, List.append_assoc] at appended
  exact congrArg (·, headerSize + frames * 2 * pcmWidth pcmBits) appended

/-- Everything else is refused, and nothing is written. -/
theorem encode_refused (out : Memory) {rate : UInt32} {name : StreamName} {frames : Nat}
    {pcmBits : Int} (refused : ¬ (Encodable rate frames pcmBits ∧ validStreamName name = true))
    (sequence : UInt32) (samples : Nat → Option ℚ) :
    encodeStereoPcm out rate name sequence samples frames pcmBits = (out, 0) := by
  unfold encodeStereoPcm
  by_cases bits : pcmBits ≠ 16 ∧ pcmBits ≠ 24
  · rw [if_pos bits]
  · rw [if_neg bits]
    dsimp only
    by_cases checks : sampleRates.idxOf rate = sampleRates.length ∨ validStreamName name = false ∨
        frames = 0 ∨ frames > 256 ∨ headerSize + frames * 2 * pcmWidth pcmBits > maxDatagram
    · rw [if_pos checks]
    · exfalso
      apply refused
      simp only [not_or, not_lt, Bool.not_eq_false] at checks
      obtain ⟨listed, valid, some, few, fits⟩ := checks
      refine ⟨⟨by omega, ?_, by omega, few, fits⟩, valid⟩
      exact List.idxOf_lt_length_iff.mp (lt_of_le_of_ne List.idxOf_le_length listed)

theorem encodable_of_size {out packet : Memory} {rate : UInt32} {name : StreamName}
    {sequence : UInt32} {samples : Nat → Option ℚ} {frames size : Nat} {pcmBits : Int}
    (encoded : encodeStereoPcm out rate name sequence samples frames pcmBits = (packet, size))
    (accepted : size ≠ 0) : Encodable rate frames pcmBits ∧ validStreamName name = true := by
  by_contra refused
  rw [encode_refused out refused] at encoded
  cases encoded
  exact accepted rfl

end VbanStream
