import VbanStream.Library.Circular
import VbanStream.Video.FrameSender

namespace VbanStream

open Library FrameSender

namespace FrameSender

theorem flags_mem (count index : Nat) : flags count index ∈ FrameAssembler.imageFlags := by
  unfold flags
  split <;> split <;> decide

theorem flags_last (count index : Nat) : flags count index &&& 4 = 0 ↔ index + 1 ≠ count := by
  unfold flags
  split <;> split <;> rename_i last _ <;>
    simp only [ne_eq, last, not_true_eq_false, not_false_eq_true] <;> decide

theorem flags_first (count index : Nat) : flags count index &&& 1 = 0 ↔ index ≠ 0 := by
  unfold flags
  split <;> split <;> rename_i first <;>
    simp only [ne_eq, first, not_true_eq_false, not_false_eq_true] <;> decide

theorem rateIndex_valid (mbps : Int) :
    (0x80 ||| rateIndex mbps) &&& 0xe0 = 0x80 ∧ (0x80 ||| rateIndex mbps) &&& 0x1f < 25 := by
  unfold rateIndex
  split
  · decide
  · split
    · decide
    · split
      · decide
      · split <;> decide

theorem length_payload (encoded : List UInt8) (index : Nat) :
    (payload encoded index).length = min 1436 (encoded.length - index * 1436) := by
  simp [payload, fragmentBytes]

theorem fragmentCount_le {call : SendCall} (accepted : accepts call = true) :
    fragmentCount call.encoded ≤ 35051 := by
  simp only [accepts, Bool.and_eq_true, decide_eq_true_eq] at accepted
  have size := accepted.1.2
  simp only [maxImageBytes] at size
  unfold fragmentCount fragmentBytes
  omega

theorem take_append_payload (encoded : List UInt8) (index : Nat) :
    encoded.take (index * fragmentBytes) ++ payload encoded index =
      encoded.take ((index + 1) * fragmentBytes) := by
  rw [payload, Nat.add_mul, Nat.one_mul, List.take_add]

theorem take_fragmentCount (encoded : List UInt8) :
    encoded.take (fragmentCount encoded * fragmentBytes) = encoded := by
  apply List.take_of_length_le
  unfold fragmentCount fragmentBytes
  omega

/-- A datagram as the receiver reads it: fragment `index` of an image. -/
structure Fragment (encoded : List UInt8) (frame : UInt32) (index : Nat) (bytes : List UInt8) :
    Prop where
  inside : index < fragmentCount encoded
  valid : FrameAssembler.validHeader (Memory.ofBytes bytes) bytes.length = true
  flags : Memory.ofBytes bytes 7 = FrameSender.flags (fragmentCount encoded) index
  number : littleEndian ((Memory.ofBytes bytes).read 5 2) = index % 2 ^ 16
  frame : littleEndian ((Memory.ofBytes bytes).read 24 4) = frame.toNat
  payload : (Memory.ofBytes bytes).read headerSize (bytes.length - headerSize) =
    FrameSender.payload encoded index

/-- The shared bytes of an image's datagrams. -/
structure Headed (frame : UInt32) (packet : Memory) : Prop where
  signature : packet.read 0 4 = signature
  protocol : packet 4 &&& 0xe0 = 0x80 ∧ packet 4 &&& 0x1f < 25
  frame : packet.read 24 4 = littleEndianBytes 4 frame.toNat

theorem header_headed (config : FrameOutputConfig) (frame : UInt32) :
    Headed frame (header config frame) := by
  have counter : (littleEndianBytes 4 frame.toNat).length = 4 := length_littleEndianBytes _ _
  constructor
  · rw [header, Memory.read_write_outside _ _ _ (by omega),
      Memory.read_write_outside _ _ _ (by omega), Memory.read_write_outside _ _ _ (by omega)]
    exact Memory.read_write _ 0 VbanStream.signature
  · have protocol : header config frame 4 = 0x80 ||| rateIndex config.mbps := by
      rw [header, Memory.write_outside _ _ _ (by omega), Memory.write_outside _ _ _ (by omega)]
      exact Memory.write_inside _ 4 [0x80 ||| rateIndex config.mbps] (show 0 < 1 by decide)
    rw [protocol]
    exact rateIndex_valid config.mbps
  · have written := Memory.read_write (((Memory.write (fun _ => 0) 0 VbanStream.signature).write 4
      [0x80 ||| rateIndex config.mbps]).write 8 config.streamName) 24
      (littleEndianBytes 4 frame.toNat)
    rwa [counter] at written

theorem patch_headed {frame : UInt32} {packet : Memory} (headed : Headed frame packet)
    (encoded : List UInt8) (index : Nat) : Headed frame (patch packet encoded index) := by
  have shared (start size : Nat) (low : start + size ≤ 5 ∨ 8 ≤ start)
      (high : start + size ≤ headerSize) :
      (patch packet encoded index).read start size = packet.read start size := by
    unfold headerSize at high
    rw [patch, Memory.read_write_outside _ _ _ (by unfold headerSize; omega),
      Memory.read_write_outside _ _ _ (by simp; omega),
      Memory.read_write_outside _ _ _ (by simp; omega)]
  have protocol : patch packet encoded index 4 = packet 4 := by
    have same := shared 4 1 (by omega) (by decide)
    simpa [Memory.read] using same
  exact ⟨(shared 0 4 (by omega) (by decide)).trans headed.signature, protocol ▸ headed.protocol,
    (shared 24 4 (by omega) (by decide)).trans headed.frame⟩

/-- What is written of a fragment is what the receiver reads. -/
theorem patch_fragment {frame : UInt32} {packet : Memory} (headed : Headed frame packet)
    {encoded : List UInt8} {index : Nat} (inside : index < fragmentCount encoded) :
    Fragment encoded frame index
      ((patch packet encoded index).read 0 (headerSize + (payload encoded index).length)) := by
  have after := patch_headed headed encoded index
  have length := length_payload encoded index
  have filled : 0 < (payload encoded index).length := by
    unfold fragmentCount fragmentBytes at inside
    omega
  generalize size : headerSize + (payload encoded index).length = total
  have header : headerSize = 28 := rfl
  have reads (start count : Nat) (within : start + count ≤ total) :
      (Memory.ofBytes ((patch packet encoded index).read 0 total)).read start count =
        (patch packet encoded index).read start count := by
    apply Memory.read_congr
    intro offset bound
    exact Memory.ofBytes_read _ (by omega)
  have byte (position : Nat) (within : position < total) :
      Memory.ofBytes ((patch packet encoded index).read 0 total) position =
        patch packet encoded index position := Memory.ofBytes_read _ within
  have flag : patch packet encoded index 7 = flags (fragmentCount encoded) index := by
    rw [patch, Memory.write_outside _ _ _ (by omega)]
    exact Memory.write_inside _ 7 [flags (fragmentCount encoded) index] (show 0 < 1 by decide)
  have number : (patch packet encoded index).read 5 2 =
      [UInt8.ofNat index, UInt8.ofNat (index / 256)] := by
    rw [patch, Memory.read_write_outside _ _ _ (by omega),
      Memory.read_write_outside _ _ _ (by simp)]
    exact Memory.read_write _ 5 [UInt8.ofNat index, UInt8.ofNat (index / 256)]
  have clean : flags (fragmentCount encoded) index &&& 0xf8 = 0 := by
    unfold flags
    split <;> split <;> decide
  constructor
  · exact inside
  · have small : total ≤ maxDatagram := by unfold maxDatagram; omega
    have big : headerSize < total := by omega
    simp only [FrameAssembler.validHeader, Memory.length_read, big, small, reads 0 4 (by omega),
      after.signature, byte 4 (by omega), after.protocol, byte 7 (by omega), flag, clean]
    decide
  · rw [byte 7 (by omega), flag]
  · rw [reads 5 2 (by omega), number]
    simp only [littleEndian, UInt8.toNat_ofNat']
    omega
  · rw [reads 24 4 (by omega), after.frame, littleEndian_littleEndianBytes]
    exact Nat.mod_eq_of_lt frame.toNat_lt
  · rw [Memory.length_read, reads headerSize _ (by omega)]
    have rest : total - headerSize = (payload encoded index).length := by omega
    rw [rest, patch]
    exact Memory.read_write _ headerSize (payload encoded index)

/-- The datagrams of an image are its fragments, from the first one on. -/
theorem sendFrom_fragment {encoded : List UInt8} {attempts : Nat → Attempt} {frame : UInt32}
    {packet : Memory} {index remaining position : Nat} {bytes : List UInt8}
    (headed : Headed frame packet) (total : index + remaining = fragmentCount encoded)
    (sent : (sendFrom encoded attempts packet index remaining).datagrams[position]? = some bytes) :
    Fragment encoded frame (index + position) bytes := by
  induction remaining generalizing packet index position with
  | zero => simp [sendFrom] at sent
  | succ remaining ih =>
    unfold sendFrom at sent
    split at sent
    · simp at sent
    · simp at sent
    · simp at sent
    · cases position with
      | zero =>
        simp only [List.getElem?_cons_zero, Option.some.injEq] at sent
        rw [← sent]
        exact patch_fragment headed (by omega)
      | succ position =>
        simp only [List.getElem?_cons_succ] at sent
        have later := ih (patch_headed headed encoded index) (by omega) sent
        rwa [Nat.add_right_comm] at later

theorem transmit_getElem? (start : UInt32) (calls : List SendCall) (number : Nat) :
    (transmit start calls)[number]? = (calls.filter accepts)[number]?.map fun call =>
      { call, transmission := (sendImage (serial start number) call).2 } := by
  induction calls generalizing start number with
  | nil => rfl
  | cons call rest ih =>
    unfold transmit
    dsimp only
    by_cases accepted : accepts call = true
    · have next : (sendImage start call).1 = start + 1 := by simp [sendImage, accepted]
      rw [if_pos accepted, List.filter_cons_of_pos accepted, next]
      cases number with
      | zero => rw [serial_zero]; rfl
      | succ number =>
        have same : serial (start + 1) number = serial start (number + 1) := by
          rw [serial_succ, serial, serial, UInt32.add_assoc, UInt32.add_comm 1, ← UInt32.add_assoc]
        rw [List.getElem?_cons_succ, List.getElem?_cons_succ, ih, same]
    · have next : (sendImage start call).1 = start := by
        simp [sendImage, Bool.eq_false_iff.mpr accepted]
      rw [if_neg accepted, List.filter_cons_of_neg accepted, next, ih]

theorem transmit_image {start : UInt32} {calls : List SendCall} {number : Nat} {image : Image}
    (found : (transmit start calls)[number]? = some image) :
    image.call ∈ calls ∧ accepts image.call = true ∧
      image.transmission = (sendImage (serial start number) image.call).2 := by
  rw [transmit_getElem?] at found
  obtain ⟨call, listed, rfl⟩ := Option.map_eq_some_iff.mp found
  obtain ⟨member, accepted⟩ := List.mem_filter.mp (List.mem_of_getElem? listed)
  exact ⟨member, accepted, rfl⟩

theorem image_fragment {start : UInt32} {calls : List SendCall} {number position : Nat}
    {image : Image} {bytes : List UInt8} (found : (transmit start calls)[number]? = some image)
    (sent : image.transmission.datagrams[position]? = some bytes) :
    Fragment image.call.encoded (serial start number) position bytes ∧
      accepts image.call = true := by
  obtain ⟨_, accepted, transmission⟩ := transmit_image found
  have taken : (sendImage (serial start number) image.call).2 =
      sendFrom image.call.encoded image.call.attempts
        (header image.call.config (serial start number)) 0 (fragmentCount image.call.encoded) := by
    simp [sendImage, accepted]
  rw [transmission, taken] at sent
  have fragment := sendFrom_fragment (header_headed _ _) (Nat.zero_add _) sent
  rw [Nat.zero_add] at fragment
  exact ⟨fragment, accepted⟩

end FrameSender

end VbanStream
