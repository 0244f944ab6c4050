import VbanStream.Return.Transmitter

namespace VbanStream

open Library

/-- A sender for one return alone: its route, and the datagrams it has sent. -/
structure PlainReturn where
  config : Option ReturnConfig := none
  sent : List (List UInt8) := []

namespace PlainReturn

inductive Operation where
  | activate (config : Option ReturnConfig)
  | send (block : ReturnBlock)

/-- A block as `encode_stereo_pcm` writes it for this return. -/
def datagram (config : ReturnConfig) (sequence : UInt32) (block : ReturnBlock) :
    Option (List UInt8) :=
  if config.enabled = false then none
  else
    let (packet, size) := encodeStereoPcm (fun _ => 0) block.rate config.streamName sequence
      block.stereo block.frames config.pcmBits
    if size = 0 then none else some (packet.read 0 size)

/-- The counter is the number of datagrams sent so far. -/
def perform (p : PlainReturn) : Operation → PlainReturn
  | .activate config => { p with config }
  | .send block =>
    match p.config with
    | none => p
    | some config =>
      { p with sent := p.sent ++ (datagram config (UInt32.ofNat p.sent.length) block).toList }

def after (operations : List Operation) : PlainReturn := operations.foldl perform {}

end PlainReturn

namespace Transmitter

/-- The datagrams handed to the socket of one return. -/
def sentTo (s : Transmitter) (i : Fin returnCount) : List (List UInt8) :=
  s.trace.filterMap fun attempt => if attempt.1 = i then some attempt.2 else none

/-- What one return sees of an operation. -/
def Operation.plain (i : Fin returnCount) : Operation → PlainReturn.Operation
  | .activate next => .activate (next.map fun routing => (routing i).val.config)
  | .send call => .send call.toReturnBlock

/-- The bit depth of a shared packet. -/
def depth (format : Bool) : Int := if format then 16 else 24

/-- A shared packet is empty, or a datagram of the block under some name and counter. -/
def PacketSound (block : ReturnBlock) (format : Bool) (buffer : Memory × Nat) : Prop :=
  buffer = (fun _ => 0, 0) ∨
    Encodable block.rate block.frames (depth format) ∧
      buffer.2 = headerSize + block.frames * 2 * pcmWidth (depth format) ∧
      ∃ name sequence, validStreamName name = true ∧
        buffer.1 = Memory.write (fun _ => 0) 0
          (returnDatagram block.rate name sequence block.stereo block.frames (depth format))

/-- Rewriting the name and the counter makes the datagram of another return. -/
theorem patch_datagram (out : Memory) {old name : StreamName} (was : validStreamName old = true)
    (valid : validStreamName name = true) (before sequence : UInt32) (block : ReturnBlock)
    (pcmBits : Int) :
    (((out.write 0 (returnDatagram block.rate old before block.stereo block.frames pcmBits)).fill
      8 16 0).write 8 name).write 24 (littleEndianBytes 4 sequence.toNat) =
      out.write 0 (returnDatagram block.rate name sequence block.stereo block.frames pcmBits) := by
  have cleared := out.write_over 0 (returnHead block.rate block.frames pcmBits) (nameField old)
    (littleEndianBytes 4 before.toNat ++ pcmPayload block.stereo block.frames pcmBits)
    (List.replicate 16 0) (by simp [length_nameField was])
  have named := write_name out valid (returnHead block.rate block.frames pcmBits)
    (littleEndianBytes 4 before.toNat ++ pcmPayload block.stereo block.frames pcmBits)
  have numbered := out.write_over 0 (returnHead block.rate block.frames pcmBits ++ nameField name)
    (littleEndianBytes 4 before.toNat) (pcmPayload block.stereo block.frames pcmBits)
    (littleEndianBytes 4 sequence.toNat) (by simp)
  have place : 0 + (returnHead block.rate block.frames pcmBits ++ nameField name).length = 24 := by
    simp [length_nameField valid]
  rw [length_returnHead, Nat.zero_add] at cleared
  rw [length_returnHead] at named
  rw [place, List.append_assoc, List.append_assoc] at numbered
  rw [returnDatagram, Memory.fill, cleared, named, numbered, returnDatagram]

/-- The datagram of a return that is on, where the format can be encoded. -/
theorem datagram_encodable {config : ReturnConfig} {block : ReturnBlock}
    (enabled : config.enabled = true) (valid : validStreamName config.streamName = true)
    (encodable : Encodable block.rate block.frames config.pcmBits) (sequence : UInt32) :
    PlainReturn.datagram config sequence block =
      some (returnDatagram block.rate config.streamName sequence block.stereo block.frames
        config.pcmBits) := by
  have length : (returnDatagram block.rate config.streamName sequence block.stereo block.frames
      config.pcmBits).length = headerSize + block.frames * 2 * pcmWidth config.pcmBits :=
    length_returnDatagram valid ..
  have nonempty : headerSize + block.frames * 2 * pcmWidth config.pcmBits ≠ 0 := by
    simp [headerSize]
  rw [PlainReturn.datagram, if_neg (by simp [enabled]), encode_accepted _ encodable valid]
  dsimp only
  rw [if_neg nonempty, ← length, Memory.read_write]

theorem datagram_refused {config : ReturnConfig} {block : ReturnBlock}
    (refused : ¬ Encodable block.rate block.frames config.pcmBits) (sequence : UInt32) :
    PlainReturn.datagram config sequence block = none := by
  rw [PlainReturn.datagram, encode_refused _ fun accepted => refused accepted.1]
  split <;> rfl

/-- Encoding into an empty packet, or keeping the one that is there. -/
theorem encodeOnce_sound {block : ReturnBlock} {format : Bool} {buffer : Memory × Nat}
    (sound : PacketSound block format buffer) :
    PacketSound block format (encodeOnce block (depth format) buffer) ∧
      ((encodeOnce block (depth format) buffer).2 = 0 ↔
        ¬ Encodable block.rate block.frames (depth format)) := by
  have monitor : validStreamName (ascii "MONITOR") = true := by decide
  rcases sound with rfl | ⟨encodable, size, written⟩
  · rw [encodeOnce, if_pos rfl]
    by_cases encodable : Encodable block.rate block.frames (depth format)
    · rw [encode_accepted _ encodable monitor]
      exact ⟨.inr ⟨encodable, rfl, _, _, monitor, rfl⟩, by simp [headerSize, encodable]⟩
    · rw [encode_refused _ fun accepted => encodable accepted.1]
      exact ⟨.inl rfl, by simp [encodable]⟩
  · have filled : buffer.2 ≠ 0 := by
      rw [size]
      simp [headerSize]
    rw [encodeOnce, if_neg filled]
    exact ⟨.inr ⟨encodable, size, written⟩, by simp [filled, encodable]⟩

/-- What one turn of the loop sends, and that the shared packets stay sound. -/
structure Turn (call : ReturnCall) (config : ReturnConfig) (i : Fin returnCount)
    (s : Transmitter) (next : Transmitter × Packets) : Prop where
  packets : ∀ format, PacketSound call.toReturnBlock format (next.2 format)
  trace : next.1.trace = s.trace ++
    ((PlainReturn.datagram config (s.sequences i) call.toReturnBlock).map fun bytes =>
      (i, bytes)).toList
  sequences : next.1.sequences =
    if (PlainReturn.datagram config (s.sequences i) call.toReturnBlock).isSome then
      Function.update s.sequences i (s.sequences i + 1)
    else s.sequences

theorem record_trace (s : Transmitter) (call : ReturnCall) (i : Fin returnCount) :
    (s.record call i).trace = s.trace ∧ (s.record call i).sequences = s.sequences ∧
      (s.record call i).routing = s.routing := by
  unfold record
  split <;> exact ⟨rfl, rfl, rfl⟩

theorem sound_update {block : ReturnBlock} {packets : Packets}
    (sound : ∀ format, PacketSound block format (packets format)) {format : Bool}
    {buffer : Memory × Nat} (fresh : PacketSound block format buffer) (other : Bool) :
    PacketSound block other (Function.update packets format buffer other) := by
  rcases eq_or_ne other format with rfl | different
  · rwa [Function.update_self]
  · rw [Function.update_of_ne different]
    exact sound other

theorem sendTo_turn {call : ReturnCall} (routing : ReturnRouting) (s : Transmitter)
    {packets : Packets} (sound : ∀ format, PacketSound call.toReturnBlock format (packets format))
    (i : Fin returnCount) :
    Turn call (routing i).val.config i s (sendTo call routing (s, packets) i) := by
  obtain ⟨bits, ready⟩ := (routing i).property
  rw [sendTo]
  dsimp only
  generalize (routing i).val.config = config at bits ready
  by_cases enabled : config.enabled = true
  · have valid := (ready enabled).2
    have same : depth (config.pcmBits == 16) = config.pcmBits := by
      rcases bits with known | known <;> simp [known, depth]
    obtain ⟨fresh, empty⟩ := encodeOnce_sound (sound (config.pcmBits == 16))
    rw [same] at fresh empty
    rw [if_neg (by simp [enabled])]
    generalize encodeOnce call.toReturnBlock config.pcmBits (packets (config.pcmBits == 16)) =
      buffer at fresh empty ⊢
    obtain ⟨packet, size⟩ := buffer
    dsimp only at empty ⊢
    by_cases refused : size = 0
    · have none := datagram_refused (empty.mp refused) (s.sequences i)
      rw [if_pos refused]
      exact ⟨sound_update sound fresh, by simp [none], by simp [none]⟩
    · obtain cleared | ⟨encodable, whole, old, before, was, written⟩ := fresh
      · cases cleared
        exact absurd rfl refused
      · have fits : Encodable call.rate call.frames config.pcmBits := same ▸ encodable
        have some := datagram_encodable enabled valid fits (s.sequences i)
        have total := whole
        rw [same] at total written
        have length : (returnDatagram call.rate config.streamName (s.sequences i) call.stereo
            call.frames config.pcmBits).length = size := by
          rw [length_returnDatagram valid]
          exact total.symm
        dsimp only at written
        rw [if_neg refused, written, patch_datagram _ was valid]
        refine ⟨sound_update sound (.inr ⟨encodable, whole, config.streamName,
          s.sequences i, valid, ?_⟩), ?_, ?_⟩
        · rw [same]
        · rw [(record_trace _ call i).1, some, ← length, Memory.read_write]
          rfl
        · rw [(record_trace _ call i).2.1, some]
          rfl
  · have off : config.enabled = false := by simpa using enabled
    have none : PlainReturn.datagram config (s.sequences i) call.toReturnBlock = none := by
      rw [PlainReturn.datagram, if_pos off]
    rw [if_pos off]
    exact ⟨sound, by simp [none], by simp [none]⟩

/-- A turn seen from each return: its own datagram, or nothing. -/
theorem Turn.sentTo {call : ReturnCall} {config : ReturnConfig} {i : Fin returnCount}
    {s : Transmitter} {next : Transmitter × Packets} (turn : Turn call config i s next) :
    next.1.sentTo i = s.sentTo i ++
      (PlainReturn.datagram config (s.sequences i) call.toReturnBlock).toList := by
  rw [Transmitter.sentTo, turn.trace, List.filterMap_append, Transmitter.sentTo]
  cases PlainReturn.datagram config (s.sequences i) call.toReturnBlock <;> simp

theorem Turn.others {call : ReturnCall} {config : ReturnConfig} {i j : Fin returnCount}
    {s : Transmitter} {next : Transmitter × Packets} (turn : Turn call config i s next)
    (different : i ≠ j) : next.1.sentTo j = s.sentTo j ∧ next.1.sequences j = s.sequences j := by
  constructor
  · rw [Transmitter.sentTo, turn.trace, List.filterMap_append, Transmitter.sentTo]
    cases PlainReturn.datagram config (s.sequences i) call.toReturnBlock <;> simp [different]
  · rw [turn.sequences]
    split
    · exact Function.update_of_ne different.symm _ _
    · rfl

/-- The counter of a return is the number of datagrams handed to its socket. -/
def Counts (s : Transmitter) (i : Fin returnCount) : Prop :=
  s.sequences i = UInt32.ofNat (s.sentTo i).length

theorem Turn.counts {call : ReturnCall} {config : ReturnConfig} {i : Fin returnCount}
    {s : Transmitter} {next : Transmitter × Packets} (turn : Turn call config i s next)
    (counts : s.Counts i) : next.1.Counts i := by
  rw [Counts] at counts
  rw [Counts, turn.sentTo, turn.sequences, List.length_append]
  cases PlainReturn.datagram config (s.sequences i) call.toReturnBlock with
  | none => simpa using counts
  | some bytes => simp [counts]

/-- The loop over some of the returns. -/
theorem loop_sends {call : ReturnCall} (routing : ReturnRouting) {returns : List (Fin returnCount)}
    (distinct : returns.Nodup) {s : Transmitter} {packets : Packets}
    (sound : ∀ format, PacketSound call.toReturnBlock format (packets format))
    {i : Fin returnCount} (counts : s.Counts i) :
    let next := (returns.foldl (sendTo call routing) (s, packets)).1
    next.Counts i ∧ next.sentTo i = if i ∈ returns then
        s.sentTo i ++ (PlainReturn.datagram (routing i).val.config (s.sequences i)
          call.toReturnBlock).toList
      else s.sentTo i := by
  induction returns generalizing s packets with
  | nil => exact ⟨counts, rfl⟩
  | cons j rest ih =>
    obtain ⟨absent, distinct⟩ := List.nodup_cons.mp distinct
    have turn := sendTo_turn routing s sound j
    rw [List.foldl_cons]
    generalize sendTo call routing (s, packets) j = outcome at turn ⊢
    obtain ⟨after, patched⟩ := outcome
    by_cases same : j = i
    · subst same
      obtain ⟨counted, sent⟩ := ih distinct turn.packets (turn.counts counts)
      refine ⟨counted, ?_⟩
      rw [sent, if_neg absent, if_pos List.mem_cons_self]
      exact turn.sentTo
    · obtain ⟨unsent, unchanged⟩ := turn.others same
      have counts' : after.Counts i := by
        change after.sequences i = UInt32.ofNat (after.sentTo i).length
        rw [unsent, unchanged]
        exact counts
      obtain ⟨counted, sent⟩ := ih distinct turn.packets counts'
      refine ⟨counted, ?_⟩
      rw [sent, unsent, unchanged]
      simp [Ne.symm same]

/-- One return of the transmitter against its own plain sender. -/
structure Refines (i : Fin returnCount) (s : Transmitter) (p : PlainReturn) : Prop where
  config : p.config = s.routing.map fun routing => (routing i).val.config
  sent : p.sent = s.sentTo i
  counts : s.Counts i

theorem sendTo_routing (call : ReturnCall) (routing : ReturnRouting)
    (state : Transmitter × Packets) (i : Fin returnCount) :
    (sendTo call routing state i).1.routing = state.1.routing := by
  unfold sendTo
  dsimp only
  split
  · rfl
  · split
    · rfl
    · exact (record_trace _ call i).2.2

theorem loop_routing (call : ReturnCall) (routing : ReturnRouting)
    (returns : List (Fin returnCount)) (state : Transmitter × Packets) :
    (returns.foldl (sendTo call routing) state).1.routing = state.1.routing := by
  induction returns generalizing state with
  | nil => rfl
  | cons i rest ih => rw [List.foldl_cons, ih, sendTo_routing]

theorem perform_refines {i : Fin returnCount} {s : Transmitter} {p : PlainReturn}
    (refines : Refines i s p) (operation : Operation) :
    Refines i (s.perform operation) (p.perform (operation.plain i)) := by
  cases operation with
  | activate next => exact ⟨rfl, refines.sent, refines.counts⟩
  | send call =>
    change Refines i (s.send call) (p.perform (.send call.toReturnBlock))
    have config := refines.config
    rw [send, PlainReturn.perform]
    cases route : s.routing with
    | none =>
      rw [route, Option.map_none] at config
      rw [config]
      exact refines
    | some routing =>
      rw [route, Option.map_some] at config
      have empty : ∀ format, PacketSound call.toReturnBlock format
          ((fun _ => (fun _ => 0, 0) : Packets) format) := fun _ => .inl rfl
      obtain ⟨counted, sent⟩ := loop_sends routing (List.nodup_finRange returnCount) empty
        refines.counts
      rw [if_pos (List.mem_finRange i)] at sent
      have kept := loop_routing call routing (List.finRange returnCount) (s, fun _ => (fun _ => 0, 0))
      rw [config]
      refine ⟨?_, ?_, counted⟩
      · rw [kept, route]
        rfl
      · have counts := refines.counts
        rw [Counts] at counts
        rw [sent, counts, refines.sent]

/-- What each return sends is what it would send alone: nothing of the other
return is part of it. -/
theorem fan_out_plain (operations : List Operation) (i : Fin returnCount) :
    (after operations).sentTo i = (PlainReturn.after (operations.map (Operation.plain i))).sent := by
  have refines : Refines i (after operations)
      (PlainReturn.after (operations.map (Operation.plain i))) := by
    induction operations using List.reverseRecOn with
    | nil => exact ⟨rfl, rfl, rfl⟩
    | append_singleton front operation ih =>
      rw [after, PlainReturn.after, List.map_append, List.foldl_append, List.foldl_append]
      exact perform_refines ih operation
  exact refines.sent.symm

end Transmitter

end VbanStream
