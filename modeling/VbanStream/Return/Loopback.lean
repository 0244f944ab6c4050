import VbanStream.Receiver.Dispatch
import VbanStream.Return.FanOut
import VbanStream.Return.RoundTrip

/-! The returns of one program in the slots of another. Between the two a network loses, repeats
and reorders datagrams. Against it stands a loop in which whole packets of rounded samples travel
straight to the slots. -/

namespace VbanStream

open Library

namespace Config

/-- The slot listens to this sender under this name. -/
def tuned (parse : Parse) (config : Config) (address : UInt32) (name : StreamName)
    (j : Fin slotCount) : Bool :=
  (config.slots j).enabled && parse (config.ip j) == some address &&
    (config.slots j).streamName == name

end Config

/-- A transmitter, and the receiver that its datagrams may reach. -/
structure Loop (Picture : Type*) where
  transmitter : Transmitter := {}
  inbox : Inbox Picture

/-- What happens on either side; `deliver` brings a datagram that a return has sent. -/
inductive LoopLabel where
  | perform (operation : Transmitter.Operation)
  | deliver (i : Fin returnCount) (number : Nat) (clock : Fin slotCount → UInt64)

/-- The bytes go from `address` to the routing that the receiver has published. -/
def Loop.step {Picture : Type*} (current : Routing) (address : UInt32) (s : Loop Picture) :
    LoopLabel → Option (Loop Picture)
  | .perform operation => some { s with transmitter := s.transmitter.perform operation }
  | .deliver i number clock =>
    (s.transmitter.sentTo i)[number]?.map fun bytes =>
      let d : Datagram := { bytes, sender := address, socket := current.socket.getD 0 }
      let readings : Readings :=
        { videoGeneration := current.generation, videoClock := fun _ => 0
          generation := fun _ => current.generation, clock }
      { s with inbox := current.receiveOnce current d readings s.inbox }

instance (rate : UInt32) (frames : Nat) (pcmBits : Int) :
    Decidable (Encodable rate frames pcmBits) :=
  decidable_of_iff
    ((pcmBits = 16 ∨ pcmBits = 24) ∧ rate ∈ sampleRates ∧ 0 < frames ∧ frames ≤ 256 ∧
      headerSize + frames * 2 * pcmWidth pcmBits ≤ maxDatagram)
    ⟨fun fits => ⟨fits.1, fits.2.1, fits.2.2.1, fits.2.2.2.1, fits.2.2.2.2⟩,
      fun fits => ⟨fits.bits, fits.listed, fits.some, fits.few, fits.fits⟩⟩

/-- The packets that have been sent, and the slots that hear them. -/
structure PacketLoop where
  configs : Option (Fin returnCount → ReturnConfig) := none
  sent : Fin returnCount → List Packet := fun _ => []
  slots : Fin slotCount → Slot

namespace PacketLoop

/-- A block as it is heard: rounded to the bits of the return, under its name and a running
number. -/
def packet (config : ReturnConfig) (sequence : UInt32) (block : ReturnBlock) : Packet where
  format := ⟨block.rate, 2, if config.pcmBits = 16 then 1 else 2⟩
  sequence
  name := config.streamName
  frames := UInt16.ofNat block.frames
  samples := (List.range (block.frames * 2)).map fun i =>
    heardSample config.pcmBits (block.stereo i)

/-- Nothing is sent where a return is off or cannot carry the block. -/
def packets (config : ReturnConfig) (sequence : UInt32) (block : ReturnBlock) : List Packet :=
  if config.enabled = true ∧ Encodable block.rate block.frames config.pcmBits then
    [packet config sequence block]
  else []

def step (parse : Parse) (config : Config) (address : UInt32) (s : PacketLoop) :
    LoopLabel → Option PacketLoop
  | .perform (.activate next) =>
    some { s with configs := next.map fun routing i => (routing i).val.config }
  | .perform (.send call) =>
    match s.configs with
    | none => some s
    | some configs =>
      let fresh (i : Fin returnCount) :=
        packets (configs i) (UInt32.ofNat (s.sent i).length) call.toReturnBlock
      some { s with sent := fun i => s.sent i ++ fresh i }
  | .deliver i number clock =>
    (s.sent i)[number]?.map fun p =>
      { s with slots := fun j =>
          if config.tuned parse address p.name j then (s.slots j).receive (.ok p) (clock j)
          else s.slots j }

end PacketLoop

/-- The bytes read as this audio packet. -/
structure Carries (bytes : List UInt8) (p : Packet) : Prop where
  decoded : decode (Memory.ofBytes bytes) bytes.length = .ok p
  named : readStreamName (Memory.ofBytes bytes) bytes.length = some p.name
  kind : Memory.ofBytes bytes 4 &&& 0xe0 = 0

theorem ofBytes_write (bytes : List UInt8) :
    Memory.ofBytes bytes = Memory.write (fun _ => 0) 0 bytes := by
  funext index
  rw [Memory.ofBytes, Memory.write]
  split
  · rfl
  · exact List.getD_eq_default _ _ (by omega)

/-- The datagram of a block carries its packet. -/
theorem carries_packet {config : ReturnConfig} {block : ReturnBlock}
    (valid : validStreamName config.streamName = true)
    (encodable : Encodable block.rate block.frames config.pcmBits) (sequence : UInt32) :
    Carries (returnDatagram block.rate config.streamName sequence block.stereo block.frames
      config.pcmBits) (PacketLoop.packet config sequence block) := by
  have read := write_returnPacket (fun _ => 0) valid block.rate sequence block.stereo block.frames
    config.pcmBits
  rw [← ofBytes_write] at read
  have length : (returnDatagram block.rate config.streamName sequence block.stereo block.frames
      config.pcmBits).length = _ := length_returnDatagram valid sequence _ _ _
  refine ⟨?_, ?_, ?_⟩
  · rw [length]
    exact read.decode encodable valid
  · rw [readStreamName, if_neg, read.nameBytes, takeWhile_nameField valid, if_pos valid]
    · rfl
    · rw [length, read.opening]
      simp
  · have found : sampleRates.idxOf block.rate < 21 := List.idxOf_lt_length_of_mem encodable.listed
    have protocol : ∀ index < 21, UInt8.ofNat index &&& 0xe0 = 0 := by decide
    rw [read.rateByte]
    exact protocol _ found

/-- A return sends the datagrams of its packets. -/
theorem datagram_carries {d : ReturnDestination} (ready : d.Ready) (sequence : UInt32)
    (block : ReturnBlock) :
    List.Forall₂ Carries (PlainReturn.datagram d.config sequence block).toList
      (PacketLoop.packets d.config sequence block) := by
  unfold PacketLoop.packets
  by_cases enabled : d.config.enabled = true
  · have valid := (ready.enabled enabled).2
    by_cases encodable : Encodable block.rate block.frames d.config.pcmBits
    · rw [Transmitter.datagram_encodable enabled valid encodable, if_pos ⟨enabled, encodable⟩]
      exact .cons (carries_packet valid encodable sequence) .nil
    · rw [Transmitter.datagram_refused encodable, if_neg fun both => encodable both.2]
      exact .nil
  · rw [PlainReturn.datagram, if_pos (by simpa using enabled), if_neg fun both => enabled both.1]
    exact .nil

section Loop

variable {Picture : Type*} {parse : Parse} {config : Config} {address : UInt32}

/-- The two loops agree: every datagram that has been sent carries the packet in its place, and
the slots are the same. -/
structure Coupled (videos : Option (VideoReceiver Picture)) (s : Loop Picture) (p : PacketLoop) :
    Prop where
  configs : p.configs = s.transmitter.routing.map fun routing i => (routing i).val.config
  sent : ∀ i, List.Forall₂ Carries (s.transmitter.sentTo i) (p.sent i)
  counts : ∀ i, s.transmitter.Counts i
  slots : s.inbox.slots = p.slots
  videos : s.inbox.videos = videos

variable {videos : Option (VideoReceiver Picture)} {s : Loop Picture} {p : PacketLoop}

theorem Coupled.perform (coupled : Coupled videos s p) (operation : Transmitter.Operation) :
    ∃ p', p.step parse config address (.perform operation) = some p' ∧
      Coupled videos { s with transmitter := s.transmitter.perform operation } p' := by
  have refines (i : Fin returnCount) :=
    Transmitter.perform_refines (i := i) (s := s.transmitter)
      (p := ⟨s.transmitter.routing.map fun routing => (routing i).val.config,
        s.transmitter.sentTo i⟩) ⟨rfl, rfl, coupled.counts i⟩ operation
  have counts := fun i => (refines i).counts
  cases operation with
  | activate next =>
    exact ⟨_, rfl, rfl, fun i => (refines i).sent ▸ coupled.sent i, counts, coupled.slots,
      coupled.videos⟩
  | send call =>
    have configs := coupled.configs
    have kept : (s.transmitter.send call).routing = s.transmitter.routing := by
      rw [Transmitter.send]
      cases route : s.transmitter.routing with
      | none => exact route
      | some routing => exact (Transmitter.loop_routing _ _ _ _).trans route
    cases route : s.transmitter.routing with
    | none =>
      rw [route, Option.map_none] at configs
      have still : s.transmitter.send call = s.transmitter := by rw [Transmitter.send, route]
      refine ⟨p, by rw [PacketLoop.step, configs], ?_⟩
      rw [Transmitter.perform, still]
      exact coupled
    | some routing =>
      rw [route, Option.map_some] at configs
      let fresh (i : Fin returnCount) := PacketLoop.packets (routing i).val.config
        (UInt32.ofNat (p.sent i).length) call.toReturnBlock
      have answered : p.step parse config address (.perform (.send call)) =
          some { p with sent := fun i => p.sent i ++ fresh i } := by
        simp only [PacketLoop.step, configs, fresh]
      refine ⟨_, answered, ?_, fun i => ?_, counts, coupled.slots, coupled.videos⟩
      · rw [Transmitter.perform, kept, route]
        exact configs
      · have sent := (refines i).sent
        rw [route] at sent
        rw [← sent]
        dsimp only [fresh]
        rw [← (coupled.sent i).length_eq]
        exact List.rel_append (coupled.sent i) (datagram_carries (routing i).property _ _)

/-- A datagram that carries a packet goes to the slot that is tuned to it, if there is one. -/
theorem receive_carried (valid : validate parse config = none) {old : Routing}
    {fresh generation : Nat} {bytes : List UInt8} {packet : Packet} (carries : Carries bytes packet)
    (socket : Nat) {readings : Readings} (current : ∀ j, readings.generation j = generation)
    (inbox : Inbox Picture) :
    (published parse old config fresh generation).receiveOnce
        (published parse old config fresh generation) ⟨bytes, address, socket⟩ readings inbox =
      { inbox with
        slots := fun j =>
          if config.tuned parse address packet.name j then
            (inbox.slots j).receive (.ok packet) (readings.clock j)
          else inbox.slots j } := by
  obtain ⟨decoded, named, kind⟩ := carries
  let d : Datagram := ⟨bytes, address, socket⟩
  have meant (j : Fin slotCount) :
      config.tuned parse address packet.name j = true ↔ config.Expects parse d j := by
    simp only [Config.tuned, Bool.and_eq_true, beq_iff_eq]
    constructor
    · rintro ⟨⟨enabled, known⟩, same⟩
      exact ⟨enabled, known, named.trans (congrArg some same.symm), kind⟩
    · intro expects
      exact ⟨⟨expects.enabled, expects.sender⟩, Option.some.inj (expects.named.symm.trans named)⟩
  obtain ⟨unique, _, _⟩ := Config.target_unique (d := d) valid
  by_cases heard : ∃ j, config.Expects parse d j
  · obtain ⟨j, expects⟩ := heard
    rw [receive_expected valid expects, if_pos ⟨rfl, current j⟩]
    congr 1
    funext k
    rcases eq_or_ne k j with rfl | other
    · rw [Function.update_self, if_pos ((meant k).mpr expects)]
      exact congrArg (fun answer => (inbox.slots k).receive answer (readings.clock k)) decoded
    · rw [Function.update_of_ne other,
        if_neg fun tuned => other (unique k j ((meant k).mp tuned) expects)]
  · have silent (j : Fin slotCount) : ¬ config.Expects parse d j := fun expects =>
      heard ⟨j, expects⟩
    have unseen (j : Fin videoSlotCount) : ¬ config.Awaits parse d j := fun awaits => by
      have other := kind.symm.trans awaits.kind
      cases other
    rw [receive_ignored valid silent unseen]
    have same : (fun j => if config.tuned parse address packet.name j = true then
        (inbox.slots j).receive (.ok packet) (readings.clock j) else inbox.slots j) =
        inbox.slots := by
      funext k
      exact if_neg fun tuned => silent k ((meant k).mp tuned)
    rw [same]

/-- A datagram is delivered as its packet. -/
theorem Coupled.deliver (valid : validate parse config = none) {old : Routing}
    {fresh generation : Nat} (coupled : Coupled videos s p) {i : Fin returnCount} {number : Nat}
    {clock : Fin slotCount → UInt64} {next : Loop Picture}
    (taken : s.step (published parse old config fresh generation) address
      (.deliver i number clock) = some next) :
    ∃ p', p.step parse config address (.deliver i number clock) = some p' ∧
      Coupled videos next p' := by
  obtain ⟨bytes, present, rfl⟩ := Option.map_eq_some_iff.mp taken
  obtain ⟨inside, here⟩ := List.getElem?_eq_some_iff.mp present
  have inside' : number < (p.sent i).length := (coupled.sent i).length_eq ▸ inside
  have carries : Carries bytes (p.sent i)[number] := here ▸ (coupled.sent i).get inside inside'
  refine ⟨_, by rw [PacketLoop.step, List.getElem?_eq_getElem inside', Option.map_some], ?_⟩
  dsimp only
  rw [receive_carried valid carries _ fun _ => rfl]
  exact ⟨coupled.configs, coupled.sent, coupled.counts, by rw [coupled.slots], coupled.videos⟩

/-- In every run of the two programs, however the datagrams are lost, repeated and reordered, the
slots are as if the packets themselves had been delivered: each rounded block under its own name
and number to the slot that is tuned to it, and to no other. No video slot notices anything. -/
theorem returns_heard (valid : validate parse config = none) (old : Routing)
    (fresh generation : Nat) (inbox : Inbox Picture) {labels : List LoopLabel}
    {final : Loop Picture}
    (success : run (Loop.step (published parse old config fresh generation) address) { inbox }
      labels = some final) :
    ∃ heard, run (PacketLoop.step parse config address) { slots := inbox.slots } labels =
        some heard ∧
      final.inbox.slots = heard.slots ∧ final.inbox.videos = inbox.videos := by
  have start : Coupled inbox.videos { inbox } { slots := inbox.slots } :=
    ⟨rfl, fun _ => .nil, fun _ => rfl, rfl, rfl⟩
  have matched (s : Loop Picture) (label : LoopLabel) (next : Loop Picture) (p : PacketLoop)
      (coupled : Coupled inbox.videos s p)
      (taken : s.step (published parse old config fresh generation) address label = some next) :
      ∃ p', p.step parse config address label = some p' ∧ Coupled inbox.videos next p' := by
    cases label with
    | perform operation =>
      cases taken
      exact coupled.perform operation
    | deliver i number clock => exact coupled.deliver valid taken
  obtain ⟨heard, answered, coupled⟩ := run_lockstep _ matched start success
  exact ⟨heard, answered, coupled.slots, coupled.videos⟩

/-- Both returns send under the name that slot 0 of `twins` listens to, the second one is off. -/
def twinReturns : ReturnRouting := fun i =>
  ⟨{ config := { enabled := i.val == 0, streamName := ascii "a", pcmBits := 16 }
     socket := some 5 },
    .inl rfl, fun _ => ⟨rfl, rfl⟩⟩

theorem returnCount_pos : 0 < returnCount := by decide

/-- One frame is sent, and its datagram arrives twice. -/
def twinLabels : List LoopLabel :=
  [.perform (.activate (some twinReturns)),
    .perform (.send
      { stereo := fun _ => none, frames := 1, rate := 48000, failure := fun _ => none
        now := fun _ => 0 }),
    .deliver ⟨0, returnCount_pos⟩ 0 fun _ => 7, .deliver ⟨0, returnCount_pos⟩ 0 fun _ => 8]

theorem returns_heard_twins :
    ∃ final, run (Loop.step (published twinParse {} twins 0 1) 0x0200000a) { inbox := twinInbox }
        twinLabels = some final ∧
      ∃ heard, run (PacketLoop.step twinParse twins 0x0200000a) { slots := twinInbox.slots }
          twinLabels = some heard ∧
        final.inbox.slots = heard.slots ∧ final.inbox.videos = twinInbox.videos := by
  have valid : validate twinParse twins = none := by decide +kernel
  have ran : (run (Loop.step (published twinParse {} twins 0 1) 0x0200000a)
      ({ inbox := twinInbox } : Loop Unit) twinLabels).isSome = true := by decide +kernel
  obtain ⟨final, success⟩ := Option.isSome_iff_exists.mp ran
  exact ⟨final, success, returns_heard valid {} 0 1 twinInbox success⟩

end Loop

end VbanStream
