import VbanStream.Protocol.Network
import VbanStream.Return.Encode

/-! The transmitter of the two audio returns: the destinations that `prepare`
connects, and `send`, which encodes a block once per format. -/

namespace VbanStream

open Library

structure ReturnDestination where
  config : ReturnConfig := {}
  socket : Option Nat := none
  address : UInt32 := 0
  endpoint : String × UInt16 := ("", 0)

/-- A format that can be encoded; and where audio is sent, a socket and a name. -/
structure ReturnDestination.Ready (d : ReturnDestination) : Prop where
  bits : d.config.pcmBits = 16 ∨ d.config.pcmBits = 24
  enabled : d.config.enabled = true →
    d.socket.isSome = true ∧ validStreamName d.config.streamName = true

/-- A routing as `prepare` returns it. -/
abbrev ReturnRouting := Fin returnCount → { d : ReturnDestination // d.Ready }

inductive ReturnState where
  | disabled | ready | sending | stalled | error
deriving DecidableEq, Repr

structure ReturnStatus where
  state : ReturnState := .disabled
  packets : Nat := 0
  errors : Nat := 0
  silence : Bool := true
  detail : String := ""
  sourceIp : String := ""
  destinationIp : String := ""
  streamName : StreamName := []
  sourcePort : UInt16 := 0
  destinationPort : UInt16 := 0
  sendGaps : Nat := 0
  clippedSamples : Nat := 0
  nonfiniteSamples : Nat := 0
  pcmBits : Int := 24
  maxSendGapMs : ℚ := 0

/-- Interleaved stereo samples behind a pointer. -/
structure ReturnBlock where
  stereo : Nat → Option ℚ
  frames : Nat
  rate : UInt32

/-- One block for all returns, and for each return the error code of a failed
attempt to send it and the time of a successful one. -/
structure ReturnCall extends ReturnBlock where
  failure : Fin returnCount → Option Int
  now : Fin returnCount → Nat

/-- `lastSend` is zero until something has been sent. -/
structure Transmitter where
  routing : Option ReturnRouting := none
  sequences : Fin returnCount → UInt32 := fun _ => 0
  status : Fin returnCount → ReturnStatus := fun _ => {}
  lastSend : Fin returnCount → Nat := fun _ => 0
  /-- The datagrams handed to the sockets. -/
  trace : List (Fin returnCount × List UInt8) := []

namespace Transmitter

section Prepare

variable (parse : Parse) (configs : Fin returnCount → ReturnConfig) (localIp : String)
  (interface : UInt32)

/-- The loop of `prepare` for one destination. -/
def prepareDestination (answers : SocketAnswers) (i : Fin returnCount) :
    Except String { d : ReturnDestination // d.Ready } :=
  let config := configs i
  let title := "Return " ++ toString (i.val + 1) ++ ": "
  let code := " (Socket " ++ toString answers.error ++ ")."
  if format : config.pcmBits ≠ 16 ∧ config.pcmBits ≠ 24 then
    .error (title ++ "Choose PCM 16-bit or PCM 24-bit.")
  else
    have bits : config.pcmBits = 16 ∨ config.pcmBits = 24 :=
      (not_and_or.mp format).imp not_not.mp not_not.mp
    if off : config.enabled = false then .ok ⟨{ config }, ⟨bits, fun on => by simp [off] at on⟩⟩
    else
      match parse config.destinationIp with
      | none => .error (title ++ "Enter a valid destination IPv4 address.")
      | some address =>
        if address = 0 then .error (title ++ "Enter a valid destination IPv4 address.")
        else if config.destinationPort = 0 then .error (title ++ "Port must be 1 to 65535.")
        else if named : validStreamName config.streamName = false then
          .error (title ++ "Stream name must contain 1 to 16 printable ASCII characters.")
        else
          match answers.created with
          | none => .error (title ++ "Cannot create return socket" ++ code)
          | some socket =>
            if localIp ≠ "" ∧ answers.bindsTo parse localIp interface = false then
              .error (title ++ "Cannot use local sender " ++ localIp ++ code)
            else if answers.connects = false then
              .error (title ++ "Cannot select destination route" ++ code)
            else
              match answers.endpoint with
              | none => .error (title ++ "Cannot inspect the sender socket" ++ code)
              | some endpoint =>
                if answers.quiet = false then
                  .error (title ++ "Cannot configure UDP socket error handling" ++ code)
                else
                  .ok ⟨{ config, socket := some socket, address, endpoint },
                    ⟨bits, fun _ => ⟨rfl, by simpa using named⟩⟩⟩

end Prepare

/-- The destinations, or the first complaint. -/
def prepare (parse : Parse) (adapters : Adapters) (answers : Fin returnCount → SocketAnswers)
    (configs : Fin returnCount → ReturnConfig) (localIp : String) : Except String ReturnRouting :=
  match selectAdapter adapters localIp
      ((List.finRange returnCount).any fun i => (configs i).enabled)
      ("Local sender IPv4 " ++ localIp ++ " is not available on an active adapter on this PC. " ++
        "Select an available address.") with
  | .error message => .error message
  | .ok interface =>
    collect fun i => prepareDestination parse configs localIp interface (answers i) i

theorem prepareDestination_meets (parse : Parse) (configs : Fin returnCount → ReturnConfig)
    (localIp : String) (interface : UInt32) (answers : SocketAnswers) (i : Fin returnCount) :
    Meets (· ≠ "") (fun d => d.val.config = configs i)
      (prepareDestination parse configs localIp interface answers i) := by
  unfold prepareDestination
  refine meets_dite (fun _ => by simp [Meets]) fun _ => ?_
  refine meets_dite (fun _ => rfl) fun _ => ?_
  split
  · simp [Meets]
  · refine meets_ite (by simp [Meets]) ?_
    refine meets_ite (by simp [Meets]) ?_
    refine meets_dite (fun _ => by simp [Meets]) fun _ => ?_
    split
    · simp [Meets]
    · refine meets_ite (by simp [Meets]) ?_
      refine meets_ite (by simp [Meets]) ?_
      split
      · simp [Meets]
      · exact meets_ite (by simp [Meets]) rfl

/-- Errors say something, and a routing is one for the settings it was asked for. -/
theorem prepare_meets (parse : Parse) (adapters : Adapters)
    (answers : Fin returnCount → SocketAnswers) (configs : Fin returnCount → ReturnConfig)
    (localIp : String) :
    Meets (· ≠ "") (fun routing => ∀ i, (routing i).val.config = configs i)
      (prepare parse adapters answers configs localIp) := by
  unfold prepare
  split
  · rename_i message failed
    exact (selectAdapter_meets _ _ _ (by simp)).error failed
  · exact meets_collect fun i => prepareDestination_meets ..

def activate (s : Transmitter) (next : Option ReturnRouting) : Transmitter :=
  { s with
    routing := next
    lastSend := fun _ => 0
    status := fun i =>
      match next with
      | none => {}
      | some routing =>
        let d := (routing i).val
        if d.config.enabled then
          { state := .ready
            pcmBits := d.config.pcmBits
            sourceIp := d.endpoint.1
            sourcePort := d.endpoint.2
            destinationIp := d.config.destinationIp
            destinationPort := d.config.destinationPort
            streamName := d.config.streamName }
        else { pcmBits := d.config.pcmBits } }

/-- The float nearest to the threshold of silence. -/
def silenceLevel : ℚ := binary32.round (1 / 10000000)

def silent (call : ReturnCall) : Bool :=
  (List.range (call.frames * 2)).all fun f =>
    match call.stereo f with
    | none => true
    | some sample => |sample| ≤ silenceLevel

def clipped (call : ReturnCall) : Nat :=
  (List.range (call.frames * 2)).countP fun f =>
    (call.stereo f).any fun sample => sample > 1 || sample < -1

def nonfinite (call : ReturnCall) : Nat :=
  (List.range (call.frames * 2)).countP fun f => (call.stereo f).isNone

/-- The shared packets, one for each format, with their sizes. -/
abbrev Packets := Bool → Memory × Nat

/-- The status and time of a return after an attempt to send. -/
def record (s : Transmitter) (call : ReturnCall) (i : Fin returnCount) : Transmitter :=
  let status := s.status i
  match call.failure i with
  | some code =>
    { s with status := Function.update s.status i { status with
        errors := status.errors + 1
        state := .error
        detail := "UDP send failed (Socket " ++ toString code ++ ")." } }
  | none =>
    let gap : ℚ := ((call.now i : ℚ) - s.lastSend i) / 1000000
    let status :=
      if s.lastSend i ≠ 0 then
        { status with
          maxSendGapMs := max status.maxSendGapMs gap
          sendGaps := if gap > 20 then status.sendGaps + 1 else status.sendGaps }
      else status
    { s with
      lastSend := Function.update s.lastSend i (call.now i)
      status := Function.update s.status i { status with
        packets := status.packets + 1
        state := .sending
        silence := silent call
        detail := "" } }

/-- Encode a block for the first return that needs its format. -/
def encodeOnce (block : ReturnBlock) (pcmBits : Int) (buffer : Memory × Nat) : Memory × Nat :=
  if buffer.2 = 0 then
    encodeStereoPcm buffer.1 block.rate (ascii "MONITOR") 0 block.stereo block.frames pcmBits
  else buffer

/-- The loop of `send` for one return. -/
def sendTo (call : ReturnCall) (routing : ReturnRouting) (state : Transmitter × Packets)
    (i : Fin returnCount) : Transmitter × Packets :=
  let (s, packets) := state
  let config := (routing i).val.config
  if config.enabled = false then (s, packets)
  else
    let format := config.pcmBits == 16
    let (packet, size) := encodeOnce call.toReturnBlock config.pcmBits (packets format)
    if size = 0 then
      ({ s with status := Function.update s.status i { s.status i with
          state := .error
          detail := "Unsupported return sample rate or audio block size." } },
        Function.update packets format (packet, size))
    else
      let status := s.status i
      let s := { s with status := Function.update s.status i { status with
        clippedSamples := status.clippedSamples + clipped call
        nonfiniteSamples := status.nonfiniteSamples + nonfinite call } }
      let packet := packet.fill 8 16 0
      let packet := packet.write 8 config.streamName
      let packet := packet.write 24 (littleEndianBytes 4 (s.sequences i).toNat)
      let s := { s with
        sequences := Function.update s.sequences i (s.sequences i + 1)
        trace := s.trace ++ [(i, packet.read 0 size)] }
      (s.record call i, Function.update packets format (packet, size))

def send (s : Transmitter) (call : ReturnCall) : Transmitter :=
  match s.routing with
  | none => s
  | some routing =>
    ((List.finRange returnCount).foldl (sendTo call routing) (s, fun _ => (fun _ => 0, 0))).1

inductive Operation where
  | activate (next : Option ReturnRouting)
  | send (call : ReturnCall)

def perform (s : Transmitter) : Operation → Transmitter
  | .activate next => s.activate next
  | .send call => s.send call

/-- The state after a sequence of operations. -/
def after (operations : List Operation) : Transmitter := operations.foldl perform {}

end Transmitter

/-- The engine around the transmitter, as far as `prepare` and `activate` know it. -/
structure MonitorReturn where
  transmitter : Transmitter := {}
  bufferMs : UInt32 := defaultReturnBufferMs
  stopping : Bool := false

namespace MonitorReturn

def prepare (s : MonitorReturn) (parse : Parse) (adapters : Adapters)
    (answers : Fin returnCount → SocketAnswers) (configs : Fin returnCount → ReturnConfig)
    (localIp : String) (bufferMs : UInt32) : Except String ReturnRouting :=
  if bufferMs < minReturnBufferMs ∨ bufferMs > maxReturnBufferMs then
    .error "Return audio buffer must be 20 to 200 ms."
  else if s.stopping then .error "Monitor return worker stopped. Restart OBS."
  else Transmitter.prepare parse adapters answers configs localIp

def activate (s : MonitorReturn) (next : Option ReturnRouting) (bufferMs : UInt32) :
    MonitorReturn :=
  { s with
    bufferMs := clamp bufferMs minReturnBufferMs maxReturnBufferMs
    transmitter := s.transmitter.activate next }

theorem prepare_meets (s : MonitorReturn) (parse : Parse) (adapters : Adapters)
    (answers : Fin returnCount → SocketAnswers) (configs : Fin returnCount → ReturnConfig)
    (localIp : String) (bufferMs : UInt32) :
    Meets (· ≠ "") (fun routing => ¬ (bufferMs < minReturnBufferMs ∨ bufferMs > maxReturnBufferMs) ∧
        ∀ i, (routing i).val.config = configs i)
      (s.prepare parse adapters answers configs localIp bufferMs) := by
  unfold prepare
  split
  · simp [Meets]
  · rename_i inside
    refine meets_ite (by simp [Meets]) ?_
    have meets := Transmitter.prepare_meets parse adapters answers configs localIp
    cases outcome : Transmitter.prepare parse adapters answers configs localIp with
    | error message => exact meets.error outcome
    | ok routing => exact ⟨inside, meets.ok outcome⟩

end MonitorReturn

end VbanStream
