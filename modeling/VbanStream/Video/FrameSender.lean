import VbanStream.Settings.Config
import VbanStream.Video.FrameAssembler

/-! The sender's side of the video protocol: `send_image` cuts an encoded image
into datagrams and may give up after any of them. Pacing is left out; what it
can change is the outcome of each attempt. -/

namespace VbanStream

open Library

/-- What becomes of the attempt to send one datagram. -/
inductive Attempt where
  | sent
  | stopped
  | late
  | failed (code : Int)
deriving DecidableEq, Repr

structure SendCall where
  config : FrameOutputConfig
  encoded : List UInt8
  attempts : Nat → Attempt

/-- Everything one call put on the wire, and how it ended. -/
structure Transmission where
  datagrams : List (List UInt8)
  complete : Bool
  error : Option String
deriving DecidableEq, Repr

namespace FrameSender

def fragmentBytes : Nat := 1436

def fragmentCount (encoded : List UInt8) : Nat := (encoded.length + 1435) / fragmentBytes

def wireSize (encoded : List UInt8) : Nat :=
  encoded.length + fragmentCount encoded * (headerSize + 66)

def rateIndex (mbps : Int) : UInt8 :=
  if mbps = 6 then 6 else if mbps = 12 then 9 else if mbps = 24 then 11
  else if mbps = 48 then 13 else 15

/-- Images that do not fit in one second of the network limit are refused. -/
def accepts (call : SendCall) : Bool :=
  !call.encoded.isEmpty && call.encoded.length ≤ maxImageBytes &&
    wireSize call.encoded ≤ call.config.mbps.toNat * 1000000 / 8

/-- The bytes that all datagrams of an image share. -/
def header (config : FrameOutputConfig) (frame : UInt32) : Memory :=
  let packet : Memory := fun _ => 0
  let packet := packet.write 0 signature
  let packet := packet.write 4 [0x80 ||| rateIndex config.mbps]
  let packet := packet.write 8 config.streamName
  packet.write 24 (littleEndianBytes 4 frame.toNat)

def flags (count index : Nat) : UInt8 :=
  if index + 1 = count then (if index = 0 then 5 else 4) else if index = 0 then 1 else 2

def payload (encoded : List UInt8) (index : Nat) : List UInt8 :=
  (encoded.drop (index * fragmentBytes)).take fragmentBytes

/-- The packet buffer after the index, flags and payload of one fragment are
written over those of the fragment before. -/
def patch (packet : Memory) (encoded : List UInt8) (index : Nat) : Memory :=
  let packet := packet.write 5 [UInt8.ofNat index, UInt8.ofNat (index / 256)]
  let packet := packet.write 7 [flags (fragmentCount encoded) index]
  packet.write headerSize (payload encoded index)

/-- The loop of `send_image` from one index on, with the remaining count. -/
def sendFrom (encoded : List UInt8) (attempts : Nat → Attempt) (packet : Memory) (index : Nat) :
    Nat → Transmission
  | 0 => { datagrams := [], complete := true, error := none }
  | remaining + 1 =>
    match attempts index with
    | .stopped => { datagrams := [], complete := false, error := none }
    | .late =>
      { datagrams := [], complete := false
        error := some "Video sender missed its network deadline." }
    | .failed code =>
      { datagrams := [], complete := false
        error := some ("Video UDP send failed (socket " ++ toString code ++ ").") }
    | .sent =>
      let packet := patch packet encoded index
      let size := headerSize + (payload encoded index).length
      let rest := sendFrom encoded attempts packet (index + 1) remaining
      { rest with datagrams := packet.read 0 size :: rest.datagrams }

/-- Every accepted image takes the next number of the shared counter. -/
def sendImage (sequence : UInt32) (call : SendCall) : UInt32 × Transmission :=
  if accepts call = false then
    (sequence, {
      datagrams := [], complete := false
      error := some ("Image exceeds the one-second network budget. Use JPEG, a smaller " ++
        "resolution or a higher network limit.") })
  else
    (sequence + 1,
      sendFrom call.encoded call.attempts (header call.config sequence) 0
        (fragmentCount call.encoded))

/-- An image that took a number, and what was sent of it. -/
structure Image where
  call : SendCall
  transmission : Transmission

/-- All calls of one sender, over all its sessions, which share the counter.
The images stand in the order of their numbers. -/
def transmit (sequence : UInt32) : List SendCall → List Image
  | [] => []
  | call :: rest =>
    let (next, transmission) := sendImage sequence call
    if accepts call then { call, transmission } :: transmit next rest else transmit next rest

end FrameSender

end VbanStream
