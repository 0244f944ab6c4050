import VbanStream.Library.Run
import VbanStream.Receiver.Routing
import VbanStream.Receiver.Slot

/-! Live reconfiguration: `configure`, `receive_loop` and `audio_loop` as three
threads whose steps interleave between the points where they take a lock. -/

namespace VbanStream

open Library

/-- A datagram, its sender, and the socket it was received on. -/
structure Datagram where
  bytes : List UInt8
  sender : UInt32
  socket : Nat

namespace Datagram

def memory (d : Datagram) : Memory := Memory.ofBytes d.bytes

def name (d : Datagram) : Option StreamName := readStreamName d.memory d.bytes.length

def decoded (d : Datagram) : Except ParseError Packet := decode d.memory d.bytes.length

/-- The header announces the audio protocol. -/
def audio (d : Datagram) : Bool := d.memory 4 &&& 0xe0 == 0

end Datagram

/-- `receive_loop` offers the datagram to this slot. -/
def Routing.hears (route : Routing) (d : Datagram) (i : Fin slotCount) : Bool :=
  (route.config.slots i).enabled && d.sender == route.addresses i &&
    d.name == some (route.config.slots i).streamName

/-- What happened to a slot since its last reset. -/
inductive Entry where
  | received (d : Datagram) (now : UInt64) (generation : Nat)
  | serviced (now : UInt64)

def Entry.apply (slot : Slot) : Entry → Slot
  | .received d now _ => slot.receive d.decoded now
  | .serviced now => (slot.service now).1

/-- The progress of one call of `configure`. The configuration mutex is held
from the new generation to the new routing. -/
inductive Edit where
  | idle
  | prepared (next : Routing)
  | committing (next : Routing) (remaining : List (Fin slotCount))

/-- The progress of `receive_loop`. -/
inductive Network where
  | idle
  | polling (route : Routing)
  | received (route : Routing) (d : Datagram)
  | visiting (route : Routing) (d : Datagram) (remaining : List (Fin slotCount))

/-- The progress of `audio_loop`. A block in its hands carries the entries that
it was made from. -/
inductive Audio where
  | idle
  | running (now : UInt64) (generation : Nat) (remaining : List (Fin slotCount))
  | holding (now : UInt64) (generation : Nat) (i : Fin slotCount) (block : AudioBlock)
      (sources : List Entry) (remaining : List (Fin slotCount))
  | playing (now : UInt64) (generation : Nat) (i : Fin slotCount) (block : AudioBlock)
      (sources : List Entry) (remaining : List (Fin slotCount))

/-- The routings in the order of their generations, and for each slot: the last
generation that changed it, the slot as that reset left it, and the log since. -/
structure History where
  published : List Routing := [{}]
  since : Fin slotCount → Nat := fun _ => 0
  origin : Fin slotCount → Slot := fun _ => {}
  log : Fin slotCount → List Entry := fun _ => []

/-- A generation is a `uint64_t`, which agrees with a number until it has been raised `2 ^ 64`
times. -/
structure Receiver where
  routing : Routing := {}
  generation : Nat := 0
  slots : Fin slotCount → Slot := fun _ => {}
  sockets : Nat := 0
  edit : Edit := .idle
  network : Network := .idle
  audio : Audio := .idle
  history : History := {}

namespace Receiver

inductive Label where
  | prepare (config : Config)
  | bump
  | reset
  | publish
  | snapshot
  | arrive (bytes : List UInt8) (sender : UInt32)
  | retry
  | reroute
  | visit (now : UInt64)
  | wake (now : UInt64)
  | service
  | check
  | output

def locked (s : Receiver) : Bool :=
  match s.edit with
  | .committing _ _ => true
  | _ => false

def resetSlot (s : Receiver) (i : Fin slotCount) : Receiver :=
  { s with
    slots := Function.update s.slots i (s.slots i).reset
    history := { s.history with
      origin := Function.update s.history.origin i (s.slots i).reset
      log := Function.update s.history.log i [] } }

/-- Change a slot under its mutex, on record. -/
def touch (s : Receiver) (i : Fin slotCount) (entry : Entry) : Receiver :=
  { s with
    slots := Function.update s.slots i (entry.apply (s.slots i))
    history := { s.history with
      log := Function.update s.history.log i (s.history.log i ++ [entry]) } }

/-- `configure`, from the built routing to the published one. -/
def configureStep (parse : Parse) (s : Receiver) : Label → Edit → Option Receiver
  | .prepare config, .idle =>
    if validate parse config = none then
      some { s with
        sockets := s.sockets + 1
        edit := .prepared (Routing.prepare parse s.routing config s.sockets) }
    else none
  | .bump, .prepared next =>
    some { s with
      generation := s.generation + 1
      edit := .committing { next with generation := s.generation + 1 } (List.finRange slotCount) }
  | .reset, .committing next (i :: remaining) =>
    some { (if s.routing.changes next.config i then s.resetSlot i else s) with
      edit := .committing next remaining }
  | .publish, .committing next [] =>
    some { s with
      routing := next
      edit := .idle
      history := { s.history with
        published := s.history.published ++ [next]
        since := fun i =>
          if s.routing.changes next.config i then next.generation else s.history.since i } }
  | _, _ => none

/-- `receive_loop`. -/
def networkStep (s : Receiver) : Label → Network → Option Receiver
  | .snapshot, .idle =>
    if s.locked then none else some { s with network := .polling s.routing }
  | .retry, .polling _ => some { s with network := .idle }
  | .arrive bytes sender, .polling route =>
    route.socket.map fun socket =>
      { s with network := .received route { bytes, sender, socket } }
  | .reroute, .received route d =>
    if s.locked then none
    else if route.socket ≠ s.routing.socket then some { s with network := .idle }
    else if d.name.isSome && d.audio then
      some { s with network := .visiting s.routing d (List.finRange slotCount) }
    else some { s with network := .idle }
  | .visit now, .visiting route d (i :: remaining) =>
    if route.hears d i then
      -- Checked and pushed under the slot mutex.
      if route.generation ≠ s.generation then some { s with network := .idle }
      else some { s.touch i (.received d now s.generation) with
        network := .visiting route d remaining }
    else some { s with network := .visiting route d remaining }
  | .visit _, .visiting _ _ [] => some { s with network := .idle }
  | _, _ => none

/-- `audio_loop`. -/
def audioStep (s : Receiver) : Label → Audio → Option Receiver
  | .wake now, .idle =>
    some { s with audio := .running now s.generation (List.finRange slotCount) }
  | .service, .running now generation (i :: remaining) =>
    some { s.touch i (.serviced now) with
      audio := match ((s.slots i).service now).2 with
        | none => .running now generation remaining
        | some block => .holding now generation i block (s.history.log i) remaining }
  | .service, .running _ _ [] => some { s with audio := .idle }
  | .check, .holding now generation i block sources remaining =>
    if generation ≠ s.generation then
      some { s with audio := .running now generation remaining }
    else some { s with audio := .playing now generation i block sources remaining }
  | .output, .playing now generation _ _ _ remaining =>
    some { s with audio := .running now generation remaining }
  | _, _ => none

def step (parse : Parse) (s : Receiver) (label : Label) : Option Receiver :=
  match label with
  | .prepare _ | .bump | .reset | .publish => s.configureStep parse label s.edit
  | .snapshot | .arrive _ _ | .retry | .reroute | .visit _ => s.networkStep label s.network
  | .wake _ | .service | .check | .output => s.audioStep label s.audio

end Receiver

end VbanStream
