import VbanStream.Library.Keyed
import VbanStream.Protocol.Audio

/-! The jitter buffer of one receive slot, operation by operation from
`stream-buffer.cpp`. Clocks and sequence numbers keep the machine's widths and
wrap; sample arithmetic is exact. -/

namespace VbanStream

open Library

/-- The `uint64_t` counters, which agree with numbers below `2 ^ 64`. -/
structure Counters where
  received : Nat := 0
  lost : Nat := 0
  duplicates : Nat := 0
  reordered : Nat := 0
  late : Nat := 0
  corrupt : Nat := 0
  unsupported : Nat := 0
  underruns : Nat := 0
  overruns : Nat := 0
  discontinuities : Nat := 0
  driftCorrections : Nat := 0
deriving DecidableEq, Repr

structure AudioBlock where
  format : Format
  frames : Nat
  timestamp : UInt64
  samples : List ℚ
deriving DecidableEq, Repr

structure StreamBuffer where
  targetMs : UInt32 := 30
  format : Format := {}
  counters : Counters := {}
  pending : Keyed Packet.sequence := ∅
  fifo : List ℚ := []
  recent : List UInt32 := []
  expected : UInt32 := 0
  newest : UInt32 := 0
  previousFrames : UInt16 := 0
  first : UInt64 := 0
  lastValid : UInt64 := 0
  lastProgress : UInt64 := 0
  base : UInt64 := 0
  emitted : UInt64 := 0
  lastEnd : UInt64 := 0
  initialized : Bool := false
  playing : Bool := false

/-- Where the next visited sequence number finds its audio. -/
inductive Visit where
  | played (packet : Packet)
  | concealed
  | jumped (next : Packet)

namespace StreamBuffer

/-- Change the statistics only. -/
def count (b : StreamBuffer) (change : Counters → Counters) : StreamBuffer :=
  { b with counters := change b.counters }

/-- Keeps the last output timestamp across reconfiguration. -/
def reset (b : StreamBuffer) : StreamBuffer :=
  { b with
    pending := ∅, fifo := [], recent := []
    format := {}, counters := {}
    first := 0, lastValid := 0, lastProgress := 0, base := 0, emitted := 0
    previousFrames := 0
    initialized := false, playing := false }

/-- Anchor a session at this packet. -/
def begin (b : StreamBuffer) (packet : Packet) (now : UInt64) : StreamBuffer :=
  { b with
    pending := ∅, fifo := [], recent := []
    format := packet.format
    expected := packet.sequence, newest := packet.sequence
    first := now, lastProgress := now
    playing := false
    initialized := true
    previousFrames := 0 }

def bufferedFrames (b : StreamBuffer) : Nat :=
  (if b.format.channels ≠ 0 then b.fifo.length / b.format.outputChannels else 0) +
    (b.pending.values.map fun packet => packet.frames.toNat).sum

/-- `push` starts a session before it looks at the packet's number. -/
def opens (b : StreamBuffer) (packet : Packet) (now : UInt64) : Bool :=
  !b.initialized || packet.format != b.format || now - b.lastProgress > 250000000

def duplicate (b : StreamBuffer) (packet : Packet) : Bool :=
  b.pending.contains packet.sequence || b.recent.contains packet.sequence

def tooLate (b : StreamBuffer) (packet : Packet) : Bool :=
  packet.sequence - b.expected ≥ 0x80000000

def overflows (b : StreamBuffer) (packet : Packet) : Bool :=
  packet.sequence - b.expected > 512 || b.pending.size ≥ 512 ||
    b.bufferedFrames > b.format.rate.toNat / 4

/-- The session `push` works in, new or current. -/
def enter (b : StreamBuffer) (packet : Packet) (now : UInt64) : StreamBuffer :=
  let b := { b.count fun c => { c with received := c.received + 1 } with lastValid := now }
  if b.opens packet now then
    let b := if b.initialized then
        b.count fun c => { c with discontinuities := c.discontinuities + 1 }
      else b
    b.begin packet now
  else b

/-- Store an accepted packet, after restarting on an overrun. -/
def store (b : StreamBuffer) (packet : Packet) (now : UInt64) : StreamBuffer :=
  let b := if b.overflows packet then
      (b.count fun c => { c with
        discontinuities := c.discontinuities + 1, overruns := c.overruns + 1 }).begin packet now
    else b
  let b := if packet.sequence - b.newest ≥ 0x80000000 then
      b.count fun c => { c with reordered := c.reordered + 1 }
    else { b with newest := packet.sequence }
  { b with lastProgress := now, pending := b.pending.emplace packet }

def push (b : StreamBuffer) (packet : Packet) (now : UInt64) : StreamBuffer :=
  let b := b.enter packet now
  if b.duplicate packet then
    b.count fun c => { c with duplicates := c.duplicates + 1 }
  else if b.tooLate packet then
    b.count fun c => { c with late := c.late + 1 }
  else b.store packet now

/-- One turn of `fill`'s loop: what stands at `expected`, or how the gap before
the circularly nearest pending packet is crossed. -/
def nextVisit (b : StreamBuffer) : Option Visit :=
  match b.pending.find? b.expected with
  | some packet => some (.played packet)
  | none =>
    if b.pending.isEmpty then none
    else
      match b.pending.nearest? (fun packet => (packet.sequence - b.expected).toNat) 0xffffffff with
      | none => none
      | some next =>
        if next.sequence - b.expected ≤ 8 ∧ b.previousFrames ≠ 0 ∧
            b.previousFrames = next.frames then
          some .concealed
        else some (.jumped next)

/-- Move the packet at `expected` to the sample queue. -/
def play (b : StreamBuffer) (packet : Packet) : StreamBuffer :=
  let recent := b.recent ++ [b.expected]
  { b with
    fifo := b.fifo ++ packet.samples
    previousFrames := packet.frames
    recent := if recent.length > 128 then recent.tail else recent
    pending := b.pending.erase b.expected
    expected := b.expected + 1 }

def visit (b : StreamBuffer) : Visit → StreamBuffer
  | .played packet => b.play packet
  | .concealed =>
    { b.count fun c => { c with lost := c.lost + 1 } with
      fifo := b.fifo ++ List.replicate (b.previousFrames.toNat * b.format.outputChannels) 0
      expected := b.expected + 1 }
  | .jumped next =>
    { b.count fun c => { c with
        lost := c.lost + (next.sequence - b.expected).toNat
        discontinuities := c.discontinuities + 1 } with
      expected := next.sequence }.play next

/-- The loop of `fill`, with a bound on its turns. -/
def fillLoop (frames : Nat) : Nat → StreamBuffer → StreamBuffer × Bool
  | 0, b => (b, false)
  | turns + 1, b =>
    if b.fifo.length / b.format.outputChannels < frames then
      match b.nextVisit with
      | none => (b, false)
      | some visit => fillLoop frames turns (b.visit visit)
    else (b, true)

/-- Every packet is preceded by at most eight silent turns, so the bound is
never what ends the loop. -/
def fill (b : StreamBuffer) (frames : Nat) : StreamBuffer × Bool :=
  fillLoop frames (10 * b.pending.size + 10) b

/-- About 10 ms. -/
def blockFrames (b : StreamBuffer) : Nat := max 1 (b.format.rate.toNat / 100)

/-- Frames taken for one block: gentle queue-depth correction. -/
def consume (b : StreamBuffer) : Nat :=
  let frames := b.blockFrames
  let queued := b.bufferedFrames
  let target := b.format.rate.toNat * b.targetMs.toNat / 1000
  let margin := max frames (target / 3)
  if queued > target + margin then frames + 1
  else if queued + margin < target ∧ queued ≥ frames ∧ frames > 1 then frames - 1
  else frames

/-- Linear interpolation of `consume` input frames onto `frames` output frames. -/
def stretch (input : List ℚ) (frames consume channels : Nat) : List ℚ :=
  (List.range frames).flatMap fun (f : Nat) =>
    let pos : ℚ := if frames > 1 then (f : ℚ) * (consume - 1 : Nat) / (frames - 1 : Nat) else 0
    let a := ⌊pos⌋₊
    let b := min (a + 1) (consume - 1)
    let mix := pos - a
    (List.range channels).map fun (c : Nat) =>
      input.getD (a * channels + c) 0 * (1 - mix) + input.getD (b * channels + c) 0 * mix

/-- Forget the session; the clocks and the anti-repeat list stay. -/
def clear (b : StreamBuffer) : StreamBuffer :=
  { b with pending := ∅, fifo := [], initialized := false, playing := false }

/-- The playing schedule, started once the start-up wait is over. -/
def start (b : StreamBuffer) (now : UInt64) : Option StreamBuffer :=
  if b.playing then some b
  else if now < b.first + b.targetMs.toUInt64 * 1000000 then none
  else some { b with base := max now b.lastEnd, emitted := 0, playing := true }

/-- When the next block is due. -/
def due (b : StreamBuffer) : UInt64 := b.base + framesToNs b.emitted b.format.rate

/-- Count the drift correction of the coming block, if it has one. -/
def correct (b : StreamBuffer) : StreamBuffer :=
  b.count fun c => { c with
    driftCorrections := c.driftCorrections + if b.consume = b.blockFrames then 0 else 1 }

/-- The queue after filling for one block; an underrun is counted. -/
def prepare (b : StreamBuffer) : StreamBuffer × Bool :=
  let filled := b.correct.fill b.consume
  (if filled.2 then filled.1
    else filled.1.count fun c => { c with underruns := c.underruns + 1 }, filled.2)

/-- The consumed samples, zero padded on an underrun. -/
def takeInput (b : StreamBuffer) (wanted : Nat) : List ℚ :=
  b.fifo.take wanted ++ List.replicate (wanted - b.fifo.length) 0

/-- The code reads a stretched block at places and with weights that are rounded to floating
point; here both are exact. -/
def blockSamples (input : List ℚ) (frames consume channels : Nat) : List ℚ :=
  if consume = frames then input else stretch input frames consume channels

/-- The samples of the next block, taken from the prepared queue. -/
def block (b : StreamBuffer) : AudioBlock :=
  let channels := b.format.outputChannels
  { format := b.format
    frames := b.blockFrames
    timestamp := b.due
    samples := blockSamples (b.prepare.1.takeInput (b.consume * channels))
      b.blockFrames b.consume channels }

/-- Emit one block and advance the schedule; an underrun ends the session. -/
def emit (b : StreamBuffer) : StreamBuffer × AudioBlock :=
  let prepared := b.prepare.1
  let emitted := b.emitted + UInt64.ofNat b.blockFrames
  let taken := { prepared with
    fifo := prepared.fifo.drop (b.consume * b.format.outputChannels)
    emitted := emitted
    lastEnd := b.base + framesToNs emitted b.format.rate }
  (if b.prepare.2 then taken else taken.clear, b.block)

def pull (b : StreamBuffer) (now : UInt64) : StreamBuffer × Option AudioBlock :=
  if b.initialized = false ∨ b.format.rate = 0 then (b, none)
  else if now - b.lastProgress > 250000000 then (b.clear, none)
  else
    match b.start now with
    | none => (b, none)
    | some b =>
      if now < b.due then (b, none)
      else if now - b.due > 100000000 then
        ((b.count fun c => { c with discontinuities := c.discontinuities + 1 }).clear, none)
      else (b.emit.1, some b.emit.2)

end StreamBuffer

end VbanStream
