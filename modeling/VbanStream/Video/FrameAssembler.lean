import VbanStream.Protocol.Audio

/-! The video datagram and the reassembly of images, as `frame-protocol.cpp` has
them. Only complete images leave the assembler. -/

namespace VbanStream

open Library

def maxImageBytes : Nat := 48 * 1024 * 1024
def frameTimeoutNs : UInt64 := 2000000000

structure FrameCounters where
  packets : Nat := 0
  completed : Nat := 0
  incomplete : Nat := 0
  invalid : Nat := 0
  duplicates : Nat := 0
deriving DecidableEq, Repr

structure FrameAssembler where
  active : Bool := false
  haveCompleted : Bool := false
  frame : UInt32 := 0
  completedFrame : UInt32 := 0
  next : UInt16 := 0
  started : UInt64 := 0
  completedAt : UInt64 := 0
  bytes : List UInt8 := []
  counters : FrameCounters := {}
deriving DecidableEq, Repr

namespace FrameAssembler

def count (a : FrameAssembler) (change : FrameCounters → FrameCounters) : FrameAssembler :=
  { a with counters := change a.counters }

def discard (a : FrameAssembler) : FrameAssembler :=
  { (if a.active then a.count fun c => { c with incomplete := c.incomplete + 1 } else a) with
    active := false
    bytes := [] }

def expire (a : FrameAssembler) (now : UInt64) : FrameAssembler :=
  if a.active ∧ now - a.started > frameTimeoutNs then a.discard else a

/-- An image of the recent past: already shown, or older than the one shown. -/
def outdated (a : FrameAssembler) (frame : UInt32) (now : UInt64) : Bool :=
  a.haveCompleted && now - a.completedAt < frameTimeoutNs &&
    (frame == a.completedFrame || frame - a.completedFrame ≥ 0x80000000)

/-- Older than the image in progress. -/
def delayed (a : FrameAssembler) (frame : UInt32) : Bool :=
  frame != a.frame && frame - a.frame ≥ 0x80000000

def duplicate (a : FrameAssembler) : FrameAssembler × Option (List UInt8) :=
  (a.count fun c => { c with duplicates := c.duplicates + 1 }, none)

def reject (a : FrameAssembler) : FrameAssembler × Option (List UInt8) :=
  ((a.count fun c => { c with invalid := c.invalid + 1 }).discard, none)

/-- Append a fragment to the image in progress, or find out that it cannot be. -/
def append (a : FrameAssembler) (flags : UInt8) (index : UInt16) (frame : UInt32)
    (payload : List UInt8) (now : UInt64) : FrameAssembler × Option (List UInt8) :=
  if a.active = false then (a, none)
  else if frame ≠ a.frame then
    if frame - a.frame ≥ 0x80000000 then a.duplicate else (a.discard, none)
  else if index ≠ a.next then
    if index < a.next then a.duplicate else (a.discard, none)
  else if payload.length > maxImageBytes - a.bytes.length then a.reject
  else
    let a := { a with bytes := a.bytes ++ payload, next := a.next + 1 }
    if flags &&& 4 = 0 then (a, none)
    else
      ({ a.count fun c => { c with completed := c.completed + 1 } with
        active := false
        haveCompleted := true
        completedFrame := frame
        completedAt := now
        bytes := [] }, some a.bytes)

/-- A first fragment opens its image; every fragment is then appended. -/
def assemble (a : FrameAssembler) (flags : UInt8) (index : UInt16) (frame : UInt32)
    (payload : List UInt8) (now : UInt64) : FrameAssembler × Option (List UInt8) :=
  if a.outdated frame now then a.duplicate
  else if a.active && a.delayed frame then a.duplicate
  else if flags &&& 1 ≠ 0 then
    if index ≠ 0 then a.reject
    else if a.active ∧ frame = a.frame then a.duplicate
    else
      { a.discard with active := true, frame := frame, next := 0, started := now }.append
        flags index frame payload now
  else a.append flags index frame payload now

def validHeader (data : Memory) (size : Nat) : Bool :=
  headerSize < size && size ≤ maxDatagram && data.read 0 4 == signature &&
    data 4 &&& 0xe0 == 0x80 && data 4 &&& 0x1f < 25 && data 7 &&& 0xf8 == 0

/-- First, middle, last, first and last; some senders mark next and last together. -/
def imageFlags : List UInt8 := [1, 2, 4, 5, 6]

def push (a : FrameAssembler) (data : Memory) (size : Nat) (now : UInt64) :
    FrameAssembler × Option (List UInt8) :=
  let a := (a.expire now).count fun c => { c with packets := c.packets + 1 }
  if validHeader data size = false ∨ data 7 ∉ imageFlags then a.reject
  else
    a.assemble (data 7) (UInt16.ofNat (littleEndian (data.read 5 2)))
      (UInt32.ofNat (littleEndian (data.read 24 4))) (data.read headerSize (size - headerSize)) now

end FrameAssembler

end VbanStream
