import VbanStream.Return.AudioRing
import VbanStream.Return.Provenance

/-! The threads that share a tap, atomic step by atomic step: the signals of its source, the
capture callback, and the worker in `service`. Every block carries the epoch that its callback
read. -/

namespace VbanStream

open Library

/-- The epoch that a callback has read, and how often it had been counted up by then. -/
structure Stamp where
  epoch : UInt64
  moment : Nat
deriving DecidableEq, Repr

/-- A cell of the ring: `MonitorBlock` with its epoch. -/
structure StampedBlock (V : Type*) where
  block : MonitorBlock (Traced Stamp V)
  epoch : UInt64

abbrev CaptureRing (V : Type*) := AudioRing.State (StampedBlock V)

/-- `capture_blocks`. -/
def captureBlocks : UInt64 := 128

/-- `return_frames`. -/
def returnFrames : Nat := 128

/-- What a callback is called with, and what OBS answers to it. -/
structure CaptureCall (V : Type*) where
  callback : Callback V
  stopping : Bool := false
  active : Bool := true
  /-- The format is planar float with one to eight channels. -/
  suitable : Bool := true
  rate : UInt32

/-- The block from `start` on. -/
def CaptureCall.stamped {V : Type*} (call : CaptureCall V) (stamp : Stamp) (start : UInt32) :
    StampedBlock V :=
  { block := (call.callback.block call.rate start).traced stamp, epoch := stamp.epoch }

/-- Where the capture callback is, by its next step. -/
inductive Capture (V : Type*) where
  | idle
  | monitored (call : CaptureCall V)
  | removed (call : CaptureCall V)
  | generation (call : CaptureCall V)
  | next (call : CaptureCall V) (stamp : Stamp) (start : UInt32)
  | claiming (call : CaptureCall V) (stamp : Stamp) (start : UInt32)
  | filling (call : CaptureCall V) (stamp : Stamp) (start : UInt32)
  | filled (call : CaptureCall V) (stamp : Stamp) (start : UInt32)
  | published (call : CaptureCall V) (stamp : Stamp) (start : UInt32)
  | sizing (call : CaptureCall V) (stamp : Stamp) (start : UInt32)

/-- The arguments of `service`. -/
structure ServiceCall where
  enabled : Bool
  rate : UInt32
  cursor : Int
  lookbehindNs : Int
deriving DecidableEq, Repr

/-- Where the worker is, by its next step. It keeps what it has read from the shared state. -/
inductive Service where
  | idle
  | entering (call : ServiceCall)
  | wantsMonitored (call : ServiceCall)
  | wantsRemoved (call : ServiceCall)
  | wantsDead (call : ServiceCall)
  | detaching
  | detachingDead
  | unwanted
  | upgrading (call : ServiceCall)
  | counting (call : ServiceCall)
  | renewing (call : ServiceCall)
  | attaching (call : ServiceCall)
  | activity (call : ServiceCall)
  | comparing (call : ServiceCall) (active : Bool)
  | stale (call : ServiceCall) (active : Bool)
  | rating (call : ServiceCall) (active : Bool)
  | next (call : ServiceCall) (active : Bool) (processed : Nat)
  | fronting (call : ServiceCall) (active : Bool) (processed : Nat)
  | judging (call : ServiceCall) (active : Bool) (processed : Nat) (cell : Nat)
  | placing (call : ServiceCall) (active : Bool) (processed : Nat) (cell : Nat)
  | popping (call : ServiceCall) (active : Bool) (processed : Nat) (cell : Nat)
  | checkingMonitored (call : ServiceCall) (active : Bool)
  | checkingRemoved (call : ServiceCall) (active monitored : Bool)
  | checkingEpoch (call : ServiceCall) (active monitored removed : Bool)
  | restarting

/-- A packet that the source was mixed into: what the worker had read by then, how often the
epoch had been counted up at the final check, and what was added. -/
structure Mixed (V : Type*) where
  call : ServiceCall
  active : Bool
  monitored : Bool
  removed : Bool
  epoch : UInt64
  workerEpoch : UInt64
  moment : Nat
  added : Nat → Traced Stamp V

/-- A tap with its threads. -/
structure FencedTap (V : Type*) where
  monitored : Bool
  removed : Bool := false
  dead : Bool := false
  ready : Bool := true
  epoch : UInt64 := 1
  /-- Signals that still have to count the epoch up. -/
  pending : Nat := 0
  ring : Option (CaptureRing V) := none
  attached : Bool := false
  audio : TracedTap Stamp V
  workerEpoch : UInt64 := 0
  capture : Capture V := .idle
  service : Service := .idle
  /-- How often the epoch has been counted up. -/
  bumps : Nat := 0
  mixes : List (Mixed V) := []

namespace FencedTap

variable {V : Type*} [Zero V] [Add V] [Mul V]

/-- What is not part of the repository: the resampler, the arithmetic of a blend, and the content
of a new cell. -/
structure Surroundings (V : Type*) where
  resampling : Resampling V
  blend : V → V → ℚ → V
  blank : StampedBlock V

section Steps

variable (around : Surroundings V) (s : FencedTap V)

def bump : FencedTap V := { s with epoch := s.epoch + 1, bumps := s.bumps + 1 }

/-- `reset_audio`, which reads the epoch. -/
def resetAudio : FencedTap V :=
  { s with audio := s.audio.resetAudio, workerEpoch := s.epoch }

/-- One atomic step of the ring. -/
def onRing (action : AudioRing.Action (StampedBlock V)) : Option (FencedTap V) :=
  s.ring.bind fun ring =>
    (AudioRing.step captureBlocks ring action).map fun ring => { s with ring := some ring }

/-- The step of the capture callback. -/
def captureStep : Capture V → Option (FencedTap V)
  | .idle => none
  | .monitored call =>
    some { s with capture := if s.monitored then .removed call else .idle }
  | .removed call =>
    some { s with
      capture :=
        if s.removed = false ∧ call.active = true ∧ call.suitable = true then .generation call
        else .idle }
  | .generation call => some { s with capture := .next call ⟨s.epoch, s.bumps⟩ 0 }
  | .next call stamp start =>
    if start < call.callback.frames then
      (s.onRing .loadWrite).map fun s => { s with capture := .claiming call stamp start }
    else some { s with capture := .idle }
  | .claiming call stamp start =>
    (s.onRing .writeSlot).map fun s =>
      -- A full ring drops the rest of the callback.
      let full := s.ring.any fun ring => ring.producer = .idle
      { s with capture := if full then .idle else .filling call stamp start }
  | .filling call stamp start =>
    (s.onRing (.store (call.stamped stamp start))).map fun s =>
      { s with capture := .filled call stamp start }
  | .filled call stamp start =>
    (s.onRing .publish).map fun s => { s with capture := .published call stamp start }
  | .published call stamp start =>
    (s.onRing .loadSize).map fun s => { s with capture := .sizing call stamp start }
  | .sizing call stamp start =>
    (s.onRing .size).map fun s => { s with capture := .next call stamp (start + 256) }

/-- After the loop of `service`. -/
def finish (call : ServiceCall) (active : Bool) : Service :=
  if active then .checkingMonitored call active else .idle

/-- A source that is not wanted is detached, if it is attached. -/
def unwant : Service := if s.attached then .detaching else .unwanted

/-- `weak` answers with a source, and the source is active. -/
structure SourceAnswers where
  source : Bool := true
  active : Bool := true

/-- The step of the worker. -/
def serviceStep (answers : SourceAnswers) : Service → Option (FencedTap V)
  | .idle => none
  | .entering call =>
    some { s with
      service :=
        if s.ready then if call.enabled then .wantsMonitored call else s.unwant else .idle }
  | .wantsMonitored call =>
    some { s with service := if s.monitored then .wantsRemoved call else s.unwant }
  | .wantsRemoved call =>
    some { s with service := if s.removed then s.unwant else .wantsDead call }
  | .wantsDead call =>
    some { s with service := if s.dead then s.unwant else .upgrading call }
  | .detaching =>
    if answers.source then
      -- OBS removes a callback only while it does not run.
      match s.capture with
      | .idle => some { s with attached := false, service := .unwanted }
      | _ => none
    else some { s with service := .detachingDead }
  | .detachingDead => some { s with attached := s.attached && !s.dead, service := .unwanted }
  | .unwanted =>
    some { s.resetAudio with
      ring := if s.attached then s.ring else none
      service := .idle }
  | .upgrading call =>
    if answers.source = false then some { s with service := .idle }
    else if s.attached then some { s with service := .activity call }
    else some { s with ring := some (.initial around.blank), service := .counting call }
  | .counting call => some { s.bump with service := .renewing call }
  | .renewing call => some { s.resetAudio with service := .attaching call }
  | .attaching call => some { s with attached := true, service := .activity call }
  | .activity call => some { s with service := .comparing call answers.active }
  | .comparing call active =>
    some { s with
      service := if s.workerEpoch ≠ s.epoch then .stale call active else .rating call active }
  | .stale call active => some { s.resetAudio with service := .rating call active }
  | .rating call active =>
    let other := s.audio.tap.outputRate ≠ 0 ∧ s.audio.tap.outputRate ≠ call.rate
    some { (if other then s.resetAudio else s) with service := .next call active 0 }
  | .next call active processed =>
    (s.onRing .loadRead).map fun s => { s with service := .fronting call active processed }
  | .fronting call active processed =>
    (s.onRing .front).bind fun s =>
      match s.ring.map AudioRing.State.consumer with
      | some (.holding cell) =>
        if processed + 1 > captureBlocks.toNat then
          (s.onRing .leave).map fun s => { s with service := finish call active }
        else some { s with service := .judging call active (processed + 1) cell }
      | _ => some { s with service := finish call active }
  | .judging call active processed cell =>
    s.ring.map fun ring =>
      let discards := (ring.ring.data cell).epoch ≠ s.workerEpoch ∨ active = false
      { s with
        service :=
          if discards then .popping call active processed cell
          else .placing call active processed cell }
  | .placing call active processed cell =>
    s.ring.map fun ring =>
      { s with
        audio := s.audio.place around.resampling around.blend call.rate call.cursor
          call.lookbehindNs (ring.ring.data cell).block
        service := .popping call active processed cell }
  | .popping call active processed _ =>
    (s.onRing .pop).map fun s => { s with service := .next call active processed }
  | .checkingMonitored call active =>
    some { s with
      service := if s.monitored then .checkingRemoved call active s.monitored else .idle }
  | .checkingRemoved call active monitored =>
    some { s with
      service := if s.removed then .idle else .checkingEpoch call active monitored s.removed }
  | .checkingEpoch call active monitored removed =>
    if s.workerEpoch = s.epoch then
      let (audio, added) := s.audio.mix call.cursor returnFrames
      some { s with
        audio
        service := .idle
        mixes := s.mixes ++ [{
          call, active, monitored, removed, epoch := s.epoch, workerEpoch := s.workerEpoch,
          moment := s.bumps, added }] }
    else some { s with service := .idle }
  | .restarting => some { s.resetAudio with service := .idle }

inductive Label (V : Type*) where
  | monitoring (enabled : Bool)
  | deactivate
  | remove
  | destroy
  /-- A signal that has changed a flag counts the epoch up. -/
  | count
  | capture (call : CaptureCall V)
  | captureStep
  | service (call : ServiceCall)
  /-- `run` resets the audio of all taps when its cursor starts anew. -/
  | restart
  | serviceStep (answers : SourceAnswers)

def step : Label V → Option (FencedTap V)
  | .monitoring enabled =>
    some { s with
      monitored := enabled
      pending := s.pending + if s.monitored = enabled then 0 else 1 }
  | .deactivate => some s.bump
  | .remove => some { s with removed := true, pending := s.pending + 1 }
  | .destroy =>
    -- OBS clears the callbacks of a source before this signal.
    match s.capture with
    | .idle => some { s with dead := true, pending := s.pending + 1 }
    | _ => none
  | .count =>
    if 0 < s.pending then some { s.bump with pending := s.pending - 1 } else none
  | .capture call =>
    -- A source calls back one after the other, and only who is attached to it.
    match s.capture with
    | .idle =>
      if s.attached = true ∧ s.dead = false then
        some { s with capture := if call.stopping then .idle else .monitored call }
      else none
    | _ => none
  | .captureStep => s.captureStep s.capture
  | .service call =>
    match s.service with
    | .idle => some { s with service := .entering call }
    | _ => none
  | .restart =>
    match s.service with
    | .idle => some { s with service := .restarting }
    | _ => none
  | .serviceStep answers => s.serviceStep around answers s.service

end Steps

/-- A new tap, of a source that is monitored or not. -/
def start (monitored : Bool) : FencedTap V where
  monitored
  audio.tap :=
    { timeline := .empty, clock := {}, retimer := { previous := (0, 0) }, resampler := none
      inputRate := 0, outputRate := 0, speakers := 0, discontinuities := 0, clockCorrections := 0
      lateFrames := 0 }

end FencedTap

end VbanStream
