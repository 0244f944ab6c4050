import VbanStream.Return.EpochFence

namespace VbanStream

open Library

namespace AudioRing

variable {α : Type*} {Capacity : UInt64} {state next : State α}

theorem Inv.held (inv : Inv Capacity state) {cell : Nat}
    (holding : state.consumer = .holding cell) : state.ring.data cell ∈ state.published := by
  obtain ⟨queue, holds, _, consumes⟩ := inv
  rw [holding] at consumes
  obtain ⟨item, rest, rfl⟩ := List.exists_cons_of_ne_nil consumes.2
  rw [consumes.1, holds.stored.front, holds.conserved]
  exact List.mem_append_right _ List.mem_cons_self

theorem Inv.apart (inv : Inv Capacity state) {filled held : Nat}
    (filling : state.producer = .filling filled) (holding : state.consumer = .holding held) :
    held ≠ filled := by
  obtain ⟨queue, holds, produces, consumes⟩ := inv
  rw [filling] at produces
  rw [holding] at consumes
  rw [produces.1, consumes.1]
  exact (holds.apart produces.2 consumes.2).symm

end AudioRing

/-- A stamp that could have been read, after so many counts or fewer. -/
def Stamp.Valid (bumps : Nat) (stamp : Stamp) : Prop :=
  stamp.epoch = UInt64.ofNat (stamp.moment + 1) ∧ stamp.moment ≤ bumps

/-- All samples of the block have one stamp, and it is the block's. -/
def StampedBlock.Authentic {V : Type*} (bumps : Nat) (b : StampedBlock V) : Prop :=
  ∃ stamp : Stamp, stamp.Valid bumps ∧ b.epoch = stamp.epoch ∧ b.block.Within (· = stamp)

theorem CaptureCall.authentic {V : Type*} (call : CaptureCall V) {stamp : Stamp} {bumps : Nat}
    (valid : stamp.Valid bumps) (start : UInt32) : (call.stamped stamp start).Authentic bumps := by
  refine ⟨stamp, valid, rfl, ?_, ?_⟩
  · intro c i origin member
    exact List.mem_singleton.mp member
  · intro origin member
    exact List.mem_singleton.mp member

section Ring

variable {V : Type*}

/-- What the ring knows of the callback. -/
def Capture.Produces : Capture V → CaptureRing V → Prop
  | .claiming .., ring => ∃ w, ring.producer = .loaded w
  | .filling .., ring => ∃ cell, ring.producer = .filling cell
  | .filled call stamp start, ring =>
    ∃ cell, ring.producer = .filling cell ∧ ring.ring.data cell = call.stamped stamp start
  | .sizing .., ring => ∃ w, ring.producer = .sizing w
  | _, ring => ring.producer = .idle

def Capture.stamp : Capture V → Option Stamp
  | .next _ stamp _ | .claiming _ stamp _ | .filling _ stamp _ | .filled _ stamp _
  | .published _ stamp _ | .sizing _ stamp _ => some stamp
  | _ => none

/-- What the ring knows of the worker. A block that is placed has the worker's epoch. -/
def Service.Consumes (workerEpoch : UInt64) : Service → CaptureRing V → Prop
  | .fronting .., ring => ∃ r, ring.consumer = .loaded r
  | .judging _ _ _ cell, ring | .popping _ _ _ cell, ring => ring.consumer = .holding cell
  | .placing _ _ _ cell, ring =>
    ring.consumer = .holding cell ∧ (ring.ring.data cell).epoch = workerEpoch
  | _, ring => ring.consumer = .idle

/-- Both sides of the ring, and what lies in it. -/
structure CaptureRing.Sound (bumps : Nat) (workerEpoch : UInt64) (capture : Capture V)
    (service : Service) (ring : CaptureRing V) : Prop where
  inv : AudioRing.Inv captureBlocks ring
  authentic : ∀ b ∈ ring.published, b.Authentic bumps
  produces : capture.Produces ring
  consumes : service.Consumes workerEpoch ring

variable {bumps : Nat} {workerEpoch : UInt64} {capture : Capture V} {service : Service}
variable {ring next : CaptureRing V} {call : CaptureCall V} {stamp : Stamp} {start : UInt32}

/-- The producer's steps leave the consumer its cell. -/
theorem Service.Consumes.kept (consumes : service.Consumes workerEpoch ring)
    (consumer : next.consumer = ring.consumer)
    (data : ∀ cell, ring.consumer = .holding cell → next.ring.data cell = ring.ring.data cell) :
    service.Consumes workerEpoch next := by
  cases service with
  | placing call active processed cell =>
    exact ⟨consumer.trans consumes.1, (congrArg _ (data cell consumes.1)).trans consumes.2⟩
  | fronting call active processed =>
    obtain ⟨r, loaded⟩ := consumes
    exact ⟨r, consumer.trans loaded⟩
  | _ => exact consumer.trans consumes

theorem Capture.Produces.kept (produces : capture.Produces ring)
    (producer : next.producer = ring.producer) (data : next.ring.data = ring.ring.data) :
    capture.Produces next := by
  cases capture with
  | claiming | sizing =>
    obtain ⟨w, loaded⟩ := produces
    exact ⟨w, producer.trans loaded⟩
  | filling =>
    obtain ⟨cell, filling⟩ := produces
    exact ⟨cell, producer.trans filling⟩
  | filled =>
    obtain ⟨cell, filling, stored⟩ := produces
    exact ⟨cell, producer.trans filling, data ▸ stored⟩
  | _ => exact producer.trans produces

namespace CaptureRing.Sound

theorem divides : captureBlocks.toNat ∣ 2 ^ 64 := by decide

theorem initial (blank : StampedBlock V) (produces : capture = .idle)
    (consumes : service.Consumes workerEpoch (.initial blank : CaptureRing V)) :
    CaptureRing.Sound bumps workerEpoch capture service (.initial blank) where
  inv := ⟨[], ⟨rfl, Nat.zero_le _, rfl, rfl, .nil⟩, trivial, trivial⟩
  authentic := nofun
  produces := by rw [produces]; rfl
  consumes := consumes

theorem later (sound : Sound bumps workerEpoch capture service ring) {more : Nat}
    (grown : bumps ≤ more) : Sound more workerEpoch capture service ring where
  inv := sound.inv
  authentic b member := by
    obtain ⟨stamp, valid, rest⟩ := sound.authentic b member
    exact ⟨stamp, ⟨valid.1, valid.2.trans grown⟩, rest⟩
  produces := sound.produces
  consumes := sound.consumes

theorem loadWrite (sound : Sound bumps workerEpoch (.next call stamp start) service ring)
    (taken : AudioRing.step captureBlocks ring .loadWrite = some next) :
    Sound bumps workerEpoch (.claiming call stamp start) service next := by
  have inv := AudioRing.step_inv divides _ sound.inv taken
  obtain ⟨_, same⟩ := Option.ite_none_right_eq_some.mp taken
  cases same
  exact ⟨inv, sound.authentic, ⟨_, rfl⟩, sound.consumes.kept rfl fun _ _ => rfl⟩

theorem writeSlot (sound : Sound bumps workerEpoch (.claiming call stamp start) service ring)
    (taken : AudioRing.step captureBlocks ring .writeSlot = some next) :
    Sound bumps workerEpoch
      (if next.producer = .idle then .idle else .filling call stamp start) service next := by
  have inv := AudioRing.step_inv divides _ sound.inv taken
  obtain ⟨w, loaded⟩ := sound.produces
  simp only [AudioRing.step, loaded] at taken
  split at taken <;> cases taken
  · exact ⟨inv, sound.authentic, rfl, sound.consumes.kept rfl fun _ _ => rfl⟩
  · exact ⟨inv, sound.authentic, ⟨_, rfl⟩, sound.consumes.kept rfl fun _ _ => rfl⟩

theorem store (sound : Sound bumps workerEpoch (.filling call stamp start) service ring)
    (taken : AudioRing.step captureBlocks ring (.store (call.stamped stamp start)) = some next) :
    Sound bumps workerEpoch (.filled call stamp start) service next := by
  have inv := AudioRing.step_inv divides _ sound.inv taken
  obtain ⟨cell, filling⟩ := sound.produces
  simp only [AudioRing.step, filling] at taken
  cases taken
  refine ⟨inv, sound.authentic, ⟨cell, rfl, Function.update_self ..⟩,
    sound.consumes.kept rfl fun held holding => ?_⟩
  exact Function.update_of_ne (sound.inv.apart filling holding) _ _

theorem publish (sound : Sound bumps workerEpoch (.filled call stamp start) service ring)
    (valid : stamp.Valid bumps)
    (taken : AudioRing.step captureBlocks ring .publish = some next) :
    Sound bumps workerEpoch (.published call stamp start) service next := by
  have inv := AudioRing.step_inv divides _ sound.inv taken
  obtain ⟨cell, filling, stored⟩ := sound.produces
  simp only [AudioRing.step, filling] at taken
  cases taken
  refine ⟨inv, ?_, rfl, sound.consumes.kept rfl fun _ _ => rfl⟩
  intro b member
  rcases List.mem_append.mp member with old | new
  · exact sound.authentic b old
  · rw [List.mem_singleton.mp new, stored]
    exact call.authentic valid start

theorem loadSize (sound : Sound bumps workerEpoch (.published call stamp start) service ring)
    (taken : AudioRing.step captureBlocks ring .loadSize = some next) :
    Sound bumps workerEpoch (.sizing call stamp start) service next := by
  have inv := AudioRing.step_inv divides _ sound.inv taken
  obtain ⟨_, same⟩ := Option.ite_none_right_eq_some.mp taken
  cases same
  exact ⟨inv, sound.authentic, ⟨_, rfl⟩, sound.consumes.kept rfl fun _ _ => rfl⟩

theorem size (sound : Sound bumps workerEpoch (.sizing call stamp start) service ring)
    (taken : AudioRing.step captureBlocks ring .size = some next) :
    Sound bumps workerEpoch (.next call stamp (start + 256)) service next := by
  have inv := AudioRing.step_inv divides _ sound.inv taken
  obtain ⟨w, sizing⟩ := sound.produces
  simp only [AudioRing.step, sizing] at taken
  cases taken
  exact ⟨inv, sound.authentic, rfl, sound.consumes.kept rfl fun _ _ => rfl⟩

variable {request : ServiceCall} {active : Bool} {processed cell : Nat}

theorem loadRead (sound : Sound bumps workerEpoch capture (.next request active processed) ring)
    (taken : AudioRing.step captureBlocks ring .loadRead = some next) :
    Sound bumps workerEpoch capture (.fronting request active processed) next := by
  have inv := AudioRing.step_inv divides _ sound.inv taken
  obtain ⟨_, same⟩ := Option.ite_none_right_eq_some.mp taken
  cases same
  exact ⟨inv, sound.authentic, sound.produces.kept rfl rfl, ⟨_, rfl⟩⟩

/-- The worker finds the ring empty, or holds a block that has been published. -/
theorem front (sound : Sound bumps workerEpoch capture (.fronting request active processed) ring)
    (taken : AudioRing.step captureBlocks ring .front = some next) :
    (next.consumer = .idle ∧ ∀ after : Service, after.Consumes workerEpoch next →
        Sound bumps workerEpoch capture after next) ∨
      ∃ cell, next.consumer = .holding cell ∧
        Sound bumps workerEpoch capture (.judging request active (processed + 1) cell) next := by
  have inv := AudioRing.step_inv divides _ sound.inv taken
  obtain ⟨r, loaded⟩ := sound.consumes
  simp only [AudioRing.step, loaded] at taken
  split at taken <;> cases taken
  · exact .inl ⟨rfl, fun _ consumes =>
      ⟨inv, sound.authentic, sound.produces.kept rfl rfl, consumes⟩⟩
  · exact .inr ⟨_, rfl, inv, sound.authentic, sound.produces.kept rfl rfl, rfl⟩

theorem leave (sound : Sound bumps workerEpoch capture (.judging request active processed cell)
      ring)
    (taken : AudioRing.step captureBlocks ring .leave = some next) {after : Service}
    (consumes : next.consumer = .idle → after.Consumes workerEpoch next) :
    Sound bumps workerEpoch capture after next := by
  have inv := AudioRing.step_inv divides _ sound.inv taken
  have holding : ring.consumer = .holding cell := sound.consumes
  simp only [AudioRing.step, holding] at taken
  cases taken
  exact ⟨inv, sound.authentic, sound.produces.kept rfl rfl, consumes rfl⟩

theorem pop (sound : Sound bumps workerEpoch capture (.popping request active processed cell)
      ring)
    (taken : AudioRing.step captureBlocks ring .pop = some next) :
    Sound bumps workerEpoch capture (.next request active processed) next := by
  have inv := AudioRing.step_inv divides _ sound.inv taken
  have holding : ring.consumer = .holding cell := sound.consumes
  simp only [AudioRing.step, holding] at taken
  cases taken
  exact ⟨inv, sound.authentic, sound.produces.kept rfl rfl, rfl⟩

theorem held (sound : Sound bumps workerEpoch capture service ring)
    (holding : ring.consumer = .holding cell) : (ring.ring.data cell).Authentic bumps :=
  sound.authentic _ (sound.inv.held holding)

end CaptureRing.Sound

end Ring

end VbanStream
