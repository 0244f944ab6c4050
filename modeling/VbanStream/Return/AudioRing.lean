import VbanStream.Library.Slots
import VbanStream.Library.Run

/-! The ring between a source's capture callback and the return worker. Each side
reads the other's counter once and acts on what it saw then. -/

namespace VbanStream

open Library

/-- `AudioRing`: `data_` by cell, and the two counters. -/
structure AudioRing (α : Type*) where
  data : Nat → α
  write : UInt64 := 0
  read : UInt64 := 0

namespace AudioRing

variable {α : Type*} (Capacity : UInt64)

/-- `write_slot` after it has loaded `write_`: the cell, unless every cell is taken. -/
def writeSlot (ring : AudioRing α) (w : UInt64) : Option Nat :=
  if w - ring.read = Capacity then none else some (w % Capacity).toNat

def publish (ring : AudioRing α) : AudioRing α := { ring with write := ring.write + 1 }

/-- `front` after it has loaded `read_`. -/
def front (ring : AudioRing α) (r : UInt64) : Option Nat :=
  if r = ring.write then none else some (r % Capacity).toNat

/-- `size` after it has loaded `write_`. -/
def size (ring : AudioRing α) (w : UInt64) : UInt64 := min Capacity (w - ring.read)

def pop (ring : AudioRing α) : AudioRing α := { ring with read := ring.read + 1 }

/-- The caller's writes through the pointer that `write_slot` returned. -/
def store (ring : AudioRing α) (cell : Nat) (value : α) : AudioRing α :=
  { ring with data := Function.update ring.data cell value }

/-- What lies between the two counters, oldest first. -/
def contents (ring : AudioRing α) : List α :=
  (List.range (ring.write - ring.read).toNat).map fun i =>
    ring.data ((ring.read.toNat + i) % Capacity.toNat)

/-- Where the producer is: it has loaded `write_`, or holds a cell. -/
inductive Producer where
  | idle
  | loaded (w : UInt64)
  | filling (cell : Nat)
  | sizing (w : UInt64)
  deriving DecidableEq

inductive Consumer where
  | idle
  | loaded (r : UInt64)
  | holding (cell : Nat)
  deriving DecidableEq

/-- Both sides at work, with what has been published and consumed so far. -/
structure State (α : Type*) where
  ring : AudioRing α
  producer : Producer := .idle
  consumer : Consumer := .idle
  published : List α := []
  consumed : List α := []

/-- The atomic steps of the two sides. A side may give a cell back unused. -/
inductive Action (α : Type*) where
  | loadWrite
  | writeSlot
  | store (value : α)
  | publish
  | abandon
  | loadSize
  | size
  | loadRead
  | front
  | pop
  | leave

def step (state : State α) : Action α → Option (State α)
  | .loadWrite =>
    if state.producer = .idle then some { state with producer := .loaded state.ring.write }
    else none
  | .writeSlot =>
    match state.producer with
    | .loaded w =>
      match state.ring.writeSlot Capacity w with
      | none => some { state with producer := .idle }
      | some cell => some { state with producer := .filling cell }
    | _ => none
  | .store value =>
    match state.producer with
    | .filling cell => some { state with ring := state.ring.store cell value }
    | _ => none
  | .publish =>
    match state.producer with
    | .filling cell => some
      { state with
        ring := state.ring.publish
        producer := .idle
        published := state.published ++ [state.ring.data cell] }
    | _ => none
  | .abandon =>
    match state.producer with
    | .filling _ => some { state with producer := .idle }
    | _ => none
  | .loadSize =>
    if state.producer = .idle then some { state with producer := .sizing state.ring.write }
    else none
  | .size =>
    match state.producer with
    | .sizing _ => some { state with producer := .idle }
    | _ => none
  | .loadRead =>
    if state.consumer = .idle then some { state with consumer := .loaded state.ring.read }
    else none
  | .front =>
    match state.consumer with
    | .loaded r =>
      match state.ring.front Capacity r with
      | none => some { state with consumer := .idle }
      | some cell => some { state with consumer := .holding cell }
    | _ => none
  | .pop =>
    match state.consumer with
    | .holding cell => some
      { state with
        ring := state.ring.pop
        consumer := .idle
        consumed := state.consumed ++ [state.ring.data cell] }
    | _ => none
  | .leave =>
    match state.consumer with
    | .holding _ => some { state with consumer := .idle }
    | _ => none

/-- A new ring: every cell is a default value. -/
def State.initial (blank : α) : State α := { ring := { data := fun _ => blank } }

/-- What the counters and the cells mean. -/
structure Holds (state : State α) (queue : List α) : Prop where
  conserved : state.published = state.consumed ++ queue
  bounded : queue.length ≤ Capacity.toNat
  read : state.ring.read = UInt64.ofNat state.consumed.length
  write : state.ring.write = UInt64.ofNat state.published.length
  stored : Stored Capacity.toNat state.ring.data state.consumed.length queue

/-- What the producer still knows after the consumer has moved on. -/
def Producer.Knows (state : State α) (queue : List α) : Producer → Prop
  | .idle => True
  | .loaded w => w = state.ring.write
  | .filling cell =>
    cell = state.published.length % Capacity.toNat ∧ queue.length < Capacity.toNat
  | .sizing w => w = state.ring.write

def Consumer.Knows (state : State α) (queue : List α) : Consumer → Prop
  | .idle => True
  | .loaded r => r = state.ring.read
  | .holding cell => cell = state.consumed.length % Capacity.toNat ∧ queue ≠ []

/-- The invariant of both sides. -/
def Inv (state : State α) : Prop :=
  ∃ queue, Holds Capacity state queue ∧ state.producer.Knows Capacity state queue ∧
    state.consumer.Knows Capacity state queue

section Invariant

variable {Capacity} {state next : State α} {queue : List α}

theorem Holds.distance (holds : Holds Capacity state queue) :
    (state.ring.write - state.ring.read).toNat = queue.length := by
  have small := Capacity.toNat_lt
  have bounded := holds.bounded
  rw [holds.write, holds.read, holds.conserved, List.length_append, UInt64.ofNat_add,
    UInt64.add_comm, UInt64.add_sub_cancel, UInt64.toNat_ofNat']
  exact Nat.mod_eq_of_lt (Nat.lt_of_le_of_lt bounded small)

theorem Holds.contents (holds : Holds Capacity state queue)
    (divides : Capacity.toNat ∣ 2 ^ 64) : state.ring.contents Capacity = queue := by
  have read : state.ring.read.toNat = state.consumed.length % 2 ^ 64 := by
    rw [holds.read, UInt64.toNat_ofNat']
  rw [AudioRing.contents, holds.distance]
  refine Eq.trans (List.map_congr_left ?_) holds.stored.read
  intro i _
  rw [read, ← Nat.mod_mod_of_dvd _ divides, Nat.mod_add_mod, Nat.mod_mod_of_dvd _ divides]

/-- The counters may wrap: a capacity that divides `2 ^ 64` keeps the cells in step. -/
theorem cell_ofNat (divides : Capacity.toNat ∣ 2 ^ 64) (count : Nat) :
    (UInt64.ofNat count % Capacity).toNat = count % Capacity.toNat := by
  rw [UInt64.toNat_mod, UInt64.toNat_ofNat', Nat.mod_mod_of_dvd _ divides]

theorem Holds.room (holds : Holds Capacity state queue) :
    state.ring.write - state.ring.read = Capacity ↔ queue.length = Capacity.toNat := by
  rw [← holds.distance, UInt64.toNat_inj]

theorem Holds.occupied (holds : Holds Capacity state queue) :
    state.ring.read = state.ring.write ↔ queue = [] := by
  rw [← List.length_eq_zero_iff, ← holds.distance]
  constructor
  · intro same
    simp [same]
  · intro zero
    have equal : state.ring.write - state.ring.read = 0 := UInt64.toNat_inj.mp zero
    rw [← UInt64.sub_add_cancel state.ring.write state.ring.read, equal, UInt64.zero_add]

theorem Holds.moved (holds : Holds Capacity state queue) (producer : Producer)
    (consumer : Consumer) : Holds Capacity { state with producer, consumer } queue :=
  ⟨holds.conserved, holds.bounded, holds.read, holds.write, holds.stored⟩

theorem Holds.granted (holds : Holds Capacity state queue) (divides : Capacity.toNat ∣ 2 ^ 64)
    {cell : Nat} (granted : state.ring.writeSlot Capacity state.ring.write = some cell) :
    cell = state.published.length % Capacity.toNat ∧ queue.length < Capacity.toNat := by
  obtain ⟨room, same⟩ := Option.ite_none_left_eq_some.mp granted
  cases same
  constructor
  · rw [holds.write, cell_ofNat divides]
  · rw [holds.room] at room
    exact Nat.lt_of_le_of_ne holds.bounded room

theorem Holds.found (holds : Holds Capacity state queue) (divides : Capacity.toNat ∣ 2 ^ 64)
    {cell : Nat} (found : state.ring.front Capacity state.ring.read = some cell) :
    cell = state.consumed.length % Capacity.toNat ∧ queue ≠ [] := by
  obtain ⟨left, same⟩ := Option.ite_none_left_eq_some.mp found
  cases same
  constructor
  · rw [holds.read, cell_ofNat divides]
  · rwa [holds.occupied] at left

theorem Holds.apart (holds : Holds Capacity state queue) (room : queue.length < Capacity.toNat)
    (filled : queue ≠ []) :
    state.published.length % Capacity.toNat ≠ state.consumed.length % Capacity.toNat := by
  intro same
  have counted := congrArg List.length holds.conserved
  rw [List.length_append] at counted
  have nonempty := List.length_pos_iff.mpr filled
  have equal := cell_inj (by omega) (by omega) same
  omega

/-- The bound in `size` never bites. -/
theorem Holds.size (holds : Holds Capacity state queue) :
    (state.ring.size Capacity state.ring.write).toNat = queue.length := by
  have bounded := holds.bounded
  rw [← holds.distance] at bounded ⊢
  change (if Capacity ≤ state.ring.write - state.ring.read then Capacity else _).toNat = _
  split
  · rename_i full
    rw [UInt64.le_iff_toNat_le] at full
    omega
  · rfl

/-- Writing the free cell leaves the queue as it is. -/
theorem Holds.store (holds : Holds Capacity state queue) {cell : Nat}
    (free : cell = state.published.length % Capacity.toNat)
    (room : queue.length < Capacity.toNat) (value : α) :
    Holds Capacity { state with ring := state.ring.store cell value } queue := by
  refine ⟨holds.conserved, holds.bounded, holds.read, holds.write, ?_⟩
  have written := holds.stored.store room value
  rwa [← List.length_append, ← holds.conserved, ← free] at written

theorem Holds.publish (holds : Holds Capacity state queue) {cell : Nat}
    (free : cell = state.published.length % Capacity.toNat)
    (room : queue.length < Capacity.toNat) :
    Holds Capacity
      { state with
        ring := state.ring.publish
        producer := .idle
        published := state.published ++ [state.ring.data cell] }
      (queue ++ [state.ring.data cell]) := by
  refine ⟨?_, ?_, holds.read, ?_, ?_⟩
  · simp [holds.conserved]
  · simpa using room
  · simp [AudioRing.publish, holds.write, UInt64.ofNat_add]
  · have pushed := holds.stored.push
    rwa [← List.length_append, ← holds.conserved, ← free] at pushed

theorem Holds.pop {item : α} (holds : Holds Capacity state (item :: queue)) {cell : Nat}
    (oldest : cell = state.consumed.length % Capacity.toNat) :
    Holds Capacity
      { state with
        ring := state.ring.pop
        consumer := .idle
        consumed := state.consumed ++ [state.ring.data cell] } queue := by
  have seen : state.ring.data cell = item := by
    rw [oldest]
    exact holds.stored.front
  refine ⟨?_, ?_, ?_, holds.write, ?_⟩
  · simp [holds.conserved, seen]
  · have bounded := holds.bounded
    rw [List.length_cons] at bounded
    exact Nat.le_of_succ_le bounded
  · simp [AudioRing.pop, holds.read, UInt64.ofNat_add]
  · rw [List.length_append, List.length_singleton]
    exact holds.stored.pop

/-- A side that has not moved keeps what it knows while the other side works. -/
theorem Producer.Knows.kept {producer : Producer} {fewer : List α}
    (knows : producer.Knows Capacity state queue) (write : next.ring.write = state.ring.write)
    (published : next.published = state.published) (less : fewer.length ≤ queue.length) :
    producer.Knows Capacity next fewer := by
  cases producer with
  | idle => trivial
  | loaded w => exact knows.trans write.symm
  | filling cell => exact ⟨by rw [published]; exact knows.1, less.trans_lt knows.2⟩
  | sizing w => exact knows.trans write.symm

theorem Consumer.Knows.kept {consumer : Consumer} {more : List α}
    (knows : consumer.Knows Capacity state queue) (read : next.ring.read = state.ring.read)
    (consumed : next.consumed = state.consumed) (still : queue ≠ [] → more ≠ []) :
    consumer.Knows Capacity next more := by
  cases consumer with
  | idle => trivial
  | loaded r => exact knows.trans read.symm
  | holding cell => exact ⟨by rw [consumed]; exact knows.1, still knows.2⟩

theorem step_inv (divides : Capacity.toNat ∣ 2 ^ 64) (action : Action α)
    (inv : Inv Capacity state) (taken : step Capacity state action = some next) :
    Inv Capacity next := by
  obtain ⟨queue, holds, produces, consumes⟩ := inv
  cases action with
  | loadWrite =>
    obtain ⟨_, rest⟩ := Option.ite_none_right_eq_some.mp taken
    cases rest
    exact ⟨queue, holds.moved .., rfl, consumes⟩
  | writeSlot =>
    cases place : state.producer with
    | loaded w =>
      rw [place] at produces
      cases granted : state.ring.writeSlot Capacity w with
      | none =>
        simp only [step, place, granted, Option.some.injEq] at taken
        cases taken
        exact ⟨queue, holds.moved .., trivial, consumes⟩
      | some cell =>
        simp only [step, place, granted, Option.some.injEq] at taken
        cases taken
        rw [show w = state.ring.write from produces] at granted
        exact ⟨queue, holds.moved .., holds.granted divides granted, consumes⟩
    | _ => simp [step, place] at taken
  | store value =>
    cases place : state.producer with
    | filling cell =>
      simp only [step, place, Option.some.injEq] at taken
      rw [place] at produces
      have stored := holds.store produces.1 produces.2 value
      rw [place] at stored
      cases taken
      exact ⟨queue, stored, produces.kept rfl rfl le_rfl, consumes⟩
    | _ => simp [step, place] at taken
  | publish =>
    cases place : state.producer with
    | filling cell =>
      simp only [step, place, Option.some.injEq] at taken
      rw [place] at produces
      cases taken
      exact ⟨_, holds.publish produces.1 produces.2, trivial, consumes.kept rfl rfl (by simp)⟩
    | _ => simp [step, place] at taken
  | abandon =>
    cases place : state.producer with
    | filling cell =>
      simp only [step, place, Option.some.injEq] at taken
      cases taken
      exact ⟨queue, holds.moved .., trivial, consumes⟩
    | _ => simp [step, place] at taken
  | loadSize =>
    obtain ⟨_, rest⟩ := Option.ite_none_right_eq_some.mp taken
    cases rest
    exact ⟨queue, holds.moved .., rfl, consumes⟩
  | size =>
    cases place : state.producer with
    | sizing w =>
      simp only [step, place, Option.some.injEq] at taken
      cases taken
      exact ⟨queue, holds.moved .., trivial, consumes⟩
    | _ => simp [step, place] at taken
  | loadRead =>
    obtain ⟨_, rest⟩ := Option.ite_none_right_eq_some.mp taken
    cases rest
    exact ⟨queue, holds.moved .., produces, rfl⟩
  | front =>
    cases place : state.consumer with
    | loaded r =>
      rw [place] at consumes
      cases found : state.ring.front Capacity r with
      | none =>
        simp only [step, place, found, Option.some.injEq] at taken
        cases taken
        exact ⟨queue, holds.moved .., produces, trivial⟩
      | some cell =>
        simp only [step, place, found, Option.some.injEq] at taken
        cases taken
        rw [show r = state.ring.read from consumes] at found
        exact ⟨queue, holds.moved .., produces, holds.found divides found⟩
    | _ => simp [step, place] at taken
  | pop =>
    cases place : state.consumer with
    | holding cell =>
      simp only [step, place, Option.some.injEq] at taken
      rw [place] at consumes
      cases taken
      obtain ⟨item, rest, rfl⟩ := List.exists_cons_of_ne_nil consumes.2
      exact ⟨rest, holds.pop consumes.1, produces.kept rfl rfl (by simp), trivial⟩
    | _ => simp [step, place] at taken
  | leave =>
    cases place : state.consumer with
    | holding cell =>
      simp only [step, place, Option.some.injEq] at taken
      cases taken
      exact ⟨queue, holds.moved .., produces, trivial⟩
    | _ => simp [step, place] at taken

theorem reachable_inv (divides : Capacity.toNat ∣ 2 ^ 64) {blank : α}
    (reached : Reachable (step Capacity) (State.initial blank) state) : Inv Capacity state := by
  refine reached.invariant (fun _ action _ => step_inv divides action) ?_
  exact ⟨[], ⟨rfl, Nat.zero_le _, rfl, rfl, .nil⟩, trivial, trivial⟩

end Invariant

/-- Whatever the interleaving: what was published is what was consumed followed by what lies
between the counters, which never exceeds the capacity. The consumer sees the oldest of it for
as long as it holds its cell, and the producer holds another. A refusal means a full ring, an
empty answer an empty one, and `size` is exact. -/
theorem ring_fifo (divides : Capacity.toNat ∣ 2 ^ 64) (blank : α) (state : State α)
    (reached : Reachable (step Capacity) (State.initial blank) state) :
    state.published = state.consumed ++ state.ring.contents Capacity ∧
      state.ring.write - state.ring.read ≤ Capacity ∧
      (∀ cell, state.consumer = .holding cell →
        (state.ring.contents Capacity).head? = some (state.ring.data cell)) ∧
      (∀ filled held, state.producer = .filling filled → state.consumer = .holding held →
        filled ≠ held) ∧
      (∀ w, state.producer = .loaded w → state.ring.writeSlot Capacity w = none →
        (state.ring.contents Capacity).length = Capacity.toNat) ∧
      (∀ r, state.consumer = .loaded r → state.ring.front Capacity r = none →
        state.ring.contents Capacity = []) ∧
      (∀ w, state.producer = .sizing w →
        (state.ring.size Capacity w).toNat = (state.ring.contents Capacity).length) := by
  obtain ⟨queue, holds, produces, consumes⟩ := reachable_inv divides reached
  rw [holds.contents divides]
  refine ⟨holds.conserved, ?_, ?_, ?_, ?_, ?_, ?_⟩
  · rw [UInt64.le_iff_toNat_le, holds.distance]
    exact holds.bounded
  · intro cell place
    rw [place] at consumes
    obtain ⟨item, rest, rfl⟩ := List.exists_cons_of_ne_nil consumes.2
    rw [consumes.1, holds.stored.front, List.head?_cons]
  · intro filled held writes reads same
    rw [writes] at produces
    rw [reads] at consumes
    rw [produces.1, consumes.1] at same
    exact holds.apart produces.2 consumes.2 same
  · intro w place refused
    rw [place] at produces
    rw [← holds.room, ← show w = state.ring.write from produces]
    simpa [writeSlot] using refused
  · intro r place refused
    rw [place] at consumes
    rw [← holds.occupied, ← show r = state.ring.read from consumes]
    simpa [front] using refused
  · intro w place
    rw [place] at produces
    rw [show w = state.ring.write from produces, holds.size]

/-- Two cells: both sides hold one, after the producer has been refused a third. -/
theorem ring_fifo_two : ∃ state : State Nat,
    state.published = state.consumed ++ state.ring.contents 2 ∧ state.consumed = [5] ∧
      state.consumer = .holding 1 ∧ state.producer = .filling 0 := by
  have found : (run (step 2) (State.initial 0)
      [.loadWrite, .writeSlot, .store 5, .publish, .loadWrite, .loadRead, .writeSlot, .front,
        .store 6, .publish, .loadWrite, .writeSlot, .loadWrite, .pop, .loadRead, .writeSlot,
        .front, .store 7]).any (fun state => state.consumed = [5] ∧
          state.consumer = .holding 1 ∧ state.producer = .filling 0) = true := by
    decide +kernel
  obtain ⟨state, ran, facts⟩ := (Option.any_eq_true _ _).mp found
  obtain ⟨conserved, _⟩ := ring_fifo 2 (by decide) 0 state ⟨_, ran⟩
  exact ⟨state, conserved, of_decide_eq_true facts⟩

end AudioRing

end VbanStream
