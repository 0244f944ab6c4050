import VbanStream.Buffer.Steps
import VbanStream.Receiver.Reconfigure

/-! What the receiver says about a slot: the text and the numbers that `status` gives the settings
dialog and the sources are those of the datagrams offered since the slot was last changed. -/

namespace VbanStream

open Library

inductive SlotState where
  | disabled | waiting | receiving | error
deriving DecidableEq, Repr

structure SlotStatus where
  state : SlotState := .disabled
  format : Format := {}
  counters : Counters := {}
  error : String := ""

/-- `Receiver::status`; `fatalError` is what `fail` has left, if a thread has ended. -/
def Receiver.status (s : Receiver) (fatalError : String) (now : UInt64) (index : Nat) :
    SlotStatus :=
  if inside : index < slotCount then
    let i : Fin slotCount := ⟨index, inside⟩
    let slot := s.slots i
    let result : SlotStatus := { format := slot.buffer.format, counters := slot.buffer.counters }
    if (s.routing.config.slots i).enabled = false then result
    else
      let error := if fatalError = "" then slot.error else fatalError
      { result with
        error
        state :=
          if error ≠ "" then .error
          else if slot.buffer.lastValid ≠ 0 && now - slot.buffer.lastValid < 1000000000 then
            .receiving
          else .waiting }
  else {}

/-- A datagram as it was decoded, with the time. -/
abbrev Offer := Except ParseError Packet × UInt64

/-- What came in for the slot. -/
def offered (log : List Entry) : List Offer :=
  log.filterMap fun
    | .received d now _ => some (d.decoded, now)
    | .serviced _ => none

/-- A packet, if that is what was offered. -/
def Offer.heard (offer : Offer) : Option (Packet × UInt64) :=
  offer.1.toOption.map fun packet => (packet, offer.2)

/-- The reason to refuse what was offered. -/
def Offer.complaint (offer : Offer) : Option ParseError :=
  match offer.1 with
  | .error error => some error
  | .ok _ => none

/-- The slot's own record of what was offered. -/
structure Records (offers : List Offer) (slot : Slot) : Prop where
  received : slot.buffer.counters.received = (offers.filterMap Offer.heard).length
  unsupported : slot.buffer.counters.unsupported =
    (offers.filterMap Offer.complaint).countP Slot.unsupported
  corrupt : slot.buffer.counters.corrupt =
    (offers.filterMap Offer.complaint).countP fun error => !Slot.unsupported error
  format : slot.buffer.format =
    ((offers.filterMap Offer.heard).getLast?.map fun last => last.1.format).getD {}
  lastValid : slot.buffer.lastValid = ((offers.filterMap Offer.heard).getLast?.map Prod.snd).getD 0
  error : slot.error = ((offers.getLast?.bind Offer.complaint).map describe).getD ""

namespace StreamBuffer

/-- The counters of what came in. -/
def incoming (b : StreamBuffer) : Nat × Nat × Nat :=
  (b.counters.received, b.counters.unsupported, b.counters.corrupt)

theorem visit_incoming (b : StreamBuffer) (visit : Visit) :
    (b.visit visit).incoming = b.incoming := by
  cases visit <;> rfl

theorem fillLoop_incoming (frames turns : Nat) (b : StreamBuffer) :
    (fillLoop frames turns b).1.incoming = b.incoming := by
  induction turns generalizing b with
  | zero => rfl
  | succ turns ih =>
    unfold fillLoop
    split
    · split
      · rfl
      · rw [ih, visit_incoming]
    · rfl

theorem emit_incoming (b : StreamBuffer) : b.emit.1.incoming = b.incoming := by
  have filled : (b.correct.fill b.consume).1.incoming = b.incoming := fillLoop_incoming ..
  have prepared : b.prepare.1.incoming = b.incoming := by
    unfold prepare
    dsimp only
    split
    · exact filled
    · exact filled
  unfold emit
  dsimp only
  split
  · exact prepared
  · exact prepared

theorem pull_incoming (b : StreamBuffer) (now : UInt64) :
    (b.pull now).1.incoming = b.incoming ∧ (b.pull now).1.format = b.format := by
  generalize pulled : b.pull now = result
  obtain ⟨after, block⟩ := result
  have started (s : StreamBuffer) (ready : b.start now = some s) :
      s.incoming = b.incoming ∧ s.format = b.format := by
    obtain ⟨_, rfl⟩ | ⟨_, rfl⟩ := start_cases ready
    · exact ⟨rfl, rfl⟩
    · exact ⟨rfl, rfl⟩
  cases pull_cases pulled with
  | idle | inactive | waiting => exact ⟨rfl, rfl⟩
  | early _ ready => exact started _ ready
  | @suspended middle _ ready =>
    obtain ⟨same, kept⟩ := started middle ready
    exact ⟨same, kept⟩
  | @emitted middle _ ready =>
    obtain ⟨same, kept⟩ := started middle ready
    exact ⟨middle.emit_incoming.trans same, middle.emit_schedule.2.1.trans kept⟩

theorem enter_incoming (b : StreamBuffer) (packet : Packet) (now : UInt64) :
    (b.enter packet now).incoming =
        (b.counters.received + 1, b.counters.unsupported, b.counters.corrupt) ∧
      (b.enter packet now).format = packet.format := by
  cases opens : b.opens packet now with
  | true =>
    refine ⟨?_, ?_⟩
    · unfold enter
      dsimp only
      split
      · split <;> rfl
      · rfl
    · obtain ⟨counters, entered⟩ := enter_of_opens opens
      rw [entered]
      rfl
  | false =>
    rw [enter_of_not_opens opens]
    exact ⟨rfl, (not_opens opens).2.1.symm⟩

theorem store_incoming (b : StreamBuffer) (packet : Packet) (now : UInt64)
    (same : b.format = packet.format) :
    (b.store packet now).incoming = b.incoming ∧ (b.store packet now).format = packet.format := by
  unfold store
  dsimp only
  split
  · split <;> exact ⟨rfl, rfl⟩
  · split <;> exact ⟨rfl, same⟩

/-- A push counts the packet once, and takes over its format. -/
theorem push_incoming (b : StreamBuffer) (packet : Packet) (now : UInt64) :
    (b.push packet now).incoming =
        (b.counters.received + 1, b.counters.unsupported, b.counters.corrupt) ∧
      (b.push packet now).format = packet.format := by
  obtain ⟨counted, format⟩ := b.enter_incoming packet now
  unfold push
  dsimp only
  split
  · exact ⟨counted, format⟩
  · split
    · exact ⟨counted, format⟩
    · obtain ⟨kept, taken⟩ := (b.enter packet now).store_incoming packet now format
      exact ⟨kept.trans counted, taken⟩

end StreamBuffer

theorem records_reset (slot : Slot) : Records [] slot.reset :=
  ⟨rfl, rfl, rfl, rfl, rfl, rfl⟩

theorem Records.apply {log : List Entry} {slot : Slot} (records : Records (offered log) slot)
    (entry : Entry) : Records (offered (log ++ [entry])) (entry.apply slot) := by
  cases entry with
  | serviced now =>
    have same : offered (log ++ [.serviced now]) = offered log := by simp [offered]
    obtain ⟨incoming, format⟩ := slot.buffer.pull_incoming now
    simp only [StreamBuffer.incoming, Prod.mk.injEq] at incoming
    obtain ⟨received, unsupported, corrupt⟩ := incoming
    rw [same]
    exact ⟨received.trans records.received, unsupported.trans records.unsupported,
      corrupt.trans records.corrupt, format.trans records.format,
      (slot.buffer.pull_clocks now).1.trans records.lastValid, records.error⟩
  | received d now generation =>
    have joined : offered (log ++ [.received d now generation]) =
        offered log ++ [(d.decoded, now)] := by simp [offered]
    rw [joined]
    obtain ⟨received, unsupported, corrupt, format, lastValid, error⟩ := records
    cases decoded : d.decoded with
    | ok packet =>
      obtain ⟨incoming, format'⟩ := slot.buffer.push_incoming packet now
      simp only [StreamBuffer.incoming, Prod.mk.injEq] at incoming
      have applied : Entry.apply slot (.received d now generation) = { slot with
          wasReceiving := true
          error := ""
          buffer := slot.buffer.push packet now } := by
        simp only [Entry.apply, Slot.receive, decoded]
      rw [applied]
      refine ⟨?_, ?_, ?_, ?_, ?_, ?_⟩
      · simp [incoming.1, received, Offer.heard, Except.toOption]
      · simp [incoming.2.1, unsupported, Offer.complaint]
      · simp [incoming.2.2, corrupt, Offer.complaint]
      · simp [format', Offer.heard, Except.toOption]
      · simp [slot.buffer.push_lastValid, Offer.heard, Except.toOption]
      · simp [Offer.complaint]
    | error reason =>
      have applied : Entry.apply slot (.received d now generation) = { slot with
          buffer := { slot.buffer with counters := if Slot.unsupported reason then
              { slot.buffer.counters with unsupported := slot.buffer.counters.unsupported + 1 }
            else { slot.buffer.counters with corrupt := slot.buffer.counters.corrupt + 1 } }
          error := describe reason
          warningTime :=
            if now ≥ slot.warningTime then now + 5000000000 else slot.warningTime } := by
        simp only [Entry.apply, Slot.receive, decoded]
      rw [applied]
      refine ⟨?_, ?_, ?_, ?_, ?_, ?_⟩
      · split <;> simp [received, Offer.heard, Except.toOption]
      · cases kind : Slot.unsupported reason <;> simp [unsupported, Offer.complaint, kind]
      · cases kind : Slot.unsupported reason <;> simp [corrupt, Offer.complaint, kind]
      · simp [format, Offer.heard, Except.toOption]
      · simp [lastValid, Offer.heard, Except.toOption]
      · simp [Offer.complaint]

theorem records_foldl {slot : Slot} (empty : Records [] slot) (log : List Entry) :
    Records (offered log) (log.foldl Entry.apply slot) := by
  induction log using List.reverseRecOn with
  | nil => exact empty
  | append_singleton front entry ih =>
    rw [List.foldl_append]
    exact ih.apply entry

/-- The last offer was a packet less than a second ago. -/
def Fresh (offers : List Offer) (now : UInt64) : Prop :=
  ∃ packet time, offers.getLast? = some (.ok packet, time) ∧ time ≠ 0 ∧ now - time < 1000000000

theorem describe_ne (error : ParseError) : describe error ≠ "" := by
  cases error <;> decide

/-- The slot has no error and a young packet exactly if its last offer was one. -/
theorem Records.fresh_iff {offers : List Offer} {slot : Slot}
    (records : Records offers slot) (now : UInt64) :
    Fresh offers now ↔ slot.error = "" ∧ slot.buffer.lastValid ≠ 0 ∧
      now - slot.buffer.lastValid < 1000000000 := by
  obtain ⟨_, _, _, _, lastValid, error⟩ := records
  cases offers using List.reverseRecOn with
  | nil =>
    simp only [List.filterMap_nil, List.getLast?_nil, Option.map_none, Option.getD_none]
      at lastValid
    simp [Fresh, lastValid]
  | append_singleton front last =>
    obtain ⟨decoded, time⟩ := last
    cases decoded with
    | ok packet =>
      simp [Offer.heard, Except.toOption, Offer.complaint] at lastValid error
      simp [Fresh, lastValid, error]
    | error reason =>
      simp [Offer.complaint] at error
      simp [Fresh, error, describe_ne]

/-- Under every interleaving of the receiver's threads with its reconfiguration, what is said of a
slot is what was offered to it since its last change. The datagrams are counted, each once, as
packets, as unsupported or as corrupt. The slot is said to be receiving exactly if it is on, no
thread has ended and the last datagram offered was a packet of the last second, and to have an
error exactly if a thread has ended or the last datagram was refused. -/
theorem status_truthful {parse : Parse} {s : Receiver}
    (reached : Reachable (Receiver.step parse) {} s) (i : Fin slotCount) (fatalError : String)
    (now : UInt64) :
    let offers := offered (s.history.log i)
    let status := s.status fatalError now i
    let enabled := (s.routing.config.slots i).enabled
    (status.counters.received = (offers.filterMap Offer.heard).length ∧
      status.counters.unsupported = (offers.filterMap Offer.complaint).countP Slot.unsupported ∧
      status.counters.corrupt =
        (offers.filterMap Offer.complaint).countP fun error => !Slot.unsupported error) ∧
    status.format =
      ((offers.filterMap Offer.heard).getLast?.map fun last => last.1.format).getD {} ∧
    (status.state = .disabled ↔ enabled = false) ∧
    (status.state = .receiving ↔ enabled = true ∧ fatalError = "" ∧ Fresh offers now) ∧
    (status.state = .error ↔
      enabled = true ∧ (fatalError ≠ "" ∨ (offers.getLast?.bind Offer.complaint).isSome = true)) ∧
    (enabled = true → status.error = if fatalError = "" then
      ((offers.getLast?.bind Offer.complaint).map describe).getD "" else fatalError) := by
  have inv := Receiver.invariant_reachable reached
  have records : Records (offered (s.history.log i)) (s.slots i) := by
    obtain ⟨slot, origin⟩ := inv.origin i
    rw [inv.replay i, origin]
    exact records_foldl (records_reset slot) _
  have fresh := records.fresh_iff now
  have wrong : (s.slots i).error ≠ "" ↔
      ((offered (s.history.log i)).getLast?.bind Offer.complaint).isSome = true := by
    rw [records.error]
    cases (offered (s.history.log i)).getLast?.bind Offer.complaint with
    | none => simp
    | some reason => simp [describe_ne]
  dsimp only
  rw [Receiver.status, dif_pos i.isLt]
  dsimp only
  cases enabled : (s.routing.config.slots i).enabled with
  | false =>
    rw [if_pos rfl]
    refine ⟨⟨records.received, records.unsupported, records.corrupt⟩, records.format, ?_⟩
    simp
  | true =>
    simp only [Bool.true_eq_false, if_false]
    refine ⟨⟨records.received, records.unsupported, records.corrupt⟩, records.format, ?_⟩
    by_cases running : fatalError = ""
    · subst running
      rw [← wrong, fresh, ← records.error]
      by_cases sound : (s.slots i).error = ""
      · by_cases young : (s.slots i).buffer.lastValid ≠ 0 ∧
          now - (s.slots i).buffer.lastValid < 1000000000
        · simp [sound, young.1, young.2]
        · simp [sound, young]
      · simp [sound]
    · simp [running]

/-- The status of the first slot after one datagram for it. -/
theorem status_truthful_burst : ∃ s, Reachable (Receiver.step twoSenders) {} s ∧
    (s.status "" 2000 0).state = .receiving ∧ Fresh (offered (s.history.log 0)) 2000 := by
  have ran : (run (Receiver.step twoSenders) {} (applied (listening "10.0.0.1") ++ received)).any
      (fun s => (s.status "" 2000 0).state == .receiving) = true := by decide +kernel
  obtain ⟨s, success, receiving⟩ := (Option.any_eq_true _ _).mp ran
  have reached : Reachable (Receiver.step twoSenders) {} s := ⟨_, success⟩
  have shown := (status_truthful reached 0 "" 2000).2.2.2.1
  exact ⟨s, reached, beq_iff_eq.mp receiving, (shown.mp (beq_iff_eq.mp receiving)).2.2⟩

end VbanStream
