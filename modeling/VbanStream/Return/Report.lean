import VbanStream.Return.Loopback

namespace VbanStream

open Library

/-- What becomes of a block at a return that is on. -/
inductive ReturnOutcome where
  | refused
  | failed (code : Int)
  | sent (now : Nat)
deriving DecidableEq, Repr

namespace ReturnOutcome

def state : ReturnOutcome → ReturnState
  | .refused | .failed _ => .error
  | .sent _ => .sending

def detail : ReturnOutcome → String
  | .refused => "Unsupported return sample rate or audio block size."
  | .failed code => "UDP send failed (Socket " ++ toString code ++ ")."
  | .sent _ => ""

def encoded : ReturnOutcome → Bool
  | .refused => false
  | .failed _ | .sent _ => true

def hasFailed : ReturnOutcome → Bool
  | .failed _ => true
  | .refused | .sent _ => false

def time : ReturnOutcome → Option Nat
  | .sent now => some now
  | .refused | .failed _ => none

end ReturnOutcome

/-- The times between sends that follow each other, in milliseconds. -/
def gapsBetween (times : List Nat) : List ℚ :=
  (times.zip times.tail).filterMap fun pair =>
    if pair.1 = 0 then none else some (((pair.2 : ℚ) - pair.1) / 1000000)

theorem gapsBetween_snoc (times : List Nat) (now : Nat) :
    gapsBetween (times ++ [now]) = gapsBetween times ++
      if times.getLast?.getD 0 = 0 then []
      else [((now : ℚ) - (times.getLast?.getD 0 : Nat)) / 1000000] := by
  induction times with
  | nil => rfl
  | cons first rest ih =>
    cases rest with
    | nil =>
      by_cases unset : first = 0 <;> simp [gapsBetween, unset]
    | cons second rest =>
      have step (others : List Nat) : gapsBetween (first :: second :: others) =
          (if first = 0 then none else some (((second : ℚ) - first) / 1000000)).toList ++
            gapsBetween (second :: others) := by
        by_cases unset : first = 0 <;> simp [gapsBetween, unset]
      rw [List.cons_append, List.cons_append, step, ← List.cons_append, ih, step,
        List.append_assoc, List.getLast?_cons_cons]

namespace Transmitter

/-- `send` with one block, for a return that is on. -/
def outcome (config : ReturnConfig) (i : Fin returnCount) (call : ReturnCall) : ReturnOutcome :=
  if Encodable call.rate call.frames config.pcmBits then
    match call.failure i with
    | some code => .failed code
    | none => .sent (call.now i)
  else .refused

/-- When blocks were sent. -/
def sendTimes (config : ReturnConfig) (i : Fin returnCount) (calls : List ReturnCall) : List Nat :=
  calls.filterMap fun call => (outcome config i call).time

/-- The blocks since the settings were applied. -/
def sinceActivation (operations : List Operation) : List ReturnCall :=
  operations.foldl (fun calls operation =>
    match operation with
    | .activate _ => []
    | .send call => calls ++ [call]) []

/-- The time of the last send, zero before the first. -/
def lastTime (config : ReturnConfig) (i : Fin returnCount) (calls : List ReturnCall) : Nat :=
  (sendTimes config i calls).getLast?.getD 0

/-- The blocks that were handed to the socket. -/
def encodedCalls (config : ReturnConfig) (i : Fin returnCount) (calls : List ReturnCall) :
    List ReturnCall := calls.filter fun call => (outcome config i call).encoded

/-- The blocks that were sent. -/
def sentCalls (config : ReturnConfig) (i : Fin returnCount) (calls : List ReturnCall) :
    List ReturnCall := calls.filter fun call => (outcome config i call).time.isSome

/-- The attempts that failed. -/
def failures (config : ReturnConfig) (i : Fin returnCount) (calls : List ReturnCall) : Nat :=
  calls.countP fun call => (outcome config i call).hasFailed

/-- The status of a return that is on, from what became of these blocks. -/
def report (d : ReturnDestination) (i : Fin returnCount) (calls : List ReturnCall) :
    ReturnStatus :=
  let gaps := gapsBetween (sendTimes d.config i calls)
  { state := (calls.getLast?.map fun call => (outcome d.config i call).state).getD .ready
    detail := (calls.getLast?.map fun call => (outcome d.config i call).detail).getD ""
    packets := (sentCalls d.config i calls).length
    errors := failures d.config i calls
    silence := ((sentCalls d.config i calls).getLast?.map silent).getD true
    clippedSamples := ((encodedCalls d.config i calls).map clipped).sum
    nonfiniteSamples := ((encodedCalls d.config i calls).map nonfinite).sum
    sendGaps := gaps.countP fun gap => gap > 20
    maxSendGapMs := gaps.foldl max 0
    pcmBits := d.config.pcmBits
    sourceIp := d.endpoint.1
    sourcePort := d.endpoint.2
    destinationIp := d.config.destinationIp
    destinationPort := d.config.destinationPort
    streamName := d.config.streamName }

/-- `status`, with the age of the last send in milliseconds beside it. -/
def shown (s : Transmitter) (now : Nat) (index : Nat) : ReturnStatus × ℚ :=
  if bound : index < returnCount then
    let i : Fin returnCount := ⟨index, bound⟩
    let result := s.status i
    if s.lastSend i ≠ 0 then
      let age : ℚ := ((now : ℚ) - s.lastSend i) / 1000000
      if result.state = .sending ∧ age > 1000 then
        ({ result with
          state := .stalled
          detail := "No UDP packet sent for more than one second." }, age)
      else (result, age)
    else (result, 0)
  else ({}, 0)

section Sending

variable {call : ReturnCall} {s : Transmitter} {packets : Packets} {i : Fin returnCount}

theorem record_status (s : Transmitter) (call : ReturnCall) {i j : Fin returnCount}
    (apart : i ≠ j) :
    (s.record call i).status j = s.status j ∧ (s.record call i).lastSend j = s.lastSend j := by
  unfold record
  dsimp only
  split <;> simp [apart.symm]

theorem sendTo_apart (routing : ReturnRouting) {j : Fin returnCount} (apart : j ≠ i) :
    (sendTo call routing (s, packets) j).1.status i = s.status i ∧
      (sendTo call routing (s, packets) j).1.lastSend i = s.lastSend i := by
  unfold sendTo
  dsimp only
  split
  · exact ⟨rfl, rfl⟩
  · split
    · simp [apart.symm]
    · obtain ⟨status, lastSend⟩ := record_status _ call apart
      rw [status, lastSend]
      simp [apart.symm]

section Snoc

variable (config : ReturnConfig) (i : Fin returnCount) (calls : List ReturnCall)
  (call : ReturnCall)

theorem sendTimes_snoc : sendTimes config i (calls ++ [call]) =
    sendTimes config i calls ++ (outcome config i call).time.toList := by
  rw [sendTimes, sendTimes, List.filterMap_append]
  cases said : (outcome config i call).time <;> simp [said]

theorem encodedCalls_snoc : encodedCalls config i (calls ++ [call]) =
    encodedCalls config i calls ++ if (outcome config i call).encoded then [call] else [] := by
  rw [encodedCalls, encodedCalls, List.filter_append]
  cases said : (outcome config i call).encoded <;> simp [said]

theorem sentCalls_snoc : sentCalls config i (calls ++ [call]) =
    sentCalls config i calls ++
      if (outcome config i call).time.isSome then [call] else [] := by
  rw [sentCalls, sentCalls, List.filter_append]
  cases said : (outcome config i call).time.isSome <;> simp [said]

theorem failures_snoc : failures config i (calls ++ [call]) =
    failures config i calls + if (outcome config i call).hasFailed then 1 else 0 := by
  rw [failures, failures, List.countP_append]
  cases said : (outcome config i call).hasFailed <;> simp [said]

end Snoc

variable {d : ReturnDestination} (calls : List ReturnCall)

/-- A block that cannot be encoded changes the state and its text. -/
theorem report_refused (refused : outcome d.config i call = .refused) :
    report d i (calls ++ [call]) = { report d i calls with
        state := .error
        detail := "Unsupported return sample rate or audio block size." } ∧
      lastTime d.config i (calls ++ [call]) = lastTime d.config i calls := by
  have times : sendTimes d.config i (calls ++ [call]) = sendTimes d.config i calls := by
    rw [sendTimes_snoc, refused]
    exact List.append_nil _
  refine ⟨?_, by rw [lastTime, times, lastTime]⟩
  rw [report, times, encodedCalls_snoc, sentCalls_snoc, failures_snoc, List.getLast?_concat,
    Option.map_some, Option.map_some, refused]
  simp only [ReturnOutcome.encoded, ReturnOutcome.time, ReturnOutcome.hasFailed,
    Bool.false_eq_true, Option.isSome_none, if_false, List.append_nil, Nat.add_zero]
  rfl

/-- So does a failed attempt, which is counted, with the samples of its block. -/
theorem report_failed {code : Int} (failed : outcome d.config i call = .failed code) :
    report d i (calls ++ [call]) = { report d i calls with
        clippedSamples := (report d i calls).clippedSamples + clipped call
        nonfiniteSamples := (report d i calls).nonfiniteSamples + nonfinite call
        errors := (report d i calls).errors + 1
        state := .error
        detail := "UDP send failed (Socket " ++ toString code ++ ")." } ∧
      lastTime d.config i (calls ++ [call]) = lastTime d.config i calls := by
  have times : sendTimes d.config i (calls ++ [call]) = sendTimes d.config i calls := by
    rw [sendTimes_snoc, failed]
    exact List.append_nil _
  refine ⟨?_, by rw [lastTime, times, lastTime]⟩
  rw [report, times, encodedCalls_snoc, sentCalls_snoc, failures_snoc, List.getLast?_concat,
    Option.map_some, Option.map_some, failed]
  simp only [ReturnOutcome.encoded, ReturnOutcome.time, ReturnOutcome.hasFailed,
    Bool.false_eq_true, Option.isSome_none, if_false, if_true, List.append_nil, List.map_append,
    List.sum_append, List.map_singleton, List.sum_singleton]
  rfl

/-- A datagram that is sent is measured against the one before. -/
theorem report_sent {now : Nat} (sent : outcome d.config i call = .sent now) :
    let gap : ℚ := ((now : ℚ) - lastTime d.config i calls) / 1000000
    let before := report d i calls
    report d i (calls ++ [call]) = { before with
        clippedSamples := before.clippedSamples + clipped call
        nonfiniteSamples := before.nonfiniteSamples + nonfinite call
        maxSendGapMs := if lastTime d.config i calls ≠ 0 then max before.maxSendGapMs gap
          else before.maxSendGapMs
        sendGaps := if lastTime d.config i calls ≠ 0 ∧ gap > 20 then before.sendGaps + 1
          else before.sendGaps
        packets := before.packets + 1
        state := .sending
        silence := silent call
        detail := "" } ∧
      lastTime d.config i (calls ++ [call]) = now := by
  intro gap before
  have times : sendTimes d.config i (calls ++ [call]) = sendTimes d.config i calls ++ [now] := by
    rw [sendTimes_snoc, sent]
    rfl
  refine ⟨?_, by rw [lastTime, times, List.getLast?_concat]; rfl⟩
  have gaps := gapsBetween_snoc (sendTimes d.config i calls) now
  rw [← lastTime] at gaps
  rw [report, times, gaps, encodedCalls_snoc, sentCalls_snoc, failures_snoc, List.getLast?_concat,
    Option.map_some, Option.map_some, sent]
  simp only [ReturnOutcome.encoded, ReturnOutcome.time, ReturnOutcome.hasFailed,
    Bool.false_eq_true, Option.isSome_some, if_false, if_true, List.map_append, Nat.add_zero,
    List.sum_append, List.map_singleton, List.sum_singleton, List.length_append,
    List.length_singleton, List.getLast?_concat, Option.map_some]
  by_cases first : lastTime d.config i calls = 0
  · rw [if_pos first, List.append_nil, if_neg (by simp [first]), if_neg (by simp [first])]
    rfl
  · rw [if_neg first, if_pos first, List.countP_append, List.foldl_append]
    by_cases long : gap > 20
    · rw [if_pos ⟨first, long⟩, List.countP_singleton, if_pos (by simpa using long)]
      rfl
    · rw [if_neg (fun both => long both.2), List.countP_singleton, if_neg (by simpa using long)]
      rfl

variable {calls}

/-- A return whose status and time of the last send tell what became of these blocks. -/
def Tells (s : Transmitter) (d : ReturnDestination) (i : Fin returnCount)
    (calls : List ReturnCall) : Prop :=
  s.status i = report d i calls ∧ s.lastSend i = lastTime d.config i calls

/-- An attempt to send, after its samples have been counted. -/
theorem Tells.record (tells : s.Tells d i calls)
    (encodable : Encodable call.rate call.frames d.config.pcmBits) {counted : Transmitter}
    (times : counted.lastSend = s.lastSend)
    (statuses : counted.status = Function.update s.status i { s.status i with
      clippedSamples := (s.status i).clippedSamples + clipped call
      nonfiniteSamples := (s.status i).nonfiniteSamples + nonfinite call }) :
    (counted.record call i).Tells d i (calls ++ [call]) := by
  obtain ⟨status, last⟩ := tells
  rw [status] at statuses
  cases failure : call.failure i with
  | some code =>
    have failed : outcome d.config i call = .failed code := by
      rw [outcome, if_pos encodable, failure]
    obtain ⟨shown, time⟩ := report_failed calls failed
    rw [Tells, shown, time, Transmitter.record, failure, times, statuses]
    dsimp only
    rw [Function.update_self, Function.update_self]
    exact ⟨rfl, last⟩
  | none =>
    have sent : outcome d.config i call = .sent (call.now i) := by
      rw [outcome, if_pos encodable, failure]
    obtain ⟨shown, time⟩ := report_sent calls sent
    rw [Tells, shown, time, Transmitter.record, failure, times, statuses]
    dsimp only
    rw [Function.update_self, Function.update_self, Function.update_self, last]
    refine ⟨?_, rfl⟩
    by_cases first : lastTime d.config i calls = 0
    · rw [if_neg (not_not.mpr first), if_neg (not_not.mpr first),
        if_neg (fun both => both.1 first)]
    · rw [if_pos first, if_pos first]
      by_cases long : ((call.now i : ℚ) - lastTime d.config i calls) / 1000000 > 20
      · rw [if_pos long, if_pos ⟨first, long⟩]
      · rw [if_neg long, if_neg (fun both => long both.2)]

theorem Tells.sendTo (routing : ReturnRouting)
    (sound : ∀ format, PacketSound call.toReturnBlock format (packets format))
    (enabled : (routing i).val.config.enabled = true) (tells : s.Tells (routing i).val i calls) :
    (Transmitter.sendTo call routing (s, packets) i).1.Tells (routing i).val i
      (calls ++ [call]) := by
  obtain ⟨bits, _⟩ := (routing i).property
  have same : depth ((routing i).val.config.pcmBits == 16) = (routing i).val.config.pcmBits := by
    rcases bits with known | known <;> simp [known, depth]
  obtain ⟨_, empty⟩ := encodeOnce_sound (sound ((routing i).val.config.pcmBits == 16))
  rw [same] at empty
  rw [Transmitter.sendTo]
  dsimp only
  rw [if_neg (by simp [enabled])]
  by_cases refused : (encodeOnce call.toReturnBlock (routing i).val.config.pcmBits
      (packets ((routing i).val.config.pcmBits == 16))).2 = 0
  · rw [if_pos refused]
    have said : outcome (routing i).val.config i call = .refused := by
      rw [outcome, if_neg (empty.mp refused)]
    obtain ⟨shown, time⟩ := report_refused calls said
    rw [Tells, shown, time, ← tells.1, ← tells.2]
    dsimp only
    rw [Function.update_self]
    exact ⟨rfl, rfl⟩
  · rw [if_neg refused]
    have encodable : Encodable call.rate call.frames (routing i).val.config.pcmBits := by
      by_contra not
      exact refused (empty.mpr not)
    exact tells.record encodable rfl rfl

/-- The loop over some of the returns, for one that is on. -/
theorem Tells.loop (routing : ReturnRouting) {returns : List (Fin returnCount)}
    (distinct : returns.Nodup)
    (sound : ∀ format, PacketSound call.toReturnBlock format (packets format))
    (enabled : (routing i).val.config.enabled = true) (tells : s.Tells (routing i).val i calls) :
    (returns.foldl (Transmitter.sendTo call routing) (s, packets)).1.Tells (routing i).val i
      (if i ∈ returns then calls ++ [call] else calls) := by
  induction returns generalizing s packets calls with
  | nil => exact tells
  | cons j rest ih =>
    obtain ⟨absent, distinct⟩ := List.nodup_cons.mp distinct
    have turn := sendTo_turn routing s sound j
    rw [List.foldl_cons]
    by_cases here : j = i
    · subst here
      have later := ih distinct turn.packets (tells.sendTo routing sound enabled)
      rw [if_neg absent] at later
      rwa [if_pos List.mem_cons_self]
    · have apart : (Transmitter.sendTo call routing (s, packets) j).1.status i = s.status i ∧
          (Transmitter.sendTo call routing (s, packets) j).1.lastSend i = s.lastSend i :=
        sendTo_apart routing here
      obtain ⟨status, last⟩ := apart
      have later := ih distinct turn.packets ⟨status.trans tells.1, last.trans tells.2⟩
      have same : i ∈ j :: rest ↔ i ∈ rest := by simp [Ne.symm here]
      rwa [if_congr same rfl rfl]

theorem loop_off (routing : ReturnRouting) (returns : List (Fin returnCount))
    (off : (routing i).val.config.enabled = false) :
    (returns.foldl (Transmitter.sendTo call routing) (s, packets)).1.status i = s.status i := by
  induction returns generalizing s packets with
  | nil => rfl
  | cons j rest ih =>
    rw [List.foldl_cons]
    by_cases here : j = i
    · subst here
      have idle : Transmitter.sendTo call routing (s, packets) j = (s, packets) := by
        rw [Transmitter.sendTo]
        exact if_pos off
      rw [idle, ih]
    · have later := @ih (Transmitter.sendTo call routing (s, packets) j).1
        (Transmitter.sendTo call routing (s, packets) j).2
      exact later.trans (sendTo_apart routing here).1

end Sending

theorem sinceActivation_snoc (operations : List Operation) (call : ReturnCall) :
    sinceActivation (operations ++ [.send call]) = sinceActivation operations ++ [call] := by
  rw [sinceActivation, sinceActivation, List.foldl_append]
  rfl

/-- What each return that is on shows between two activations. -/
theorem after_tells (operations : List Operation) (i : Fin returnCount) {routing : ReturnRouting}
    (route : (after operations).routing = some routing)
    (enabled : (routing i).val.config.enabled = true) :
    (after operations).Tells (routing i).val i (sinceActivation operations) := by
  induction operations using List.reverseRecOn with
  | nil => cases route
  | append_singleton front operation ih =>
    rw [after, List.foldl_append, List.foldl_cons, List.foldl_nil, ← after] at route ⊢
    cases operation with
    | activate next =>
      have given : next = some routing := route
      subst given
      have fresh : sinceActivation (front ++ [.activate (some routing)]) = [] := by
        rw [sinceActivation, List.foldl_append]
        rfl
      rw [fresh]
      refine ⟨?_, rfl⟩
      simp only [perform, activate, enabled, if_true]
      rfl
    | send call =>
      rw [sinceActivation_snoc]
      change ((after front).send call).Tells _ i _
      change ((after front).send call).routing = some routing at route
      cases before : (after front).routing with
      | none =>
        rw [send, before] at route
        rw [before] at route
        cases route
      | some old =>
        rw [send, before, loop_routing, before] at route
        cases route
        have told := ih before
        have empty : ∀ format, PacketSound call.toReturnBlock format
            ((fun _ => (fun _ => 0, 0) : Packets) format) := fun _ => .inl rfl
        have looped := told.loop routing (List.nodup_finRange returnCount) empty enabled
        rw [if_pos (List.mem_finRange i)] at looped
        rw [send, before]
        exact looped

theorem after_off (operations : List Operation) (i : Fin returnCount) {routing : ReturnRouting}
    (route : (after operations).routing = some routing)
    (off : (routing i).val.config.enabled = false) :
    (after operations).status i = { pcmBits := (routing i).val.config.pcmBits } := by
  induction operations using List.reverseRecOn with
  | nil => cases route
  | append_singleton front operation ih =>
    rw [after, List.foldl_append, List.foldl_cons, List.foldl_nil, ← after] at route ⊢
    cases operation with
    | activate next =>
      have given : next = some routing := route
      subst given
      simp [perform, activate, off]
    | send call =>
      change ((after front).send call).status i = _
      change ((after front).send call).routing = some routing at route
      cases before : (after front).routing with
      | none =>
        rw [send, before] at route
        rw [before] at route
        cases route
      | some old =>
        rw [send, before, loop_routing, before] at route
        cases route
        rw [send, before, ← ih before]
        exact loop_off routing _ off

/-- A return is stalled when its last block was sent more than a second ago. -/
def Stalled (d : ReturnDestination) (i : Fin returnCount) (calls : List ReturnCall) (now : Nat) :
    Prop :=
  ∃ call last, calls.getLast? = some call ∧ outcome d.config i call = .sent last ∧ last ≠ 0 ∧
    ((now : ℚ) - last) / 1000000 > 1000

theorem shown_stalled (s : Transmitter) (now : Nat) (i : Fin returnCount)
    (told : (s.status i).state ≠ .stalled) :
    ((s.shown now i).1.state = .stalled ↔ s.lastSend i ≠ 0 ∧ (s.status i).state = .sending ∧
      ((now : ℚ) - s.lastSend i) / 1000000 > 1000) ∧
      ((s.shown now i).1.state ≠ .stalled → (s.shown now i).1 = s.status i) := by
  rw [shown, dif_pos i.isLt]
  dsimp only
  split
  · rename_i sent
    split
    · rename_i old
      exact ⟨iff_of_true rfl ⟨sent, old⟩, fun differs => absurd rfl differs⟩
    · rename_i young
      exact ⟨iff_of_false told fun all => young all.2, fun _ => rfl⟩
  · rename_i unsent
    exact ⟨iff_of_false told fun all => unsent all.1, fun _ => rfl⟩

theorem report_sending {d : ReturnDestination} {i : Fin returnCount} (calls : List ReturnCall)
    (now : Nat) :
    (lastTime d.config i calls ≠ 0 ∧ (report d i calls).state = .sending ∧
      ((now : ℚ) - lastTime d.config i calls) / 1000000 > 1000) ↔ Stalled d i calls now := by
  induction calls using List.reverseRecOn with
  | nil =>
    refine iff_of_false (fun all => by cases all.2.1) ?_
    rintro ⟨call, last, none, _⟩
    cases none
  | append_singleton front call =>
    rw [Stalled, List.getLast?_concat]
    cases fate : outcome d.config i call with
    | refused =>
      rw [(report_refused front fate).1]
      refine iff_of_false (fun all => by cases all.2.1) ?_
      rintro ⟨_, last, ⟨⟩, sent, _⟩
      cases fate.symm.trans sent
    | failed code =>
      rw [(report_failed front fate).1]
      refine iff_of_false (fun all => by cases all.2.1) ?_
      rintro ⟨_, last, ⟨⟩, sent, _⟩
      cases fate.symm.trans sent
    | sent time =>
      obtain ⟨told, last⟩ := report_sent front fate
      rw [told, last]
      constructor
      · rintro ⟨unset, _, old⟩
        exact ⟨call, time, rfl, fate, unset, old⟩
      · rintro ⟨_, other, ⟨⟩, sent, unset, old⟩
        cases fate.symm.trans sent
        exact ⟨unset, rfl, old⟩

theorem report_settled (d : ReturnDestination) (i : Fin returnCount) (calls : List ReturnCall) :
    (report d i calls).state ≠ .stalled := by
  simp only [report]
  cases calls.getLast? with
  | none => exact ReturnState.noConfusion
  | some call =>
    cases fate : outcome d.config i call <;> simp [fate, ReturnOutcome.state]

/-- The status of a return is exactly what became of its own blocks since the settings were
applied, whatever the other return does and however the sockets answer; it is shown so, or as
stalled when the last block was sent more than a second ago. -/
theorem return_status_truthful (operations : List Operation) (now : Nat) (i : Fin returnCount)
    {routing : ReturnRouting} (route : (after operations).routing = some routing) :
    let d := (routing i).val
    let calls := sinceActivation operations
    let told := (after operations).status i
    let shown := ((after operations).shown now i).1
    told = (if d.config.enabled then report d i calls else { pcmBits := d.config.pcmBits }) ∧
      (shown.state = .stalled ↔ d.config.enabled = true ∧ Stalled d i calls now) ∧
      (shown.state ≠ .stalled → shown = told) := by
  dsimp only
  cases enabled : (routing i).val.config.enabled with
  | true =>
    obtain ⟨told, last⟩ := after_tells operations i route enabled
    have settled : ((after operations).status i).state ≠ .stalled := told ▸ report_settled _ _ _
    obtain ⟨stalls, plain⟩ := shown_stalled (after operations) now i settled
    rw [told, last, report_sending] at stalls
    exact ⟨told, by simpa using stalls, plain⟩
  | false =>
    have off := after_off operations i route enabled
    have settled : ((after operations).status i).state ≠ .stalled := by
      rw [off]
      exact ReturnState.noConfusion
    obtain ⟨stalls, plain⟩ := shown_stalled (after operations) now i settled
    refine ⟨off, iff_of_false (fun stalled => ?_) (fun on => Bool.false_ne_true on.1), plain⟩
    have sending := (stalls.mp stalled).2.1
    rw [off] at sending
    cases sending

/-- Two blocks, 30 ms apart. -/
def lateSends : List Operation :=
  [.activate (some twinReturns), .send (lateCall 1000000), .send (lateCall 31000000)]
where
  lateCall (now : Nat) : ReturnCall :=
    { stereo := fun _ => some 2, frames := 1, rate := 48000, failure := fun _ => none
      now := fun _ => now }

theorem return_status_truthful_late :
    let i : Fin returnCount := ⟨0, returnCount_pos⟩
    ((after lateSends).status i).sendGaps = 1 ∧ ((after lateSends).status i).clippedSamples = 4 ∧
      ((after lateSends).shown 1031000001 i).1.state = .stalled := by
  have route : (after lateSends).routing = some twinReturns := rfl
  obtain ⟨told, stalls, _⟩ :=
    return_status_truthful lateSends 1031000001 ⟨0, returnCount_pos⟩ route
  dsimp only at told stalls ⊢
  rw [told, stalls]
  refine ⟨by decide +kernel, by decide +kernel, rfl, lateSends.lateCall 31000000, 31000000, rfl,
    by decide +kernel, by decide, ?_⟩
  norm_num

end Transmitter

end VbanStream
