import VbanStream.Return.EpochFence
import VbanStream.Library.Observe

/-! The worker's loop in `run`: it follows the clock of the output by packets, a latency behind,
and starts its cursor anew when it cannot follow. -/

namespace VbanStream

open Library

/-- What `run` reads of a tap at the start of a turn. -/
structure TapHint where
  monitored : Bool
  removed : Bool
  syncHint : Int

/-- What a turn of `run` reads before its packets. Without an output there is no format. -/
structure TurnInputs where
  now : UInt64
  info : Option UInt32
  enabled : Bool
  bufferMs : UInt32
  live : List TapHint

namespace TurnInputs

def rate (inputs : TurnInputs) : UInt32 := inputs.info.getD 48000

def current (inputs : TurnInputs) : Int := nsToFrames inputs.now.toInt64.toInt inputs.rate

/-- The earliest sync offset of a source that is monitored. -/
def lookbehindNs (inputs : TurnInputs) : Int :=
  inputs.live.foldl (fun most tap =>
    if tap.monitored = true ∧ tap.removed = false then max most (-tap.syncHint) else most) 0

def latencyNs (inputs : TurnInputs) : Int :=
  inputs.bufferMs.toNat * 1000000 + inputs.lookbehindNs

def latency (inputs : TurnInputs) : Int := nsToFrames inputs.latencyNs inputs.rate

def target (inputs : TurnInputs) : Int := inputs.current - inputs.latency

end TurnInputs

/-- A turn that is going on: what its packets are made with, and how many there were. -/
structure WorkerTurn where
  enabled : Bool
  lookbehindNs : Int
  target : Int
  count : Nat := 0

/-- The variables of `run`. -/
structure MonitorWorker where
  rate : UInt32 := 0
  cursor : Int := 0
  previousLatencyNs : Int := 0
  turn : Option WorkerTurn := none

/-- The steps of `run`. -/
inductive WorkerLabel where
  | wake (inputs : TurnInputs)
  | packet
  | sleep

/-- What the worker does to all taps: `reset_audio`, or `service` with a packet. -/
inductive WorkerMark where
  | restart (cursor : Int) (rate : UInt32)
  | packet (call : ServiceCall)
deriving DecidableEq

namespace MonitorWorker

/-- Whether the cursor starts anew: another rate or latency, no cursor yet, or a second behind. -/
def Restarts (worker : MonitorWorker) (inputs : TurnInputs) : Prop :=
  worker.rate ≠ inputs.rate ∨ worker.previousLatencyNs ≠ inputs.latencyNs ∨ worker.cursor = 0 ∨
    inputs.current - worker.cursor > inputs.latency + inputs.rate.toNat

instance (worker : MonitorWorker) (inputs : TurnInputs) : Decidable (worker.Restarts inputs) :=
  inferInstanceAs (Decidable (_ ∨ _))

/-- A packet is due, and the turn has had fewer than 32. -/
def Due (cursor : Int) (turn : WorkerTurn) : Prop :=
  cursor + returnFrames ≤ turn.target ∧ turn.count < 32

instance (cursor : Int) (turn : WorkerTurn) : Decidable (Due cursor turn) :=
  inferInstanceAs (Decidable (_ ∧ _))

def step (worker : MonitorWorker) : WorkerLabel → Option MonitorWorker
  | .wake inputs =>
    match worker.turn with
    | some _ => none
    | none =>
      some {
        rate := inputs.rate
        cursor := if worker.Restarts inputs then inputs.target else worker.cursor
        previousLatencyNs := inputs.latencyNs
        turn := some ⟨inputs.enabled, inputs.lookbehindNs, inputs.target, 0⟩ }
  | .packet =>
    worker.turn.bind fun turn =>
      if Due worker.cursor turn then
        some { worker with
          cursor := worker.cursor + returnFrames
          turn := some { turn with count := turn.count + 1 } }
      else none
  | .sleep =>
    worker.turn.bind fun turn =>
      if Due worker.cursor turn then none else some { worker with turn := none }

/-- What the taps see of a step. -/
def marks (worker : MonitorWorker) : WorkerLabel → List WorkerMark
  | .wake inputs => if worker.Restarts inputs then [.restart inputs.target inputs.rate] else []
  | .packet =>
    worker.turn.toList.map fun turn =>
      .packet ⟨turn.enabled, worker.rate, worker.cursor, turn.lookbehindNs⟩
  | .sleep => []

/-- How long a turn waits at its end, in nanoseconds. -/
def remaining (worker : MonitorWorker) (turn : WorkerTurn) : Int :=
  max 100000 (((worker.cursor + returnFrames - turn.target) * 1000000000).tdiv worker.rate.toNat)

section Joined

/-- A packet starts where the packet before it has ended, or where the cursor was set. -/
def Follows : WorkerMark → WorkerMark → Prop
  | .restart cursor rate, .packet call => call.cursor = cursor ∧ call.rate = rate
  | .packet before, .packet call =>
    call.cursor = before.cursor + returnFrames ∧ call.rate = before.rate
  | _, .restart .. => True

/-- Where the worker stands after a mark. -/
def After (worker : MonitorWorker) : WorkerMark → Prop
  | .restart cursor rate => worker.cursor = cursor ∧ worker.rate = rate
  | .packet call => worker.cursor = call.cursor + returnFrames ∧ worker.rate = call.rate

/-- The marks so far, and the worker after the last of them. -/
structure Joined (seen : List WorkerMark) (worker : MonitorWorker) : Prop where
  follows : seen.IsChain Follows
  first : ∀ mark ∈ seen.head?, ∃ cursor rate, mark = .restart cursor rate
  last : ∀ mark ∈ seen.getLast?, worker.After mark
  unmarked : seen = [] → worker.cursor = 0 ∧ worker.turn = none

variable {worker next : MonitorWorker} {seen : List WorkerMark} {mark : WorkerMark}

/-- A mark that follows, and that the worker then stands after. -/
theorem Joined.add (joined : Joined seen worker)
    (follows : ∀ last ∈ seen.getLast?, Follows last mark)
    (first : seen = [] → ∃ cursor rate, mark = .restart cursor rate) (after : next.After mark) :
    Joined (seen ++ [mark]) next where
  follows := by
    refine joined.follows.append (List.isChain_singleton mark) ?_
    intro last final other head
    cases Option.mem_some_iff.mp head
    exact follows last final
  first := by
    intro head member
    cases seen with
    | nil =>
      cases Option.mem_some_iff.mp member
      exact first rfl
    | cons => exact joined.first head member
  last := by
    intro last final
    rw [List.getLast?_concat] at final
    cases Option.mem_some_iff.mp final
    exact after
  unmarked := by simp

/-- A step without a mark leaves the cursor and the rate as they are. -/
theorem Joined.keep (joined : Joined seen worker) (cursor : next.cursor = worker.cursor)
    (rate : next.rate = worker.rate) (unmarked : seen = [] → next.turn = none) :
    Joined seen next where
  follows := joined.follows
  first := joined.first
  last := by
    intro mark final
    have after := joined.last mark final
    cases mark with
    | restart => exact ⟨cursor.trans after.1, rate.trans after.2⟩
    | packet => exact ⟨cursor.trans after.1, rate.trans after.2⟩
  unmarked none := ⟨cursor.trans (joined.unmarked none).1, unmarked none⟩

theorem Joined.step (joined : Joined seen worker) {label : WorkerLabel}
    (taken : worker.step label = some next) : Joined (seen ++ worker.marks label) next := by
  cases label with
  | wake inputs =>
    cases asleep : worker.turn with
    | some turn => simp [MonitorWorker.step, asleep] at taken
    | none =>
      simp only [MonitorWorker.step, asleep, Option.some.injEq] at taken
      subst taken
      by_cases restarts : worker.Restarts inputs
      · rw [marks, if_pos restarts]
        refine joined.add ?_ (fun _ => ⟨_, _, rfl⟩) ?_
        · intro last _
          cases last <;> trivial
        · exact ⟨if_pos restarts, rfl⟩
      · rw [marks, if_neg restarts, List.append_nil]
        obtain ⟨rate, -, set, -⟩ := by simpa only [Restarts, not_or] using restarts
        refine joined.keep (if_neg restarts) (not_not.mp rate).symm ?_
        intro none
        exact absurd (joined.unmarked none).1 set
  | packet =>
    cases awake : worker.turn with
    | none => simp [MonitorWorker.step, awake] at taken
    | some turn =>
      simp only [MonitorWorker.step, awake, Option.bind_some, Option.ite_none_right_eq_some,
        Option.some.injEq] at taken
      obtain ⟨_, rfl⟩ := taken
      rw [marks, awake]
      refine joined.add ?_ ?_ ⟨rfl, rfl⟩
      · intro last final
        have after := joined.last last final
        cases last with
        | restart => exact after
        | packet => exact after
      · intro none
        simp [(joined.unmarked none).2] at awake
  | sleep =>
    cases awake : worker.turn with
    | none => simp [MonitorWorker.step, awake] at taken
    | some turn =>
      simp only [MonitorWorker.step, awake, Option.bind_some, Option.ite_none_left_eq_some,
        Option.some.injEq] at taken
      obtain ⟨_, rfl⟩ := taken
      rw [marks, List.append_nil]
      exact joined.keep rfl rfl fun _ => rfl

/-- In every run the packets between two restarts lie end to end at one rate, and nothing is sent
before the first restart. -/
theorem packets_joined {labels : List WorkerLabel} {final : MonitorWorker}
    (success : run MonitorWorker.step {} labels = some final) :
    (observed MonitorWorker.step marks {} labels).IsChain Follows ∧
      ∀ mark ∈ (observed MonitorWorker.step marks {} labels).head?,
        ∃ cursor rate, mark = .restart cursor rate := by
  have joined : Joined (observed MonitorWorker.step marks {} labels) final := by
    refine run_history (fun labels worker =>
      Joined (observed MonitorWorker.step marks {} labels) worker) ?_ ?_ success
    · exact ⟨.nil, nofun, nofun, fun _ => ⟨rfl, rfl⟩⟩
    · intro labels worker label next reached joined taken
      rw [observed_append reached, observed_cons taken, observed, List.append_nil]
      exact joined.step taken
  exact ⟨joined.follows, joined.first⟩

/-- A turn that only restarts, and a second one 10 ms later that makes two packets. -/
theorem packets_joined_second_turn :
    let turn : UInt64 → TurnInputs := fun now => ⟨now, none, true, 50, [⟨true, false, 0⟩]⟩
    let labels : List WorkerLabel := [.wake (turn 10000000000), .sleep, .wake (turn 10010000000),
      .packet, .packet]
    (observed MonitorWorker.step marks {} labels).IsChain Follows ∧
      ∀ mark ∈ (observed MonitorWorker.step marks {} labels).head?,
        ∃ cursor rate, mark = .restart cursor rate := by
  intro turn labels
  have ran : (run MonitorWorker.step {} labels).isSome = true := by decide +kernel
  obtain ⟨final, success⟩ := Option.isSome_iff_exists.mp ran
  exact packets_joined success

end Joined

section Paced

/-- The inputs of the turns, in order. -/
def wakes (labels : List WorkerLabel) : List TurnInputs :=
  labels.filterMap fun
    | .wake inputs => some inputs
    | _ => none

/-- The next turn at the same rate and latency, at most 32 packets later. -/
structure Punctual (earlier later : TurnInputs) : Prop where
  rate : later.rate = earlier.rate
  latencyNs : later.latencyNs = earlier.latencyNs
  forward : earlier.current ≤ later.current
  soon : later.current ≤ earlier.current + 4096

/-- The worker after the turns up to `last`, with the packets it has served since `start`. In a
turn it owes no more than what the turn can still make. -/
structure Paced (start : Int) (last : TurnInputs) (calls : List ServiceCall)
    (worker : MonitorWorker) : Prop where
  rate : worker.rate = last.rate
  latencyNs : worker.previousLatencyNs = last.latencyNs
  cursor : worker.cursor = start + calls.length * 128
  served : calls.map ServiceCall.cursor =
    (List.range calls.length).map fun (i : Nat) => start + i * 128
  reached : worker.cursor ≤ last.target
  awake : ∀ turn, worker.turn = some turn →
    turn.target = last.target ∧ turn.count * 128 + (last.target - worker.cursor) < 33 * 128
  asleep : worker.turn = none → last.target - worker.cursor < 128

variable {worker next : MonitorWorker} {start : Int} {first last inputs : TurnInputs}
  {calls : List ServiceCall}

theorem Punctual.target (punctual : Punctual last inputs) :
    last.target ≤ inputs.target ∧ inputs.target ≤ last.target + 4096 := by
  have same : inputs.latency = last.latency := by
    rw [TurnInputs.latency, TurnInputs.latency, punctual.rate, punctual.latencyNs]
  have forward := punctual.forward
  have soon := punctual.soon
  simp only [TurnInputs.target, same]
  omega

theorem Paced.continues (paced : Paced start last calls worker) (asleep : worker.turn = none)
    (punctual : Punctual last inputs) (running : 0 < start) (fast : 4223 ≤ inputs.rate.toNat) :
    ¬ worker.Restarts inputs := by
  obtain ⟨_, late⟩ := punctual.target
  have near := paced.asleep asleep
  have cursor := paced.cursor
  rintro (rate | latency | unset | behind)
  · exact rate (paced.rate.trans punctual.rate.symm)
  · exact latency (paced.latencyNs.trans punctual.latencyNs.symm)
  · omega
  · simp only [TurnInputs.target] at late near
    omega

theorem Paced.wake (paced : Paced start last calls worker) (asleep : worker.turn = none)
    (punctual : Punctual last inputs) (continues : ¬ worker.Restarts inputs)
    (taken : worker.step (.wake inputs) = some next) : Paced start inputs calls next := by
  obtain ⟨forward, soon⟩ := punctual.target
  have near := paced.asleep asleep
  have reached := paced.reached
  simp only [MonitorWorker.step, asleep, if_neg continues, Option.some.injEq] at taken
  subst taken
  refine ⟨rfl, rfl, paced.cursor, paced.served, reached.trans forward, ?_, nofun⟩
  intro turn here
  cases here
  exact ⟨rfl, by simp only; omega⟩

theorem Paced.packet (paced : Paced start last calls worker) {turn : WorkerTurn}
    (awake : worker.turn = some turn) (due : Due worker.cursor turn) :
    Paced start last
      (calls ++ [⟨turn.enabled, worker.rate, worker.cursor, turn.lookbehindNs⟩])
      { worker with
        cursor := worker.cursor + returnFrames
        turn := some { turn with count := turn.count + 1 } } := by
  obtain ⟨target, bounded⟩ := paced.awake turn awake
  have cursor := paced.cursor
  obtain ⟨room, few⟩ := due
  simp only [returnFrames, Nat.cast_ofNat] at room ⊢
  refine ⟨paced.rate, paced.latencyNs, ?_, ?_, ?_, ?_, nofun⟩
  · simp only [List.length_append, List.length_singleton, Nat.cast_add, Nat.cast_one]
    omega
  · rw [List.map_append, List.length_append, List.length_singleton, List.range_succ,
      List.map_append, paced.served, List.map_singleton, List.map_singleton, paced.cursor]
  · simp only
    omega
  · intro other here
    cases here
    refine ⟨target, ?_⟩
    simp only [Nat.cast_add, Nat.cast_one]
    omega

theorem Paced.sleep (paced : Paced start last calls worker) {turn : WorkerTurn}
    (awake : worker.turn = some turn) (done : ¬ Due worker.cursor turn) :
    Paced start last calls { worker with turn := none } := by
  obtain ⟨target, bounded⟩ := paced.awake turn awake
  refine ⟨paced.rate, paced.latencyNs, paced.cursor, paced.served, paced.reached, nofun, ?_⟩
  intro _
  simp only [Due, returnFrames, Nat.cast_ofNat, not_and_or, not_le, not_lt] at done
  simp only
  omega

theorem Paced.begin (worker : MonitorWorker) (asleep : worker.turn = none)
    (anew : worker.Restarts first) (taken : worker.step (.wake first) = some next) :
    Paced first.target first [] next := by
  simp only [MonitorWorker.step, asleep, if_pos anew, Option.some.injEq] at taken
  subst taken
  refine ⟨rfl, rfl, ?_, rfl, le_rfl, ?_, nofun⟩
  · simp
  · intro turn here
    cases here
    exact ⟨rfl, by simp⟩

/-- A step of a turn that is punctual makes no restart. -/
theorem Paced.step (paced : Paced start last calls worker) {label : WorkerLabel}
    (running : 0 < start) (fast : 4223 ≤ last.rate.toNat)
    (punctual : (last :: wakes [label]).IsChain Punctual)
    (taken : worker.step label = some next) :
    ∃ more : List ServiceCall, worker.marks label = more.map .packet ∧
      Paced start ((wakes [label]).getLastD last) (calls ++ more) next := by
  cases label with
  | wake inputs =>
    have near := List.isChain_pair.mp punctual
    cases asleep : worker.turn with
    | some turn => simp [MonitorWorker.step, asleep] at taken
    | none =>
      have continues := paced.continues asleep near running (near.rate ▸ fast)
      refine ⟨[], if_neg continues, ?_⟩
      rw [List.append_nil]
      exact paced.wake asleep near continues taken
  | packet =>
    cases awake : worker.turn with
    | none => simp [MonitorWorker.step, awake] at taken
    | some turn =>
      simp only [MonitorWorker.step, awake, Option.bind_some, Option.ite_none_right_eq_some,
        Option.some.injEq] at taken
      obtain ⟨due, rfl⟩ := taken
      refine ⟨[_], ?_, paced.packet awake due⟩
      rw [marks, awake]
      rfl
  | sleep =>
    cases awake : worker.turn with
    | none => simp [MonitorWorker.step, awake] at taken
    | some turn =>
      simp only [MonitorWorker.step, awake, Option.bind_some, Option.ite_none_left_eq_some,
        Option.some.injEq] at taken
      obtain ⟨done, rfl⟩ := taken
      refine ⟨[], rfl, ?_⟩
      rw [List.append_nil]
      exact paced.sleep awake done

theorem wakes_cons (label : WorkerLabel) (rest : List WorkerLabel) :
    wakes (label :: rest) = wakes [label] ++ wakes rest := by
  rw [wakes, wakes, wakes, ← List.filterMap_append, List.singleton_append]

theorem Paced.run {labels : List WorkerLabel} {final : MonitorWorker}
    (paced : Paced start last calls worker) (running : 0 < start) (fast : 4223 ≤ last.rate.toNat)
    (punctual : (last :: wakes labels).IsChain Punctual)
    (success : run MonitorWorker.step worker labels = some final) :
    ∃ more : List ServiceCall,
      observed MonitorWorker.step marks worker labels = more.map .packet ∧
      Paced start ((wakes labels).getLastD last) (calls ++ more) final := by
  induction labels generalizing worker last calls with
  | nil =>
    cases success
    exact ⟨[], rfl, by rwa [List.append_nil]⟩
  | cons label rest ih =>
    obtain ⟨next, taken, later⟩ := run_cons.mp success
    rw [wakes_cons] at punctual ⊢
    have onward : ((wakes [label]).getLastD last :: wakes rest).IsChain Punctual ∧
        4223 ≤ ((wakes [label]).getLastD last).rate.toNat := by
      cases label with
      | wake inputs =>
        obtain ⟨near, onward⟩ := List.isChain_cons_cons.mp punctual
        exact ⟨onward, near.rate ▸ fast⟩
      | packet => exact ⟨punctual, fast⟩
      | sleep => exact ⟨punctual, fast⟩
    rw [← List.cons_append] at punctual
    obtain ⟨more, seen, after⟩ := paced.step running fast punctual.left_of_append taken
    obtain ⟨others, seen', final⟩ := ih after onward.2 onward.1 later
    refine ⟨more ++ others, ?_, ?_⟩
    · rw [observed_cons taken, seen, seen', List.map_append]
    · rw [← List.append_assoc]
      cases label with
      | wake inputs =>
        rw [show wakes [.wake inputs] ++ wakes rest = inputs :: wakes rest from rfl,
          List.getLastD_cons]
        exact final
      | packet => exact final
      | sleep => exact final

/-- Turns that follow each other within 32 packets never start the cursor anew. Whatever the
turns were, the packets since the restart are those of the time that has passed. -/
theorem packets_paced {labels : List WorkerLabel} {final : MonitorWorker}
    (asleep : worker.turn = none) (anew : worker.Restarts first) (running : 0 < first.target)
    (fast : 4223 ≤ first.rate.toNat) (punctual : (first :: wakes labels).IsChain Punctual)
    (success : Library.run MonitorWorker.step worker (.wake first :: labels) = some final) :
    ∃ calls : List ServiceCall,
      observed MonitorWorker.step marks worker (.wake first :: labels) =
        .restart first.target first.rate :: calls.map .packet ∧
      calls.map ServiceCall.cursor =
        (List.range calls.length).map (fun (i : Nat) => first.target + i * 128) ∧
      first.target + calls.length * 128 ≤ ((wakes labels).getLastD first).target ∧
      (final.turn = none → (calls.length : Int) =
        (((wakes labels).getLastD first).target - first.target) / 128) := by
  obtain ⟨begun, taken, success⟩ := run_cons.mp success
  obtain ⟨calls, seen, after⟩ :=
    (Paced.begin worker asleep anew taken).run running fast punctual success
  rw [List.nil_append] at after
  have cursor := after.cursor
  have reached := after.reached
  refine ⟨calls, ?_, after.served, cursor ▸ reached, ?_⟩
  · rw [observed_cons taken, seen, marks, if_pos anew, List.singleton_append]
  · intro done
    have near := after.asleep done
    omega

/-- A turn at ten seconds, with 50 ms of buffer, and one ten milliseconds later. -/
theorem packets_paced_second_turn :
    let turn : UInt64 → TurnInputs := fun now => ⟨now, none, true, 50, [⟨true, false, 0⟩]⟩
    let labels : List WorkerLabel := [.sleep, .wake (turn 10010000000), .packet, .packet, .packet,
      .sleep]
    ∃ calls : List ServiceCall,
      observed MonitorWorker.step marks {} (.wake (turn 10000000000) :: labels) =
        .restart 477600 48000 :: calls.map .packet ∧ (calls.length : Int) = 480 / 128 := by
  intro turn labels
  have ran : (run MonitorWorker.step {} (.wake (turn 10000000000) :: labels)).map
      (fun final => final.turn.isNone) = some true := by
    decide +kernel
  obtain ⟨final, success, done⟩ := Option.map_eq_some_iff.mp ran
  have started : (turn 10000000000).target = 477600 := by decide +kernel
  have ended : ((wakes labels).getLastD (turn 10000000000)).target = 478080 := by decide +kernel
  have punctual : (turn 10000000000 :: wakes labels).IsChain Punctual :=
    List.isChain_pair.mpr ⟨rfl, rfl, by decide +kernel, by decide +kernel⟩
  obtain ⟨calls, seen, -, -, paced⟩ := @packets_paced {} _ _ _ rfl (.inl (by decide)) (by omega)
    (by decide) punctual success
  rw [started] at seen paced
  rw [ended] at paced
  exact ⟨calls, seen, paced (Option.isNone_iff_eq_none.mp done)⟩

end Paced

end MonitorWorker

end VbanStream
