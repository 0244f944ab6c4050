import VbanStream.Library.Observe
import VbanStream.Video.Ownership

namespace VbanStream.FrameSender.Session

open Library

/-- What happens to pictures at a step, as far as no counter says it. -/
inductive Fate where
  | admitted
  | repeated
  | abandoned
deriving DecidableEq, Repr

/-- The pictures that have to be accounted for. -/
def Fate.owed : Fate → Bool
  | .admitted | .repeated => true
  | .abandoned => false

/-- The capture passes all checks before the mutex. -/
def admits (s : Session) (rgba : Option Memory) (stride : UInt32) (timestamp : UInt64) : Bool :=
  rgba.isSome && s.output.config.enabled && !s.stop &&
    !(stride < UInt32.ofNat s.output.width * 4) && (s.paced timestamp).2

/-- A picture is admitted by `capture`; the cached image is sent once more in place of an
unchanged picture; and a stopping session gives up what it is about to queue or sends. -/
def fates (s : Session) : Label → List Fate
  | .capture rgba stride timestamp _ =>
    if s.admits rgba stride timestamp then [.admitted] else []
  | .work now _ =>
    match s.worker with
    | .unchanged _ =>
      if now - s.lastQueuedAt ≥ 1000000000 ∧ s.stop = false then [.repeated] else []
    | .deciding .. => if s.stop then [.abandoned] else []
    | _ => []
  | .transmit attempts threw =>
    match s.transmitter with
    | .sending frame =>
      let call := { config := s.output.config, encoded := frame.bytes, attempts }
      let transmission := (sendImage s.sequence call).2
      if threw = none ∧ transmission.error = none ∧ transmission.complete = false then
        [.abandoned]
      else []
    | _ => []
  | _ => []

/-- The pictures between `capture` and the encode worker. -/
def waiting (s : Session) : Nat :=
  match s.producer with
  | .copying .. => 1
  | .outside => s.pending.toList.length

/-- The pictures that the encode worker has in hand and has not counted yet. -/
def encoding (s : Session) : Nat :=
  match s.worker with
  | .comparing .. | .reading .. | .judging .. | .deciding .. | .queueing .. => 1
  | .waiting | .unchanged .. | .settling .. | .finished => 0

/-- The images that are being sent. -/
def sending (s : Session) : Nat :=
  match s.transmitter with
  | .sending _ => 1
  | .waiting | .finished => 0

def inFlight (s : Session) : Nat :=
  s.waiting + s.encoding + s.ready.toList.length + s.sending

/-- What has been counted, and what is on its way. -/
def worth (s : Session) : Nat := s.frames + s.dropped + s.unchanged + s.inFlight

/-- What the encode worker would give up if it found the session stopped. -/
def doubtful (worker : Worker) : Nat :=
  match worker with
  | .comparing .. | .reading .. | .judging .. | .deciding .. => 1
  | .waiting | .unchanged .. | .queueing .. | .settling .. | .finished => 0

/-- How many pictures may still be given up. -/
def givable (s : Session) : Nat := if s.stop then doubtful s.worker + s.sending else 2

/-- The transmit worker gives an image up only when it sees that the session stops. -/
def honest (s : Session) : Label → Bool
  | .transmit attempts _ =>
    match s.transmitter with
    | .sending frame => s.stop ||
      (List.range (fragmentCount frame.bytes)).all fun index => attempts index != .stopped
    | _ => true
  | _ => true

theorem inFlight_le (s : Session) : s.inFlight ≤ 4 := by
  have waiting : s.waiting ≤ 1 := by
    unfold Session.waiting
    split
    · exact le_rfl
    · cases s.pending <;> simp
  have encoding : s.encoding ≤ 1 := by
    unfold Session.encoding
    split <;> simp
  have sending : s.sending ≤ 1 := by
    unfold Session.sending
    split <;> simp
  have ready : s.ready.toList.length ≤ 1 := by cases s.ready <;> simp
  unfold inFlight
  omega

section Steps

variable {s next : Session} {events : List Event}

theorem outside_of_unlocked (unlocked : s.locked = false) : s.producer = .outside := by
  unfold locked at unlocked
  split at unlocked
  · assumption
  · cases unlocked

theorem worth_outside (outside : s.producer = .outside) :
    s.worth = s.frames + s.dropped + s.unchanged +
      (s.pending.toList.length + s.encoding + s.ready.toList.length + s.sending) := by
  rw [worth, inFlight, waiting, outside]

theorem replaceStale_worth (outside : s.producer = .outside) (rgba : Memory) (stride : UInt32) :
    (s.replaceStale rgba stride).worth = s.worth + 1 := by
  rw [worth_outside outside]
  cases pending : s.pending with
  | some index =>
    have copies : s.replaceStale rgba stride =
        { s.drop with producer := .copying index rgba stride 0 } := by
      simp [replaceStale, pending, vacant, drop]
    rw [copies, Option.toList_some, List.length_singleton]
    change s.frames + (s.dropped + 1) + s.unchanged +
      (1 + s.encoding + s.ready.toList.length + s.sending) = _
    omega
  | none =>
    rw [Option.toList_none, List.length_nil]
    cases free : s.vacant with
    | some index =>
      have copies : s.replaceStale rgba stride =
          { s with producer := .copying index rgba stride 0 } := by
        simp [replaceStale, pending, free]
      rw [copies]
      change s.frames + s.dropped + s.unchanged +
        (1 + s.encoding + s.ready.toList.length + s.sending) = _
      omega
    | none =>
      have drops : s.replaceStale rgba stride = s.drop := by simp [replaceStale, pending, free]
      have still : s.drop.producer = .outside := outside
      rw [drops, worth_outside still]
      change s.frames + (s.dropped + 1) + s.unchanged +
        (s.pending.toList.length + s.encoding + s.ready.toList.length + s.sending) = _
      rw [pending, Option.toList_none, List.length_nil]
      omega

theorem paced_worth (timestamp : UInt64) :
    (s.paced timestamp).1.worth = s.worth ∧ (s.paced timestamp).1.producer = s.producer := by
  unfold paced
  dsimp only
  generalize (if timestamp < s.previousTimestamp then 0 else s.nextTimestamp) = due
  split <;> exact ⟨rfl, rfl⟩

theorem drop_worth : s.drop.worth = s.worth + 1 := by
  change s.frames + (s.dropped + 1) + s.unchanged + s.inFlight = _
  rw [worth]
  omega

theorem capture_worth (outside : s.producer = .outside) (rgba : Option Memory) (stride : UInt32)
    (timestamp : UInt64) (owns : Bool) :
    (s.capture rgba stride timestamp owns).worth =
      s.worth + if s.admits rgba stride timestamp then 1 else 0 := by
  obtain ⟨same, kept⟩ := s.paced_worth timestamp
  cases rgba with
  | none => simp [capture, admits]
  | some rgba =>
    by_cases refused : s.output.config.enabled = false ∨ s.stop = true ∨
        stride < UInt32.ofNat s.output.width * 4
    · have unfit : s.admits (some rgba) stride timestamp = false := by
        rcases refused with off | stopped | narrow
        · simp [admits, off]
        · simp [admits, stopped]
        · simp [admits, narrow]
      rw [unfit, capture]
      simp only [if_pos refused, Bool.false_eq_true, if_false, Nat.add_zero]
    · have due : s.admits (some rgba) stride timestamp = (s.paced timestamp).2 := by
        simp only [not_or, Bool.not_eq_false, Bool.not_eq_true] at refused
        simp [admits, refused.1, refused.2.1, refused.2.2]
      rw [due, capture]
      dsimp only
      rw [if_neg refused]
      cases passes : (s.paced timestamp).2 with
      | false => simpa using same
      | true =>
        cases owns with
        | false => simpa using drop_worth.trans (congrArg (· + 1) same)
        | true =>
          simpa using (replaceStale_worth (kept.trans outside) rgba stride).trans
            (congrArg (· + 1) same)

theorem produce_worth {now : UInt64} (taken : s.produce now = some (next, events)) :
    next.worth = s.worth := by
  unfold produce at taken
  split at taken
  · cases taken
  · rename_i index rgba stride row copying
    have before : s.worth = s.frames + s.dropped + s.unchanged +
        (1 + s.encoding + s.ready.toList.length + s.sending) := by
      rw [worth, inFlight, waiting, copying]
    rw [before]
    split at taken
    · cases taken
      rfl
    · cases taken
      rfl

theorem worth_at (s : Session) (worker : Worker) :
    ({ s with worker } : Session).worth + s.encoding =
      s.worth + ({ s with worker } : Session).encoding := by
  have here : ({ s with worker } : Session).worth = s.frames + s.dropped + s.unchanged +
      (s.waiting + ({ s with worker } : Session).encoding + s.ready.toList.length +
        s.sending) := rfl
  rw [here, worth, inFlight]
  omega

theorem worth_kept {adaptiveQuality : Int} {worker : Worker} (busy : s.encoding = 1)
    (still : ({ s with adaptiveQuality, worker } : Session).encoding = 1) :
    ({ s with adaptiveQuality, worker } : Session).worth = s.worth := by
  have moved := ({ s with adaptiveQuality } : Session).worth_at worker
  have before : ({ s with adaptiveQuality } : Session).encoding = 1 := busy
  rw [before, still] at moved
  exact Nat.add_right_cancel moved

theorem consider_worth (s : Session) (job : Job) :
    (s.consider job).worth + s.encoding = s.worth + 1 := by
  unfold consider
  split
  · exact s.worth_at _
  · exact s.worth_at _

theorem take_worth (idle : s.encoding = 0) (taken : s.take = some (next, events)) :
    next.worth = s.worth := by
  unfold take at taken
  split at taken
  · cases taken
    have moved := s.worth_at .finished
    rw [idle] at moved
    exact moved
  · split at taken
    · cases taken
    · rename_i unlocked
      have outside := outside_of_unlocked (by simpa using unlocked)
      obtain ⟨index, pending, given⟩ := Option.map_eq_some_iff.mp taken
      cases given
      have moved := consider_worth { s with pending := none, busy := some index }
        { index, captured := s.capturedAt index }
      have still : ({ s with pending := none, busy := some index } : Session).producer =
        .outside := outside
      rw [worth_outside still] at moved
      rw [worth_outside outside, pending, Option.toList_some, List.length_singleton]
      change _ + s.encoding = s.frames + s.dropped + s.unchanged +
        (0 + s.encoding + s.ready.toList.length + s.sending) + 1 at moved
      omega

theorem compare_worth {job : Job} {previous : Fin 3} {row : Nat} (busy : s.encoding = 1) :
    (s.compare job previous row).worth = s.worth := by
  unfold compare
  split
  · split
    · exact worth_kept busy rfl
    · exact worth_kept busy rfl
  · have bigger : ({ s with unchanged := s.unchanged + 1 } : Session).worth = s.worth + 1 := by
      change s.frames + s.dropped + (s.unchanged + 1) + s.inFlight = _
      rw [worth]
      omega
    have moved := ({ s with unchanged := s.unchanged + 1 } : Session).worth_at (.unchanged job)
    have still : ({ s with unchanged := s.unchanged + 1 } : Session).encoding = 1 := busy
    rw [bigger, still] at moved
    exact Nat.add_right_cancel moved

theorem refresh_worth {job : Job} {now : UInt64} (idle : s.encoding = 0) :
    (s.refresh job now).1.worth =
      s.worth + if now - s.lastQueuedAt ≥ 1000000000 ∧ s.stop = false then 1 else 0 := by
  unfold refresh
  split
  · have moved := s.worth_at (.queueing job s.previousEncoded s.previousQuality false)
    rw [idle] at moved
    exact moved
  · have moved := s.worth_at (.settling job false)
    rw [idle] at moved
    exact moved

/-- An encoding that fails counts its picture as dropped. -/
theorem encode_worth {job : Job} {quality : Int} {retry : Nat} {seen : List UInt8} {row : Nat}
    {written : Written} (busy : s.encoding = 1)
    (taken : s.encode job quality retry seen row written = some (next, events)) :
    next.worth = s.worth := by
  unfold encode at taken
  split at taken
  · cases taken
    exact worth_kept busy rfl
  · have dropping (message : String) (adaptiveQuality : Int) :
        ({ s.drop.fail message with adaptiveQuality, worker := .settling job false } :
          Session).worth = s.worth := by
      have moved := ({ s.drop.fail message with adaptiveQuality } : Session).worth_at
        (.settling job false)
      have bigger : ({ s.drop.fail message with adaptiveQuality } : Session).worth =
        s.worth + 1 := s.drop_worth
      have still : ({ s.drop.fail message with adaptiveQuality } : Session).encoding = 1 := busy
      rw [bigger, still] at moved
      exact Nat.add_right_cancel moved
    split at taken
    · rename_i encoded
      cases taken
      exact worth_kept busy rfl
    · split at taken
      · cases taken
      · cases taken
        exact dropping _ _
    · split at taken
      · cases taken
      · cases taken
        exact dropping _ s.adaptiveQuality

theorem judge_worth {job : Job} {quality : Int} {retry : Nat} {encoded : List UInt8}
    (busy : s.encoding = 1) : (s.judge job quality retry encoded).worth = s.worth := by
  unfold judge
  dsimp only
  split
  · split
    · exact worth_kept busy rfl
    · exact worth_kept busy rfl
  · exact worth_kept busy rfl

theorem decide_worth {job : Job} {quality : Int} {encoded : List UInt8} (busy : s.encoding = 1) :
    s.worth = (s.decide job quality encoded).worth + if s.stop then 1 else 0 := by
  unfold decide
  split
  · have moved := s.worth_at (.settling job false)
    rw [busy] at moved
    exact moved.symm
  · have moved := s.worth_at (.queueing job encoded
      (if s.output.config.format = "JPEG" then quality else 0) true)
    rw [busy] at moved
    exact (Nat.add_right_cancel moved).symm

/-- An image that is queued displaces the one that is ready, which counts as dropped. -/
theorem queueImage_worth {job : Job} {encoded : List UInt8} {quality : Int} {fresh : Bool}
    {now : UInt64} (busy : s.encoding = 1)
    (taken : s.queueImage job encoded quality fresh now = some (next, events)) :
    next.worth = s.worth := by
  unfold queueImage at taken
  split at taken
  · cases taken
  · cases taken
    have parts : s.worth = s.frames + s.dropped + s.unchanged +
        (s.waiting + 1 + s.ready.toList.length + s.sending) := by
      rw [worth, inFlight, busy]
    rw [parts]
    cases ready : s.ready with
    | none =>
      change s.frames + s.dropped + s.unchanged + (s.waiting + 0 + 1 + s.sending) = _
      rw [Option.toList_none, List.length_nil]
    | some image =>
      change s.frames + (s.dropped + 1) + s.unchanged + (s.waiting + 0 + 1 + s.sending) = _
      rw [Option.toList_some, List.length_singleton]
      omega

theorem settle_worth {job : Job} {remember : Bool} (idle : s.encoding = 0)
    (taken : s.settle job remember = some next) : next.worth = s.worth := by
  unfold settle at taken
  split at taken
  · cases taken
  · cases taken
    have parts : s.worth = s.frames + s.dropped + s.unchanged +
        (s.waiting + 0 + s.ready.toList.length + s.sending) := by
      rw [worth, inFlight, idle]
    exact parts.symm

/-- The transmit worker counts its image as sent or as dropped, or gives it up. -/
theorem sendFrame_worth {frame : EncodedFrame} (hand : s.transmitter = .sending frame)
    (attempts : Nat → Attempt) (threw : Option String) :
    s.worth + (s.fates (.transmit attempts threw)).countP Fate.owed =
      (s.sendFrame frame attempts threw).1.worth +
        (s.fates (.transmit attempts threw)).countP (· == .abandoned) := by
  have parts : s.worth = s.frames + s.dropped + s.unchanged +
      (s.waiting + s.encoding + s.ready.toList.length + 1) := by
    rw [worth, inFlight, sending, hand]
  rw [parts]
  unfold fates sendFrame conclude
  simp only [hand]
  generalize sendImage s.sequence
    { config := s.output.config, encoded := frame.bytes, attempts } = outcome
  cases threw with
  | some message =>
    change _ + 0 = s.frames + (s.dropped + 1) + s.unchanged +
      (s.waiting + s.encoding + s.ready.toList.length + 0) + 0
    omega
  | none =>
    cases error : outcome.2.error with
    | some message =>
      change _ + 0 = s.frames + (s.dropped + 1) + s.unchanged +
        (s.waiting + s.encoding + s.ready.toList.length + 0) + 0
      omega
    | none =>
      cases complete : outcome.2.complete with
      | true =>
        change _ + 0 = (s.frames + 1) + s.dropped + s.unchanged +
          (s.waiting + s.encoding + s.ready.toList.length + 0) + 0
        omega
      | false =>
        change _ + 0 = s.frames + s.dropped + s.unchanged +
          (s.waiting + s.encoding + s.ready.toList.length + 0) + 1
        omega

theorem transmit_worth {attempts : Nat → Attempt} {threw : Option String}
    (taken : s.transmit attempts threw = some (next, events)) :
    s.worth + (s.fates (.transmit attempts threw)).countP Fate.owed =
      next.worth + (s.fates (.transmit attempts threw)).countP (· == .abandoned) := by
  unfold transmit at taken
  split at taken
  · rename_i waits
    have nothing : s.fates (.transmit attempts threw) = [] := by simp [fates, waits]
    have parts : s.worth = s.frames + s.dropped + s.unchanged +
        (s.waiting + s.encoding + s.ready.toList.length + 0) := by
      rw [worth, inFlight, sending, waits]
    rw [nothing, List.countP_nil, List.countP_nil, parts]
    split at taken
    · cases taken
      rfl
    · split at taken
      · cases taken
      · obtain ⟨frame, ready, given⟩ := Option.map_eq_some_iff.mp taken
        cases given
        rw [ready, Option.toList_some, List.length_singleton]
        change _ = s.frames + s.dropped + s.unchanged + (s.waiting + s.encoding + 0 + 1) + 0
        omega
  · rename_i frame hand
    split at taken
    · cases taken
    · cases taken
      exact sendFrame_worth hand attempts threw
  · cases taken

theorem work_worth {now : UInt64} {written : Written}
    (taken : s.work now written = some (next, events)) :
    s.worth + (s.fates (.work now written)).countP Fate.owed =
      next.worth + (s.fates (.work now written)).countP (· == .abandoned) := by
  cases place : s.worker with
  | waiting =>
    have idle : s.encoding = 0 := by rw [encoding, place]
    simp only [work, place] at taken
    simp only [fates, place, List.countP_nil, Nat.add_zero]
    exact (take_worth idle taken).symm
  | comparing job previous row =>
    have busy : s.encoding = 1 := by rw [encoding, place]
    simp only [work, place] at taken
    cases taken
    simp only [fates, place, List.countP_nil, Nat.add_zero]
    exact (compare_worth busy).symm
  | «unchanged» job =>
    have idle : s.encoding = 0 := by rw [encoding, place]
    simp only [work, place, Option.some.injEq] at taken
    have refreshed : (s.refresh job now).1.worth = _ := refresh_worth idle
    rw [taken] at refreshed
    simp only [fates, place]
    split
    · rename_i due
      rw [if_pos due] at refreshed
      exact refreshed.symm
    · rename_i early
      rw [if_neg early] at refreshed
      exact refreshed.symm
  | reading job quality retry seen row =>
    have busy : s.encoding = 1 := by rw [encoding, place]
    simp only [work, place] at taken
    simp only [fates, place, List.countP_nil, Nat.add_zero]
    exact (encode_worth busy taken).symm
  | judging job quality retry encoded =>
    have busy : s.encoding = 1 := by rw [encoding, place]
    simp only [work, place] at taken
    cases taken
    simp only [fates, place, List.countP_nil, Nat.add_zero]
    exact (judge_worth busy).symm
  | deciding job quality encoded =>
    have busy : s.encoding = 1 := by rw [encoding, place]
    simp only [work, place] at taken
    cases taken
    have decided : s.worth = (s.decide job quality encoded).worth + _ := decide_worth busy
    simp only [fates, place]
    split
    · rename_i stopped
      rw [if_pos stopped] at decided
      exact decided
    · rename_i runs
      rw [if_neg runs] at decided
      exact decided
  | queueing job encoded quality fresh =>
    have busy : s.encoding = 1 := by rw [encoding, place]
    simp only [work, place] at taken
    simp only [fates, place, List.countP_nil, Nat.add_zero]
    exact (queueImage_worth busy taken).symm
  | settling job remember =>
    have idle : s.encoding = 0 := by rw [encoding, place]
    simp only [work, place] at taken
    obtain ⟨settled, done, given⟩ := Option.map_eq_some_iff.mp taken
    cases given
    simp only [fates, place, List.countP_nil, Nat.add_zero]
    exact (settle_worth idle done).symm
  | finished =>
    simp only [work, place] at taken
    cases taken

/-- No step loses a picture or makes one out of nothing. -/
theorem advance_worth {label : Label} (taken : s.advance label = some next) :
    s.worth + (s.fates label).countP Fate.owed =
      next.worth + (s.fates label).countP (· == .abandoned) := by
  obtain ⟨⟨_, events⟩, stepped, rfl⟩ := Option.map_eq_some_iff.mp taken
  cases label with
  | capture rgba stride timestamp owns =>
    rw [step] at stepped
    split at stepped
    · cases stepped
    · rename_i unlocked
      cases stepped
      rw [capture_worth (outside_of_unlocked (by simpa using unlocked)), fates]
      split <;> rfl
  | produce now => exact (produce_worth stepped).symm
  | work now written => exact work_worth stepped
  | transmit attempts threw => exact transmit_worth stepped
  | requestStop =>
    rw [step] at stepped
    split at stepped
    · cases stepped
    · cases stepped
      rfl

theorem doubtful_le (worker : Worker) : doubtful worker ≤ 1 := by cases worker <;> simp [doubtful]

theorem sending_le (s : Session) : s.sending ≤ 1 := by
  unfold sending
  split <;> simp

theorem givable_le (s : Session) : s.givable ≤ 2 := by
  have worker := doubtful_le s.worker
  have transmitter := s.sending_le
  unfold givable
  split <;> omega

theorem givable_stopped (stopped : s.stop = true) :
    s.givable = doubtful s.worker + s.sending := by
  rw [givable, if_pos stopped]

/-- An image of which every datagram is attempted is sent whole, late or failed. -/
theorem sendFrom_stops {encoded : List UInt8} {attempts : Nat → Attempt} {packet : Memory}
    {index remaining : Nat}
    (attempted : ∀ other, index ≤ other → other < index + remaining →
      attempts other ≠ .stopped)
    (silent : (sendFrom encoded attempts packet index remaining).error = none) :
    (sendFrom encoded attempts packet index remaining).complete = true := by
  induction remaining generalizing packet index with
  | zero => rfl
  | succ remaining ih =>
    rw [sendFrom] at silent ⊢
    cases fate : attempts index with
    | sent =>
      rw [fate] at silent
      exact ih (fun other above below => attempted other (by omega) (by omega)) silent
    | stopped => exact absurd fate (attempted index le_rfl (by omega))
    | late =>
      rw [fate] at silent
      cases silent
    | failed code =>
      rw [fate] at silent
      cases silent

theorem sendImage_stops {sequence : UInt32} {call : SendCall}
    (attempted : ∀ index < fragmentCount call.encoded, call.attempts index ≠ .stopped)
    (silent : (sendImage sequence call).2.error = none) :
    (sendImage sequence call).2.complete = true := by
  unfold sendImage at silent ⊢
  split
  · rename_i refused
    rw [if_pos refused] at silent
    cases silent
  · rename_i accepted
    rw [if_neg accepted] at silent
    exact sendFrom_stops (fun other _ below => attempted other (by omega)) silent

/-- In a session that stops, the encode worker gives up what it has in hand and nothing more. -/
theorem work_spends {now : UInt64} {written : Written} (stopped : s.stop = true)
    (taken : s.work now written = some (next, events)) :
    (s.fates (.work now written)).countP (· == .abandoned) + doubtful next.worker ≤
      doubtful s.worker := by
  cases place : s.worker with
  | waiting =>
    simp only [work, place, take, if_pos stopped] at taken
    cases taken
    simp only [fates, place]
    exact le_rfl
  | comparing job previous row =>
    simp only [fates, place, List.countP_nil, Nat.zero_add]
    exact doubtful_le _
  | «unchanged» job =>
    have refused : ¬(now - s.lastQueuedAt ≥ 1000000000 ∧ s.stop = false) := by simp [stopped]
    simp only [work, place, refresh, if_neg refused] at taken
    cases taken
    simp only [fates, place, if_neg refused]
    exact le_rfl
  | reading job quality retry seen row =>
    simp only [fates, place, List.countP_nil, Nat.zero_add]
    exact doubtful_le _
  | judging job quality retry encoded =>
    simp only [fates, place, List.countP_nil, Nat.zero_add]
    exact doubtful_le _
  | deciding job quality encoded =>
    simp only [work, place, decide, if_pos stopped] at taken
    cases taken
    simp only [fates, place, if_pos stopped]
    exact le_rfl
  | queueing job encoded quality fresh =>
    simp only [work, place, queueImage] at taken
    split at taken
    · cases taken
    · cases taken
      simp only [fates, place]
      exact le_rfl
  | settling job remember =>
    simp only [work, place, settle] at taken
    split at taken
    · cases taken
    · cases taken
      simp only [fates, place]
      exact le_rfl
  | finished =>
    simp only [work, place] at taken
    cases taken

theorem sendFrame_rest (frame : EncodedFrame) (attempts : Nat → Attempt)
    (threw : Option String) :
    (s.sendFrame frame attempts threw).1.stop = s.stop ∧
      (s.sendFrame frame attempts threw).1.worker = s.worker ∧
      (s.sendFrame frame attempts threw).1.sending = 0 := by
  simp only [sendFrame, conclude]
  split
  · exact ⟨rfl, rfl, rfl⟩
  · exact ⟨rfl, rfl, rfl⟩
  · split <;> exact ⟨rfl, rfl, rfl⟩

/-- In a session that stops, the transmit worker gives up the image it sends and no other. -/
theorem transmit_spends {attempts : Nat → Attempt} {threw : Option String}
    (taken : s.transmit attempts threw = some (next, events)) :
    next.stop = s.stop ∧ next.worker = s.worker ∧ (s.stop = true →
      (s.fates (.transmit attempts threw)).countP (· == .abandoned) + next.sending ≤
        s.sending) := by
  cases hand : s.transmitter with
  | waiting =>
    simp only [transmit, hand] at taken
    simp only [fates, hand, List.countP_nil, Nat.zero_add]
    split at taken
    · cases taken
      exact ⟨rfl, rfl, fun _ => Nat.zero_le _⟩
    · rename_i runs
      split at taken
      · cases taken
      · obtain ⟨frame, _, given⟩ := Option.map_eq_some_iff.mp taken
        cases given
        exact ⟨rfl, rfl, fun stopped => absurd stopped runs⟩
  | sending frame =>
    simp only [transmit, hand] at taken
    split at taken
    · cases taken
    · obtain ⟨flag, worker, done⟩ := s.sendFrame_rest frame attempts threw
      obtain rfl : (s.sendFrame frame attempts threw).1 = next :=
        congrArg Prod.fst (Option.some.inj taken)
      refine ⟨flag, worker, fun _ => ?_⟩
      have one : s.sending = 1 := by rw [sending, hand]
      rw [done, one]
      simp only [fates, hand]
      split <;> simp
  | finished =>
    simp only [transmit, hand] at taken
    cases taken

/-- As long as the session is not stopped, nothing is given up. -/
theorem fates_quiet {label : Label} (runs : s.stop = false) (sound : s.honest label = true) :
    (s.fates label).countP (· == .abandoned) = 0 := by
  cases label with
  | capture rgba stride timestamp owns =>
    rw [fates]
    split <;> rfl
  | work now written =>
    cases place : s.worker <;> simp only [fates, place, List.countP_nil]
    · split <;> rfl
    · simp [runs]
  | transmit attempts threw =>
    cases hand : s.transmitter with
    | sending frame =>
      simp only [honest, hand, runs, Bool.false_or, List.all_eq_true, List.mem_range,
        bne_iff_ne] at sound
      have whole (silent : (sendImage s.sequence
          { config := s.output.config, encoded := frame.bytes, attempts }).2.error = none) :=
        sendImage_stops sound silent
      simp only [fates, hand]
      split
      · rename_i given
        rw [whole given.2.1] at given
        cases given.2.2
      · rfl
    | waiting => simp only [fates, hand, List.countP_nil]
    | finished => simp only [fates, hand, List.countP_nil]
  | produce now => rfl
  | requestStop => rfl

theorem advance_spends {label : Label} (sound : s.honest label = true)
    (taken : s.advance label = some next) :
    (s.fates label).countP (· == .abandoned) + next.givable ≤ s.givable := by
  cases flag : s.stop with
  | false =>
    have all : s.givable = 2 := by simp [givable, flag]
    rw [fates_quiet flag sound, Nat.zero_add, all]
    exact next.givable_le
  | true =>
    obtain ⟨⟨_, events⟩, stepped, rfl⟩ := Option.map_eq_some_iff.mp taken
    rw [givable_stopped flag]
    cases label with
    | capture rgba stride timestamp owns =>
      rw [step] at stepped
      split at stepped
      · cases stepped
      · cases stepped
        have quiet : (s.fates (.capture rgba stride timestamp owns)).countP (· == .abandoned) =
            0 := by
          rw [fates]
          split <;> rfl
        rw [quiet, Nat.zero_add, ← givable_stopped flag]
        obtain ⟨dropped, later, previous, ignored | ⟨index, memory, _, begun⟩⟩ :=
          s.capture_cases rgba stride timestamp owns
        · rw [ignored]
          exact le_rfl
        · rw [begun]
          exact le_rfl
    | produce now =>
      rw [← givable_stopped flag]
      change 0 + _ ≤ _
      rw [Nat.zero_add]
      rw [step, produce] at stepped
      split at stepped
      · cases stepped
      · split at stepped
        · cases stepped
          exact le_rfl
        · cases stepped
          exact le_rfl
    | work now written =>
      have spent := work_spends flag stepped
      obtain ⟨same, alike⟩ := work_others stepped
      rw [givable_stopped (same.trans flag), sending, alike]
      unfold sending
      omega
    | transmit attempts threw =>
      obtain ⟨same, worker, spent⟩ := transmit_spends stepped
      have spent := spent flag
      rw [givable_stopped (same.trans flag), worker]
      omega
    | requestStop =>
      rw [step] at stepped
      split at stepped
      · cases stepped
      · cases stepped
        exact le_of_eq (Nat.zero_add _)

/-- Over a whole run at most two pictures are given up, and none before the session stops. -/
theorem abandoned_le {labels : List Label} {final : Session}
    (along : allAlong advance honest s labels = true) (ran : run advance s labels = some final) :
    (observed advance fates s labels).countP (· == .abandoned) + final.givable ≤ s.givable := by
  induction labels generalizing s with
  | nil =>
    cases ran
    exact le_of_eq (Nat.zero_add _)
  | cons label rest ih =>
    obtain ⟨next, taken, later⟩ := run_cons.mp ran
    obtain ⟨first, others⟩ := (allAlong_cons taken).mp along
    have spent := advance_spends first taken
    have remaining := ih others later
    rw [observed_cons taken, List.countP_append]
    omega

end Steps

/-- In every order of the threads' steps, whatever the encoder and the socket answer: the
pictures that passed the frame rate limit, with the cached images sent once more, are those
that were sent, dropped, unchanged or given up, and at most four that are on their way. If the
transmit worker gives up only when it sees the stop flag, at most two pictures are given up,
and none before the stop. -/
theorem pictures_accounted (output : OutputSession) (sequence : UInt32) {labels : List Label}
    {s : Session} (ran : run advance (start output sequence) labels = some s) :
    let seen := observed advance fates (start output sequence) labels
    seen.countP Fate.owed =
        s.frames + s.dropped + s.unchanged + s.inFlight + seen.countP (· == .abandoned) ∧
      s.inFlight ≤ 4 ∧
      (allAlong advance honest (start output sequence) labels = true →
        seen.countP (· == .abandoned) ≤ 2 ∧
          (s.stop = false → seen.countP (· == .abandoned) = 0)) := by
  intro seen
  have balance := observed_balance worth Fate.owed (· == .abandoned)
    (fun _ _ _ taken => advance_worth taken) ran
  have empty : (start output sequence).worth = 0 := rfl
  rw [empty, Nat.zero_add] at balance
  refine ⟨balance, s.inFlight_le, fun along => ?_⟩
  have spent : seen.countP (· == .abandoned) + s.givable ≤ 2 :=
    (abandoned_le along ran).trans (givable_le _)
  refine ⟨by omega, fun runs => ?_⟩
  have all : s.givable = 2 := by simp [givable, runs]
  omega

/-- One pixel is ready to be sent, the second is being encoded and the third being copied. -/
theorem pictures_accounted_dotAgain :
    ∃ s, run advance (start Recorded.dot 0) dotAgain = some s ∧ s.inFlight = 3 ∧
      (observed advance fates (start Recorded.dot 0) dotAgain).countP Fate.owed = 3 := by
  have shown : (run advance (start Recorded.dot 0) dotAgain).any (fun s =>
      s.frames + s.dropped + s.unchanged == 0 && s.inFlight == 3 && s.stop == false) =
        true := by decide +kernel
  have along : allAlong advance honest (start Recorded.dot 0) dotAgain = true := by
    decide +kernel
  obtain ⟨s, ran, seen⟩ := (Option.any_eq_true _ _).mp shown
  simp only [Bool.and_eq_true, beq_iff_eq] at seen
  obtain ⟨⟨uncounted, three⟩, runs⟩ := seen
  obtain ⟨balance, _, quiet⟩ := pictures_accounted Recorded.dot 0 ran
  rw [(quiet along).2 runs, uncounted, three] at balance
  exact ⟨s, ran, three, balance⟩

end VbanStream.FrameSender.Session
