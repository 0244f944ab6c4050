import VbanStream.Video.Captures

/-! Every step of the three threads keeps the invariants of the captures, so that whatever
the order of the steps, whole pictures are sent in the order in which they were captured. -/

namespace VbanStream

open Library

namespace FrameSender

namespace Session

variable {s : Session} {j : Journal}

theorem Invariant.capture (inv : s.Invariant j) (rgba : Option Memory) (stride : UInt32)
    (timestamp : UInt64) (owns : Bool) :
    (s.capture rgba stride timestamp owns).Invariant j := by
  obtain ⟨dropped, next, previous, ignored | ⟨index, memory, vacant, begun⟩⟩ :=
    s.capture_cases rgba stride timestamp owns
  · rw [ignored]
    exact inv.quiet id _ _ _ _ _ _ _ _ fun _ => id
  · rw [begun]
    exact inv.begun vacant memory stride dropped next previous

theorem Invariant.produce (inv : s.Invariant j) {now : UInt64} {t : Session} {events : List Event}
    (taken : s.produce now = some (t, events)) : t.Invariant (events.foldl Journal.note j) := by
  rw [Session.produce] at taken
  cases producer : s.producer with
  | outside => simp [producer] at taken
  | copying index rgba stride row =>
    simp only [producer] at taken
    split at taken
    · rename_i unfinished
      cases taken
      exact inv.repainted producer unfinished
    · rename_i finished
      cases taken
      cases pending : s.pending with
      | none =>
        exact inv.published producer finished _ (fun _ => id) (by rw [pending]; exact nofun)
      | some other =>
        refine inv.published producer finished _ (List.subset_append_left _ [j.held other]) ?_
        intro index known
        cases pending.symm.trans known
        exact List.mem_append_right _ (List.mem_singleton.mpr rfl)

theorem Invariant.reading (inv : s.Invariant j) (before : s.worker.undecided) {job : Job}
    (busy : s.busy = some job.index) (quality : Int) (retry : Nat) :
    ({ s with worker := .reading job quality retry [] 0 } : Session).Invariant j := by
  refine inv.moved (.refl j) inv.sound.encodings before ?_ ?_ ..
  · exact nofun
  · exact ⟨busy, Nat.zero_le _, by simp [upTo, Memory.read]⟩

theorem consider_cases (s : Session) (job : Job) (j : Journal) :
    ∃ worker, s.consider job = { s with worker } ∧
      (∀ job remember, worker ≠ .settling job remember) ∧
      (s.busy = some job.index → s.Current j worker) := by
  rw [consider]
  split
  · rename_i previous known
    refine ⟨.comparing job previous 0, rfl, ?_, fun busy => ⟨busy, known, Nat.zero_le _, ?_⟩⟩
    · intro other remember settling
      cases settling
    · simp [upTo, Memory.read]
  · refine ⟨.reading job _ 0 [] 0, rfl, ?_, fun busy => ⟨busy, Nat.zero_le _, ?_⟩⟩
    · intro other remember settling
      cases settling
    · simp [upTo, Memory.read]

theorem Invariant.take (inv : s.Invariant j) (waiting : s.worker = .waiting) {t : Session}
    {events : List Event} (taken : s.take = some (t, events)) :
    t.Invariant (events.foldl Journal.note j) := by
  have before : s.worker.undecided := by rw [waiting]; trivial
  have idle := inv.current
  rw [waiting] at idle
  rw [Session.take] at taken
  split at taken
  · cases taken
    refine inv.moved (.refl j) inv.sound.encodings before ?_ ?_ ..
    · exact nofun
    · exact idle
  · split at taken
    · cases taken
    · rename_i unlocked
      obtain ⟨index, pending, same⟩ := Option.map_eq_some_iff.mp taken
      cases same
      obtain ⟨worker, considered, undecided, current⟩ :=
        ({ s with pending := none, busy := some index } : Session).consider_cases
          { index, captured := s.capturedAt index } j
      rw [considered]
      exact inv.taken (Bool.eq_false_of_not_eq_true unlocked) waiting pending undecided
        (current rfl)

theorem Invariant.compare (inv : s.Invariant j) {job : Job} {previous : Fin 3} {row : Nat}
    (comparing : s.worker = .comparing job previous row) :
    (s.compare job previous row).Invariant j := by
  have before : s.worker.undecided := by rw [comparing]; trivial
  have current := inv.current
  rw [comparing] at current
  obtain ⟨busy, known, bound, agree⟩ := current
  rw [Session.compare]
  split
  · rename_i unfinished
    split
    · rename_i same
      refine inv.moved (.refl j) inv.sound.encodings before ?_ ?_ ..
      · exact nofun
      · exact ⟨busy, known, unfinished, by rw [upTo_succ, upTo_succ, agree, same]⟩
    · exact inv.reading before busy _ _
  · rename_i finished
    cases Nat.le_antisymm bound (Nat.le_of_not_lt finished)
    refine inv.moved (.refl j) inv.sound.encodings before ?_ ?_ ..
    · exact nofun
    · exact ⟨busy, previous, known, agree⟩

theorem Invariant.refresh (inv : s.Invariant j) {job : Job} (unchanged : s.worker = .unchanged job)
    (now : UInt64) :
    (s.refresh job now).1.Invariant ((s.refresh job now).2.foldl Journal.note j) := by
  have before : s.worker.undecided := by rw [unchanged]; trivial
  have current := inv.current
  rw [unchanged] at current
  obtain ⟨busy, previous, known, agree⟩ := current
  obtain ⟨⟨last, queued, shown⟩, encodes⟩ :=
    inv.cached previous ((remembered_eq (unsettled before)).trans known)
  rw [Session.refresh]
  split
  · refine inv.moved (.refl j) inv.sound.encodings before ?_ ?_ ..
    · exact nofun
    · exact ⟨busy, agree ▸ encodes, fun _ => ⟨rfl, previous, known, agree⟩⟩
  · refine inv.moved ?_ inv.sound.encodings before ?_ ?_ ..
    · exact { Journal.Grown.refl j with kept := List.subset_append_left _ _ }
    · exact nofun
    · refine ⟨busy, fun _ => .inr (.inl ⟨_, List.mem_append_right _ (List.mem_singleton.mpr rfl),
        rfl, last, _, queued, shown, ?_⟩)⟩
      exact agree ▸ inv.slots.busy job.index busy

theorem Invariant.failed (inv : s.Invariant j) (before : s.worker.undecided) {job : Job}
    (busy : s.busy = some job.index) (dropped errors : Nat) (error : String)
    (adaptiveQuality : Int) :
    ({ s with
      dropped, errors, error, adaptiveQuality
      worker := .settling job false } : Session).Invariant
      { j with failed := j.failed ++ [j.held job.index] } := by
  refine inv.moved ?_ inv.sound.encodings before ?_ ?_ ..
  · exact { Journal.Grown.refl j with failed := List.subset_append_left _ _ }
  · exact nofun
  · exact ⟨busy, fun _ => .inr (.inr (List.mem_append_right _ (List.mem_singleton.mpr rfl)))⟩

theorem Invariant.encode (inv : s.Invariant j) {job : Job} {quality : Int} {retry : Nat}
    {seen : List UInt8} {row : Nat} (reading : s.worker = .reading job quality retry seen row)
    {written : Written} {t : Session} {events : List Event}
    (taken : s.encode job quality retry seen row written = some (t, events)) :
    t.Invariant (events.foldl Journal.note j) := by
  have before : s.worker.undecided := by rw [reading]; trivial
  have current := inv.current
  rw [reading] at current
  obtain ⟨busy, bound, read⟩ := current
  unfold Session.encode at taken
  split at taken
  · rename_i unfinished
    cases taken
    refine inv.moved (.refl j) inv.sound.encodings before ?_ ?_ ..
    · exact nofun
    · exact ⟨busy, unfinished, by rw [upTo_succ, read]⟩
  · rename_i finished
    cases Nat.le_antisymm bound (Nat.le_of_not_lt finished)
    cases written with
    | image encoded =>
      cases taken
      refine inv.moved ?_ ?_ before ?_ ?_ ..
      · exact { Journal.Grown.refl j with encodings := List.subset_append_left _ _ }
      · intro encoding listed
        rcases List.mem_append.mp listed with earlier | newest
        · exact inv.sound.encodings encoding earlier
        · cases List.mem_singleton.mp newest
          exact read ▸ inv.slots.busy job.index busy
      · exact nofun
      · exact ⟨busy, _, List.mem_append_right _ (List.mem_singleton.mpr rfl), rfl, read⟩
    | refused message =>
      simp only at taken
      split at taken
      · cases taken
      · cases taken
        exact inv.failed before busy _ _ _ _
    | threw message =>
      simp only at taken
      split at taken
      · cases taken
      · cases taken
        exact inv.failed before busy _ _ _ _

theorem Invariant.judge (inv : s.Invariant j) {job : Job} {quality : Int} {retry : Nat}
    {encoded : List UInt8} (judging : s.worker = .judging job quality retry encoded) :
    (s.judge job quality retry encoded).Invariant j := by
  have before : s.worker.undecided := by rw [judging]; trivial
  have current := inv.current
  rw [judging] at current
  rw [Session.judge]
  split
  · split
    · exact inv.reading before current.1 _ _
    · refine inv.moved (.refl j) inv.sound.encodings before ?_ ?_ ..
      · exact nofun
      · exact current
  · refine inv.moved (.refl j) inv.sound.encodings before ?_ ?_ ..
    · exact nofun
    · exact current

theorem Invariant.decide (inv : s.Invariant j) {job : Job} {quality : Int}
    {encoded : List UInt8} (deciding : s.worker = .deciding job quality encoded) :
    (s.decide job quality encoded).Invariant j := by
  have before : s.worker.undecided := by rw [deciding]; trivial
  have current := inv.current
  rw [deciding] at current
  rw [Session.decide]
  split
  · rename_i stopped
    refine inv.moved (.refl j) inv.sound.encodings before ?_ ?_ ..
    · exact nofun
    · exact ⟨current.1, fun running => absurd (running.symm.trans stopped) nofun⟩
  · refine inv.moved (.refl j) inv.sound.encodings before ?_ ?_ ..
    · exact nofun
    · exact ⟨current.1, current.2, nofun⟩

theorem Invariant.queueImage (inv : s.Invariant j) {job : Job} {encoded : List UInt8}
    {quality : Int} {fresh : Bool} (queueing : s.worker = .queueing job encoded quality fresh)
    {now : UInt64} {t : Session} {events : List Event}
    (taken : s.queueImage job encoded quality fresh now = some (t, events)) :
    t.Invariant (events.foldl Journal.note j) := by
  rw [Session.queueImage] at taken
  split at taken
  · cases taken
  · cases ready : s.ready with
    | none =>
      simp only [ready] at taken
      cases taken
      exact inv.queued queueing _ _
    | some frame =>
      simp only [ready] at taken
      cases taken
      exact inv.queued queueing _ _

theorem Invariant.work (inv : s.Invariant j) {now : UInt64} {written : Written} {t : Session}
    {events : List Event} (taken : s.work now written = some (t, events)) :
    t.Invariant (events.foldl Journal.note j) := by
  rw [Session.work] at taken
  cases worker : s.worker with
  | waiting => exact inv.take worker (by simpa only [worker] using taken)
  | comparing job previous row =>
    simp only [worker, Option.some.injEq, Prod.mk.injEq] at taken
    obtain ⟨rfl, rfl⟩ := taken
    exact inv.compare worker
  | unchanged job =>
    simp only [worker, Option.some.injEq] at taken
    have refreshed := inv.refresh worker now
    rwa [taken] at refreshed
  | reading job quality retry seen row =>
    exact inv.encode worker (by simpa only [worker] using taken)
  | judging job quality retry encoded =>
    simp only [worker, Option.some.injEq, Prod.mk.injEq] at taken
    obtain ⟨rfl, rfl⟩ := taken
    exact inv.judge worker
  | deciding job quality encoded =>
    simp only [worker, Option.some.injEq, Prod.mk.injEq] at taken
    obtain ⟨rfl, rfl⟩ := taken
    exact inv.decide worker
  | queueing job encoded quality fresh =>
    exact inv.queueImage worker (by simpa only [worker] using taken)
  | settling job remember =>
    simp only [worker, Session.settle, Option.map_eq_some_iff] at taken
    obtain ⟨settled, free, same⟩ := taken
    cases same
    split at free
    · cases free
    · rename_i unlocked
      cases free
      exact inv.settled (Bool.eq_false_of_not_eq_true unlocked) worker
  | finished => simp [worker] at taken

theorem sendFrame_eq (s : Session) (frame : EncodedFrame) (attempts : Nat → Attempt)
    (threw : Option String) :
    ∃ sequence frames dropped errors error jpegQuality, s.sendFrame frame attempts threw =
      ({ s with
        sequence, frames, dropped, errors, error, jpegQuality, transmitter := .waiting },
        [.handed frame.bytes]) := by
  rw [sendFrame]
  obtain ⟨sequence, transmission⟩ :=
    sendImage s.sequence { config := s.output.config, encoded := frame.bytes, attempts }
  dsimp only [conclude]
  split
  · exact ⟨_, _, _, _, _, _, rfl⟩
  · exact ⟨_, _, _, _, _, _, rfl⟩
  · split
    · exact ⟨_, _, _, _, _, _, rfl⟩
    · exact ⟨_, _, _, _, _, _, rfl⟩

theorem Invariant.transmit (inv : s.Invariant j) {attempts : Nat → Attempt}
    {threw : Option String} {t : Session} {events : List Event}
    (taken : s.transmit attempts threw = some (t, events)) :
    t.Invariant (events.foldl Journal.note j) := by
  rw [Session.transmit] at taken
  cases transmitter : s.transmitter with
  | waiting =>
    simp only [transmitter] at taken
    split at taken
    · cases taken
      exact inv.quiet id _ _ _ _ _ _ _ _ nofun
    · split at taken
      · cases taken
      · obtain ⟨frame, ready, same⟩ := Option.map_eq_some_iff.mp taken
        cases same
        exact inv.picked ready
  | sending frame =>
    simp only [transmitter] at taken
    split at taken
    · cases taken
    · obtain ⟨sequence, frames, dropped, errors, error, quality, sent⟩ :=
        s.sendFrame_eq frame attempts threw
      rw [sent] at taken
      cases taken
      exact inv.handed transmitter _ _ _ _ _ _
  | finished => simp [transmitter] at taken

theorem invariant_start (output : OutputSession) (sequence : UInt32) :
    (Session.start output sequence).Invariant {} := by
  refine ⟨?_, rfl, nofun, ?_, ⟨nofun, nofun⟩, fun _ => nofun⟩
  · exact ⟨nofun, nofun, nofun, fun _ => nofun, nofun, nofun, nofun⟩
  · exact ⟨.nil, nofun, fun _ => nofun, .slnil, nofun, .slnil, nofun⟩

end Session

namespace Recorded

theorem step_invariant (r : Recorded) (label : Session.Label) (next : Recorded)
    (inv : r.session.Invariant r.journal) (taken : r.step label = some next) :
    next.session.Invariant next.journal := by
  obtain ⟨⟨t, events⟩, stepped, rfl⟩ := Option.map_eq_some_iff.mp taken
  cases label with
  | capture rgba stride timestamp owns =>
    rw [Session.step] at stepped
    split at stepped
    · cases stepped
    · cases stepped
      exact inv.capture rgba stride timestamp owns
  | produce now => exact inv.produce stepped
  | work now written => exact inv.work stepped
  | transmit attempts threw => exact inv.transmit stepped
  | requestStop =>
    rw [Session.step] at stepped
    split at stepped
    · cases stepped
    · cases stepped
      have raised : true = false → r.session.stop = false := nofun
      exact inv.quiet raised _ _ _ _ _ _ _ _ fun _ => id

/-- Whole pictures are sent in the order of their captures, and no capture disappears. -/
structure Faithful (r : Recorded) : Prop where
  handed : ∀ entry ∈ r.journal.handed, r.journal.Pictured entry
  queued : ∀ entry ∈ r.journal.queued, r.journal.Pictured entry
  passed : r.journal.handed.Sublist r.journal.queued
  ordered : r.journal.handed.Pairwise fun entry later => entry.capture < later.capture
  accounted : r.session.stop = false → ∀ capture < r.journal.stored.length,
    (∀ entry ∈ r.journal.queued, entry.capture ≠ capture) →
      capture ∈ r.journal.replaced ∨ r.journal.Unchanged capture ∨
        (∃ index, r.session.pending = some index ∧ r.journal.held index = capture) ∨
        (∃ index, r.session.busy = some index ∧ r.journal.held index = capture) ∨
        capture ∈ r.journal.failed

/-- The producer, the encode worker and the transmit worker take their steps in any order;
the encoder answers as it likes. -/
theorem pictures_faithful (output : OutputSession) (sequence : UInt32)
    (labels : List Session.Label) (final : Recorded)
    (ran : run step (start output sequence) labels = some final) : final.Faithful := by
  have inv : final.session.Invariant final.journal :=
    run_invariant step_invariant (Session.invariant_start output sequence) ran
  have queued : ∀ entry ∈ final.journal.queued, final.journal.Pictured entry := by
    intro entry listed
    obtain ⟨encoding, made, same, shown⟩ := inv.sound.queued entry listed
    exact ⟨encoding, made, same, inv.sound.encodings encoding made, shown⟩
  have passed := inv.queue.handed.trans inv.queue.picked
  refine ⟨fun entry listed => queued entry (passed.subset listed), queued, passed,
    inv.queue.ordered.sublist passed, ?_⟩
  intro running capture bound unqueued
  rcases inv.accounted running capture bound with settled | gone | waiting | working
  · rcases settled with ⟨entry, listed, named⟩ | unchanged | failed
    · exact absurd named (unqueued entry listed)
    · exact .inr (.inl unchanged)
    · exact .inr (.inr (.inr (.inr failed)))
  · exact .inl gone
  · exact .inr (.inr (.inl waiting))
  · exact .inr (.inr (.inr (.inl working)))

/-- A session of one pixel. -/
def dot : OutputSession := { config := { enabled := true, fps := 30 }, width := 1, height := 1 }

/-- A capture, its encoding and its transmission, until every thread waits again. -/
def dotCapture (shade : UInt8) (timestamp : UInt64) : List Session.Label :=
  [.capture (some fun _ => shade) 4 timestamp true, .produce timestamp, .produce timestamp]

def dotWork (now : UInt64) (written : Written) (steps : Nat) : List Session.Label :=
  List.replicate steps (.work now written)

/-- A picture, the same picture again after a second, and one that the encoder refuses. -/
def dotShow : List Session.Label :=
  dotCapture 7 1000000000 ++ dotWork 1000000000 (.image [1, 2]) 7 ++
    [.transmit (fun _ => .sent) none, .transmit (fun _ => .sent) none] ++
    dotCapture 7 3000000000 ++ dotWork 3000000000 (.image []) 6 ++
    [.transmit (fun _ => .sent) none, .transmit (fun _ => .sent) none] ++
    dotCapture 8 5000000000 ++ dotWork 5000000000 (.refused "full") 4

theorem pictures_faithful_dot :
    ∃ final, run step (start dot 0) dotShow = some final ∧
      final.journal.handed.map (fun entry => (entry.capture, entry.bytes)) =
        [(0, [1, 2]), (1, [1, 2])] ∧
      final.journal.failed = [2] ∧ final.Faithful := by
  have shown : (run step (start dot 0) dotShow).any (fun final =>
      (final.journal.handed.map fun entry => (entry.capture, entry.bytes)) ==
        [(0, [1, 2]), (1, [1, 2])] && final.journal.failed == [2]) = true := by decide +kernel
  obtain ⟨final, ran, seen⟩ := (Option.any_eq_true _ _).mp shown
  rw [Bool.and_eq_true, beq_iff_eq, beq_iff_eq] at seen
  exact ⟨final, ran, seen.1, seen.2, pictures_faithful dot 0 dotShow final ran⟩

end Recorded

end FrameSender

end VbanStream
