import VbanStream.Video.Session

/-! What becomes of every captured picture. The journal names captures by their number;
the invariants follow a number from the pending buffer over the cached encoding to the
image that is handed to `send_image`. -/

namespace VbanStream

open Library

namespace FrameSender

/-- One call of the image writer that wrote an image, with the pixels it was given. -/
structure Encoding where
  capture : Nat
  pixels : List UInt8
  quality : Int
  bytes : List UInt8

/-- Bytes that were queued when a capture had been processed. -/
structure Entry where
  capture : Nat
  bytes : List UInt8

/-- A capture that was not queued, and what had been queued last. -/
structure Kept where
  capture : Nat
  last : Option Entry

/-- The history of a session. A capture is the position of its picture in `stored`. -/
structure Journal where
  stored : List (List UInt8) := []
  held : Fin 3 → Nat := fun _ => 0
  replaced : List Nat := []
  encodings : List Encoding := []
  failed : List Nat := []
  kept : List Kept := []
  queued : List Entry := []
  picked : List Entry := []
  handed : List Entry := []

namespace Journal

def note (j : Journal) : Event → Journal
  | .replaced index => { j with replaced := j.replaced ++ [j.held index] }
  | .stored index picture =>
    { j with
      stored := j.stored ++ [picture]
      held := Function.update j.held index j.stored.length }
  | .encoded index pixels quality bytes =>
    { j with encodings := j.encodings ++ [{ capture := j.held index, pixels, quality, bytes }] }
  | .failed index => { j with failed := j.failed ++ [j.held index] }
  | .kept index =>
    { j with kept := j.kept ++ [{ capture := j.held index, last := j.queued.getLast? }] }
  | .queued index bytes =>
    { j with queued := j.queued ++ [{ capture := j.held index, bytes }] }
  | .picked bytes =>
    { j with
      picked := j.picked ++ j.queued.getLast?.toList.map fun entry => { entry with bytes } }
  | .handed bytes =>
    { j with
      handed := j.handed ++ j.picked.getLast?.toList.map fun entry => { entry with bytes } }

/-- The picture of a capture. -/
def Shows (j : Journal) (capture : Nat) (picture : List UInt8) : Prop :=
  j.stored[capture]? = some picture

/-- The image writer made these bytes from these pixels. -/
def Encodes (j : Journal) (bytes pixels : List UInt8) : Prop :=
  ∃ encoding ∈ j.encodings, encoding.bytes = bytes ∧ encoding.pixels = pixels

/-- The bytes of an entry were made from the picture of a capture, and its own capture
shows the same picture. -/
def Pictured (j : Journal) (entry : Entry) : Prop :=
  ∃ encoding ∈ j.encodings, encoding.bytes = entry.bytes ∧
    j.Shows encoding.capture encoding.pixels ∧ j.Shows entry.capture encoding.pixels

/-- The capture showed the same picture as the last queued image of that moment. -/
def Unchanged (j : Journal) (capture : Nat) : Prop :=
  ∃ kept ∈ j.kept, kept.capture = capture ∧
    ∃ last picture, kept.last = some last ∧ j.Shows last.capture picture ∧ j.Shows capture picture

/-- The encode worker is through with the capture. -/
def Settled (j : Journal) (capture : Nat) : Prop :=
  (∃ entry ∈ j.queued, entry.capture = capture) ∨ j.Unchanged capture ∨ capture ∈ j.failed

end Journal

/-- A session with its journal. -/
structure Recorded where
  session : Session
  journal : Journal := {}

namespace Recorded

def start (output : OutputSession) (sequence : UInt32) : Recorded :=
  { session := .start output sequence }

def step (r : Recorded) (label : Session.Label) : Option Recorded :=
  (r.session.step label).map fun (session, events) =>
    { session, journal := events.foldl Journal.note r.journal }

end Recorded

/-- The worker has yet to decide what to do with its picture. -/
def Worker.undecided : Worker → Prop
  | .settling .. => False
  | _ => True

namespace Session

/-- The buffer with the pixels of the cached encoding. -/
def remembered (s : Session) : Option (Fin 3) :=
  match s.worker with
  | .settling job true => some job.index
  | _ => s.previous

/-- The three buffers: those in use differ, and hold the whole pictures of their captures. -/
structure Slots (s : Session) (j : Journal) : Prop where
  apart : ∀ index, s.pending = some index → s.busy ≠ some index ∧ s.previous ≠ some index
  worked : ∀ index, s.busy = some index → s.previous ≠ some index
  copied : ∀ index rgba stride row, s.producer = .copying index rgba stride row →
    s.busy ≠ some index ∧ s.previous ≠ some index ∧
      (s.pending = none ∨ s.pending = some index) ∧
      row ≤ s.output.height ∧ s.upTo index row = picture rgba stride s.output.width row
  pending : s.locked = false → ∀ index, s.pending = some index →
    j.Shows (j.held index) (s.whole index)
  busy : ∀ index, s.busy = some index → j.Shows (j.held index) (s.whole index)
  numbered : ∀ index, s.pending = some index → j.held index < j.stored.length
  newer : ∀ index other, s.pending = some index → s.busy = some other →
    j.held other < j.held index

/-- What the encode worker knows where it is. -/
def Current (s : Session) (j : Journal) : Worker → Prop
  | .waiting | .finished => s.busy = none
  | .comparing job previous row =>
    s.busy = some job.index ∧ s.previous = some previous ∧ row ≤ s.output.height ∧
      s.upTo job.index row = s.upTo previous row
  | .unchanged job =>
    s.busy = some job.index ∧
      ∃ previous, s.previous = some previous ∧ s.whole job.index = s.whole previous
  | .reading job _ _ seen row =>
    s.busy = some job.index ∧ row ≤ s.output.height ∧ seen = s.upTo job.index row
  | .judging job _ _ encoded | .deciding job _ encoded =>
    s.busy = some job.index ∧ j.Encodes encoded (s.whole job.index)
  | .queueing job encoded _ fresh =>
    s.busy = some job.index ∧ j.Encodes encoded (s.whole job.index) ∧
      (fresh = false → encoded = s.previousEncoded ∧
        ∃ previous, s.previous = some previous ∧ s.whole job.index = s.whole previous)
  | .settling job _ =>
    s.busy = some job.index ∧ (s.stop = false → j.Settled (j.held job.index))

/-- The cached encoding belongs to the remembered pixels, which are those of the image
queued last. -/
def Cached (s : Session) (j : Journal) : Prop :=
  ∀ index, s.remembered = some index →
    (∃ last, j.queued.getLast? = some last ∧ j.Shows last.capture (s.whole index)) ∧
      j.Encodes s.previousEncoded (s.whole index)

/-- What may have become of a capture. -/
def Accounted (s : Session) (j : Journal) (capture : Nat) : Prop :=
  j.Settled capture ∨ capture ∈ j.replaced ∨
    (∃ index, s.pending = some index ∧ j.held index = capture) ∨
    ∃ index, s.busy = some index ∧ j.held index = capture

/-- Images are queued, picked up and handed over in the order of their captures. -/
structure Queue (s : Session) (j : Journal) : Prop where
  ordered : j.queued.Pairwise fun entry later => entry.capture < later.capture
  pending : ∀ index, s.pending = some index → ∀ entry ∈ j.queued, entry.capture < j.held index
  working : s.worker.undecided → ∀ index, s.busy = some index →
    ∀ entry ∈ j.queued, entry.capture < j.held index
  picked : j.picked.Sublist j.queued
  ready : ∀ frame, s.ready = some frame →
    ∃ front entry, j.queued = front ++ [entry] ∧ entry.bytes = frame.bytes ∧
      j.picked.Sublist front
  handed : j.handed.Sublist j.picked
  sending : ∀ frame, s.transmitter = .sending frame →
    ∃ front entry, j.picked = front ++ [entry] ∧ entry.bytes = frame.bytes ∧
      j.handed.Sublist front

end Session

/-- Every image was made from the whole picture of its capture, and what is queued is an
image of the picture that has just been processed. -/
structure Journal.Sound (j : Journal) : Prop where
  encodings : ∀ encoding ∈ j.encodings, j.Shows encoding.capture encoding.pixels
  queued : ∀ entry ∈ j.queued, ∃ encoding ∈ j.encodings,
    encoding.bytes = entry.bytes ∧ j.Shows entry.capture encoding.pixels

namespace Journal

variable {j k : Journal}

theorem Shows.bound {capture : Nat} {pixels : List UInt8} (shows : j.Shows capture pixels) :
    capture < j.stored.length :=
  (List.getElem?_eq_some_iff.mp shows).1

/-- Every step only adds to the journal. -/
structure Grown (j k : Journal) : Prop where
  stored : j.stored <+: k.stored
  replaced : j.replaced ⊆ k.replaced
  encodings : j.encodings ⊆ k.encodings
  failed : j.failed ⊆ k.failed
  kept : j.kept ⊆ k.kept
  queued : j.queued ⊆ k.queued

namespace Grown

theorem shows (grown : Grown j k) {capture : Nat} {pixels : List UInt8}
    (shows : j.Shows capture pixels) : k.Shows capture pixels := by
  obtain ⟨extra, grows⟩ := grown.stored
  rw [Shows, ← grows, List.getElem?_append_left shows.bound]
  exact shows

theorem encodes (grown : Grown j k) {bytes pixels : List UInt8}
    (encodes : j.Encodes bytes pixels) : k.Encodes bytes pixels := by
  obtain ⟨encoding, made, same⟩ := encodes
  exact ⟨encoding, grown.encodings made, same⟩

theorem settled (grown : Grown j k) {capture : Nat} (settled : j.Settled capture) :
    k.Settled capture := by
  rcases settled with ⟨entry, queued, named⟩ | ⟨kept, listed, named, last, picture, same⟩ | failed
  · exact .inl ⟨entry, grown.queued queued, named⟩
  · obtain ⟨found, first, second⟩ := same
    exact .inr (.inl ⟨kept, grown.kept listed, named, last, picture, found,
      grown.shows first, grown.shows second⟩)
  · exact .inr (.inr (grown.failed failed))

theorem refl (j : Journal) : Grown j j :=
  ⟨⟨[], List.append_nil _⟩, fun _ => id, fun _ => id, fun _ => id, fun _ => id, fun _ => id⟩

end Grown

end Journal

namespace Session

variable {s : Session} {j k : Journal}

theorem upTo_succ (s : Session) (index : Fin 3) (row : Nat) :
    s.upTo index (row + 1) = s.upTo index row ++ s.row index row := by
  simp only [upTo, Session.row, Nat.add_mul, Nat.one_mul]
  rw [Memory.read_append, Nat.zero_add]

theorem picture_succ (rgba : Memory) (stride : UInt32) (width row : Nat) :
    picture rgba stride width (row + 1) =
      picture rgba stride width row ++ rgba.read (row * stride.toNat) (width * 4) := by
  simp [picture, List.range_succ]

theorem upTo_copied (s : Session) (index : Fin 3) {row : Nat} {line : List UInt8}
    (full : line.length = s.rowBytes) (producer : Producer) :
    ({ s with
      pixels := Function.update s.pixels index ((s.pixels index).write (row * s.rowBytes) line)
      producer } : Session).upTo index (row + 1) = s.upTo index row ++ line := by
  rw [upTo_succ]
  simp only [upTo, Session.row, rowBytes, Function.update_self]
  congr 1
  · exact Memory.read_write_outside _ _ _ (.inl (by simp))
  · rw [rowBytes] at full
    rw [← full]
    exact Memory.read_write _ _ _

theorem upTo_other (s : Session) {index other : Fin 3} (apart : other ≠ index) (memory : Memory)
    (producer : Producer) (rows : Nat) :
    ({ s with
      pixels := Function.update s.pixels index memory
      producer } : Session).upTo other rows = s.upTo other rows := by
  simp only [upTo, rowBytes]
  rw [Function.update_of_ne apart]

theorem remembered_eq (unsettled : ∀ job, s.worker ≠ .settling job true) :
    s.remembered = s.previous := by
  rw [remembered]
  split
  · rename_i job settling
    exact absurd settling (unsettled job)
  · rfl

theorem unsettled (undecided : s.worker.undecided) (job : Job) :
    s.worker ≠ .settling job true := by
  intro settling
  rw [settling] at undecided
  exact undecided

theorem vacant_cases {index : Fin 3} (vacant : s.vacant = some index) :
    s.pending = some index ∨
      s.pending = none ∧ s.busy ≠ some index ∧ s.previous ≠ some index := by
  rw [Session.vacant, Option.orElse_eq_orElse, Option.orElse_eq_or, Option.or_eq_some_iff] at vacant
  rcases vacant with pending | ⟨free, found⟩
  · exact .inl pending
  · have apart := List.find?_some found
    simp only [ne_eq, decide_eq_true_eq] at apart
    exact .inr ⟨free, fun same => apart.1 same.symm, fun same => apart.2 same.symm⟩

theorem paced_eq (s : Session) (timestamp : UInt64) :
    ∃ next, (s.paced timestamp).1 =
      { s with previousTimestamp := timestamp, nextTimestamp := next } := by
  rw [paced]
  by_cases early : (if timestamp < s.previousTimestamp then 0 else s.nextTimestamp) ≠ 0 ∧
      timestamp < (if timestamp < s.previousTimestamp then 0 else s.nextTimestamp)
  · exact ⟨_, by rw [if_pos early]⟩
  · exact ⟨_, by rw [if_neg early]⟩

theorem replaceStale_cases (s : Session) (memory : Memory) (stride : UInt32) :
    ∃ dropped, s.replaceStale memory stride = { s with dropped } ∨
      ∃ index, s.vacant = some index ∧ s.replaceStale memory stride =
        { s with dropped, producer := .copying index memory stride 0 } := by
  rw [replaceStale]
  have counted : ∃ dropped, (if s.pending.isSome then s.drop else s) = { s with dropped } := by
    split
    · exact ⟨_, rfl⟩
    · exact ⟨_, rfl⟩
  obtain ⟨dropped, counted⟩ := counted
  rw [counted]
  change ∃ dropped', _ ∨ _
  cases vacant : ({ s with dropped } : Session).vacant with
  | none => exact ⟨_, .inl rfl⟩
  | some index => exact ⟨_, .inr ⟨index, vacant, rfl⟩⟩

/-- `capture` either leaves the buffers alone or starts to copy into the vacant one. -/
theorem capture_cases (s : Session) (rgba : Option Memory) (stride : UInt32) (timestamp : UInt64)
    (owns : Bool) :
    ∃ dropped nextTimestamp previousTimestamp,
      s.capture rgba stride timestamp owns =
          { s with dropped, nextTimestamp, previousTimestamp } ∨
        ∃ index memory, s.vacant = some index ∧
          s.capture rgba stride timestamp owns =
            { s with
              dropped, nextTimestamp, previousTimestamp
              producer := .copying index memory stride 0 } := by
  cases rgba with
  | none => exact ⟨_, _, _, .inl rfl⟩
  | some memory =>
    obtain ⟨next, paced⟩ := s.paced_eq timestamp
    rw [capture]
    by_cases refused : s.output.config.enabled = false ∨ s.stop = true ∨
        stride < UInt32.ofNat s.output.width * 4
    · rw [if_pos refused]
      exact ⟨_, _, _, .inl rfl⟩
    · rw [if_neg refused]
      simp only [paced]
      split
      · exact ⟨_, _, _, .inl rfl⟩
      · split
        · exact ⟨_, _, _, .inl rfl⟩
        · obtain ⟨dropped, ignored | ⟨index, vacant, begun⟩⟩ := replaceStale_cases
            { s with previousTimestamp := timestamp, nextTimestamp := next } memory stride
          · exact ⟨dropped, _, _, .inl ignored⟩
          · exact ⟨dropped, _, _, .inr ⟨index, memory, vacant, begun⟩⟩

theorem Current.raised {worker : Worker} {stop : Bool} (current : s.Current j worker)
    (raised : stop = false → s.stop = false) :
    ({ s with stop } : Session).Current j worker := by
  cases worker with
  | settling job remember => exact ⟨current.1, fun running => current.2 (raised running)⟩
  | _ => exact current

theorem Current.remembered (current : s.Current j s.worker) {index : Fin 3}
    (remembered : s.remembered = some index) : s.busy = some index ∨ s.previous = some index := by
  rw [Session.remembered] at remembered
  split at remembered
  · rename_i job settling
    rw [settling] at current
    exact .inl (remembered ▸ current.1)
  · exact .inr remembered

/-- The worker only looks at its own two buffers. -/
theorem Current.repainted {worker : Worker} {pixels : Fin 3 → Memory} {producer : Producer}
    (current : s.Current j worker)
    (same : ∀ other rows, s.busy = some other ∨ s.previous = some other →
      ({ s with pixels, producer } : Session).upTo other rows = s.upTo other rows) :
    ({ s with pixels, producer } : Session).Current j worker := by
  have kept : ∀ other, s.busy = some other ∨ s.previous = some other →
      ({ s with pixels, producer } : Session).whole other = s.whole other :=
    fun other used => same other _ used
  cases worker with
  | waiting | finished | settling => exact current
  | comparing job previous row =>
    obtain ⟨busy, known, bound, agree⟩ := current
    refine ⟨busy, known, bound, ?_⟩
    rw [same _ _ (.inl busy), same _ _ (.inr known), agree]
  | unchanged job =>
    obtain ⟨busy, previous, known, agree⟩ := current
    refine ⟨busy, previous, known, ?_⟩
    rw [kept _ (.inl busy), kept _ (.inr known), agree]
  | reading job quality retry seen row =>
    obtain ⟨busy, bound, read⟩ := current
    exact ⟨busy, bound, by rw [same _ _ (.inl busy), read]⟩
  | judging job quality retry encoded =>
    exact ⟨current.1, by rw [kept _ (.inl current.1)]; exact current.2⟩
  | deciding job quality encoded =>
    exact ⟨current.1, by rw [kept _ (.inl current.1)]; exact current.2⟩
  | queueing job encoded quality fresh =>
    obtain ⟨busy, encodes, cached⟩ := current
    refine ⟨busy, by rw [kept _ (.inl busy)]; exact encodes, ?_⟩
    intro stale
    obtain ⟨same_bytes, previous, known, agree⟩ := cached stale
    refine ⟨same_bytes, previous, known, ?_⟩
    rw [kept _ (.inl busy), kept _ (.inr known), agree]

theorem Current.grown {worker : Worker} (current : s.Current j worker) (grown : j.Grown k)
    (held : ∀ index, s.busy = some index → k.held index = j.held index) :
    s.Current k worker := by
  cases worker with
  | waiting | finished | comparing | unchanged | reading => exact current
  | judging job quality retry encoded => exact ⟨current.1, grown.encodes current.2⟩
  | deciding job quality encoded => exact ⟨current.1, grown.encodes current.2⟩
  | queueing job encoded quality fresh =>
    exact ⟨current.1, grown.encodes current.2.1, current.2.2⟩
  | settling job remember =>
    refine ⟨current.1, fun running => ?_⟩
    rw [held job.index current.1]
    exact grown.settled (current.2 running)

end Session

namespace Session

structure Invariant (s : Session) (j : Journal) : Prop where
  slots : s.Slots j
  current : s.Current j s.worker
  cached : s.Cached j
  queue : s.Queue j
  sound : j.Sound
  accounted : s.stop = false → ∀ capture < j.stored.length, s.Accounted j capture

variable {s : Session} {j : Journal}

/-- A step that leaves the worker where it is, the buffers and the ready image alone. -/
theorem Invariant.quiet (inv : s.Invariant j) {stop : Bool}
    (raised : stop = false → s.stop = false) (sequence : UInt32) (frames dropped errors : Nat)
    (error : String) (jpegQuality : Int) (nextTimestamp previousTimestamp : UInt64)
    {transmitter : Transmitter}
    (sends : ∀ frame, transmitter = .sending frame → s.transmitter = .sending frame) :
    ({ s with
      stop, sequence, frames, dropped, errors, error, jpegQuality, nextTimestamp
      previousTimestamp, transmitter } : Session).Invariant j := by
  obtain ⟨slots, current, cached, queue, sound, accounted⟩ := inv
  refine ⟨?_, current.raised raised, cached, ?_, sound, fun running => accounted (raised running)⟩
  · exact ⟨slots.apart, slots.worked, slots.copied, slots.pending, slots.busy, slots.numbered,
      slots.newer⟩
  · exact ⟨queue.ordered, queue.pending, queue.working, queue.picked, queue.ready, queue.handed,
      fun frame sending => queue.sending frame (sends frame sending)⟩

/-- A step of the worker on its own, before it has decided what to do with its picture. -/
theorem Invariant.moved (inv : s.Invariant j) {worker : Worker} {encodings : List Encoding}
    {failed : List Nat} {kept : List Kept} (grown : j.Grown { j with encodings, failed, kept })
    (sound : ∀ encoding ∈ encodings, j.Shows encoding.capture encoding.pixels)
    (before : s.worker.undecided) (after : ∀ job, worker ≠ .settling job true)
    (current : s.Current { j with encodings, failed, kept } worker)
    (dropped errors unchanged : Nat) (error : String) (adaptiveQuality previousQuality : Int) :
    ({ s with
      worker, dropped, errors, unchanged, error, adaptiveQuality, previousQuality } : Session).Invariant
      { j with encodings, failed, kept } := by
  obtain ⟨slots, _, cached, queue, made, accounted⟩ := inv
  refine ⟨?_, current, ?_, ?_, ⟨sound, ?_⟩, ?_⟩
  · exact ⟨slots.apart, slots.worked, slots.copied, slots.pending, slots.busy, slots.numbered,
      slots.newer⟩
  · intro index remembered
    rw [remembered_eq after] at remembered
    obtain ⟨last, encodes⟩ := cached index (remembered_eq (unsettled before) ▸ remembered)
    exact ⟨last, grown.encodes encodes⟩
  · exact ⟨queue.ordered, queue.pending, fun _ => queue.working before, queue.picked, queue.ready,
      queue.handed, queue.sending⟩
  · intro entry queued
    obtain ⟨encoding, listed, same⟩ := made.queued entry queued
    exact ⟨encoding, grown.encodings listed, same⟩
  · intro running capture bound
    rcases accounted running capture bound with settled | other
    · exact .inl (grown.settled settled)
    · exact .inr other

theorem Invariant.begun (inv : s.Invariant j) {index : Fin 3} (vacant : s.vacant = some index)
    (memory : Memory) (stride : UInt32) (dropped : Nat) (nextTimestamp previousTimestamp : UInt64) :
    ({ s with
      dropped, nextTimestamp, previousTimestamp
      producer := .copying index memory stride 0 } : Session).Invariant j := by
  obtain ⟨slots, current, cached, queue, sound, accounted⟩ := inv
  refine ⟨?_, current, cached, ?_, sound, accounted⟩
  · refine ⟨slots.apart, slots.worked, ?_, nofun, slots.busy, slots.numbered, slots.newer⟩
    intro index' rgba stride' row copying
    cases copying
    refine ⟨?_, ?_, ?_, Nat.zero_le _, ?_⟩
    · rcases vacant_cases vacant with pending | free
      · exact (slots.apart index pending).1
      · exact free.2.1
    · rcases vacant_cases vacant with pending | free
      · exact (slots.apart index pending).2
      · exact free.2.2
    · rcases vacant_cases vacant with pending | free
      · exact .inr pending
      · exact .inl free.1
    · simp [Session.upTo, picture, Memory.read]
  · exact ⟨queue.ordered, queue.pending, queue.working, queue.picked, queue.ready,
      queue.handed, queue.sending⟩

/-- The pixels that the worker has to do with are those of its own two buffers. -/
theorem Invariant.repainted (inv : s.Invariant j) {index : Fin 3} {rgba : Memory}
    {stride : UInt32} {row : Nat} (copying : s.producer = .copying index rgba stride row)
    (unfinished : row < s.output.height) :
    ({ s with
      pixels := Function.update s.pixels index ((s.pixels index).write (row * s.rowBytes)
        (rgba.read (row * stride.toNat) (s.output.width * 4)))
      producer := .copying index rgba stride (row + 1) } : Session).Invariant j := by
  obtain ⟨slots, current, cached, queue, sound, accounted⟩ := inv
  obtain ⟨working, remembering, waiting, _, painted⟩ := slots.copied index rgba stride row copying
  have same : ∀ other rows, s.busy = some other ∨ s.previous = some other →
      ({ s with
        pixels := Function.update s.pixels index ((s.pixels index).write (row * s.rowBytes)
          (rgba.read (row * stride.toNat) (s.output.width * 4)))
        producer := .copying index rgba stride (row + 1) } : Session).upTo other rows =
          s.upTo other rows := by
    intro other rows used
    apply upTo_other
    rintro rfl
    exact used.elim working remembering
  refine ⟨?_, current.repainted same, ?_, ?_, sound, accounted⟩
  · refine ⟨slots.apart, slots.worked, ?_, nofun, ?_, slots.numbered, slots.newer⟩
    · rintro _ _ _ _ ⟨⟩
      refine ⟨working, remembering, waiting, unfinished, ?_⟩
      rw [upTo_copied s index (by simp [Session.rowBytes]), painted,
        picture_succ]
    · intro other busy
      rw [Session.whole, same other _ (.inl busy)]
      exact slots.busy other busy
  · intro other remembered
    rw [Session.whole, same other _ (Current.remembered current remembered)]
    exact cached other remembered
  · exact ⟨queue.ordered, queue.pending, queue.working, queue.picked, queue.ready,
      queue.handed, queue.sending⟩

/-- The end of `capture`: a new number for the picture that was copied. -/
theorem Invariant.published (inv : s.Invariant j) {index : Fin 3} {rgba : Memory}
    {stride : UInt32} {row : Nat} (copying : s.producer = .copying index rgba stride row)
    (finished : ¬ row < s.output.height) (capturedAt : Fin 3 → UInt64) {replaced : List Nat}
    (kept : j.replaced ⊆ replaced)
    (stale : ∀ other, s.pending = some other → j.held other ∈ replaced) :
    ({ s with capturedAt, pending := some index, producer := .outside } : Session).Invariant
      { j with
        replaced
        stored := j.stored ++ [picture rgba stride s.output.width s.output.height]
        held := Function.update j.held index j.stored.length } := by
  obtain ⟨slots, current, cached, queue, sound, accounted⟩ := inv
  obtain ⟨working, remembering, waiting, bound, painted⟩ :=
    slots.copied index rgba stride row copying
  have last : row = s.output.height := Nat.le_antisymm bound (Nat.le_of_not_lt finished)
  have grown : j.Grown { j with
      replaced
      stored := j.stored ++ [picture rgba stride s.output.width s.output.height]
      held := Function.update j.held index j.stored.length } :=
    ⟨⟨_, rfl⟩, kept, fun _ => id, fun _ => id, fun _ => id, fun _ => id⟩
  have held : ∀ other, s.busy = some other →
      Function.update j.held index j.stored.length other = j.held other := by
    intro other busy
    apply Function.update_of_ne
    rintro rfl
    exact working busy
  have own : Function.update j.held index j.stored.length index = j.stored.length :=
    Function.update_self ..
  have numbered : ∀ entry ∈ j.queued, entry.capture < j.stored.length := by
    intro entry queued
    obtain ⟨encoding, _, _, shown⟩ := sound.queued entry queued
    exact shown.bound
  refine ⟨?_, current.grown grown held, ?_, ?_, ⟨?_, ?_⟩, ?_⟩
  · refine ⟨?_, slots.worked, nofun, ?_, ?_, ?_, ?_⟩
    · rintro _ ⟨⟩
      exact ⟨working, remembering⟩
    · rintro - _ ⟨⟩
      rw [last] at painted
      simp only [Journal.Shows, Function.update_self, List.getElem?_concat_length]
      exact congrArg some painted.symm
    · intro other busy
      have shown := grown.shows (slots.busy other busy)
      rwa [← held other busy] at shown
    · rintro _ ⟨⟩
      simp
    · rintro _ other ⟨⟩ busy
      exact (held other busy).trans_lt
        ((slots.busy other busy).bound.trans_eq own.symm)
  · intro other remembered
    obtain ⟨⟨newest, queued, shown⟩, encodes⟩ := cached other remembered
    exact ⟨⟨newest, queued, grown.shows shown⟩, grown.encodes encodes⟩
  · refine ⟨queue.ordered, ?_, ?_, queue.picked, queue.ready,
      queue.handed, queue.sending⟩
    · rintro _ ⟨⟩ entry queued
      exact (numbered entry queued).trans_eq own.symm
    · intro undecided other busy entry queued
      exact (queue.working undecided other busy entry queued).trans_eq (held other busy).symm
  · intro encoding made
    exact grown.shows (sound.encodings encoding made)
  · intro entry queued
    obtain ⟨encoding, made, same, shown⟩ := sound.queued entry queued
    exact ⟨encoding, made, same, grown.shows shown⟩
  · intro running capture before
    rw [List.length_append, List.length_singleton] at before
    rcases Nat.lt_succ_iff_lt_or_eq.mp before with earlier | rfl
    · rcases accounted running capture earlier with settled | gone | waited | worked
      · exact .inl (grown.settled settled)
      · exact .inr (.inl (kept gone))
      · obtain ⟨other, pending, named⟩ := waited
        exact .inr (.inl (named ▸ stale other pending))
      · obtain ⟨other, busy, named⟩ := worked
        exact .inr (.inr (.inr ⟨other, busy, (held other busy).trans named⟩))
    · exact .inr (.inr (.inl ⟨index, rfl, own⟩))

/-- The worker takes the pending picture; its own buffer was free. -/
theorem Invariant.taken (inv : s.Invariant j) (unlocked : s.locked = false)
    (waiting : s.worker = .waiting) {index : Fin 3} (pending : s.pending = some index)
    {worker : Worker} (undecided : ∀ job remember, worker ≠ .settling job remember)
    (current : ({ s with pending := none, busy := some index } : Session).Current j worker) :
    ({ s with pending := none, busy := some index, worker } : Session).Invariant j := by
  obtain ⟨slots, idle, cached, queue, sound, accounted⟩ := inv
  rw [waiting] at idle
  refine ⟨?_, current, ?_, ?_, sound, ?_⟩
  · refine ⟨nofun, ?_, ?_, nofun, ?_, nofun, nofun⟩
    · rintro _ ⟨⟩
      exact (slots.apart index pending).2
    · intro other rgba stride row copying
      rw [locked, show s.producer = _ from copying] at unlocked
      cases unlocked
    · rintro _ ⟨⟩
      exact slots.pending unlocked index pending
  · intro other remembered
    rw [remembered_eq fun job => undecided job true] at remembered
    refine cached other ?_
    rw [remembered_eq fun job => by rw [waiting]; exact nofun]
    exact remembered
  · refine ⟨queue.ordered, nofun, ?_, queue.picked, queue.ready,
      queue.handed, queue.sending⟩
    rintro - _ ⟨⟩
    exact queue.pending index pending
  · intro running capture bound
    rcases accounted running capture bound with settled | gone | waited | worked
    · exact .inl settled
    · exact .inr (.inl gone)
    · obtain ⟨other, known, named⟩ := waited
      cases pending.symm.trans known
      exact .inr (.inr (.inr ⟨index, rfl, named⟩))
    · obtain ⟨other, busy, _⟩ := worked
      cases busy.symm.trans idle

/-- `queue_image`: an image of the picture in work becomes the ready one. -/
theorem Invariant.queued (inv : s.Invariant j) {job : Job} {encoded : List UInt8} {quality : Int}
    {fresh : Bool} (queueing : s.worker = .queueing job encoded quality fresh) (dropped : Nat)
    (lastQueuedAt : UInt64) :
    ({ s with
      dropped, lastQueuedAt
      ready := some { bytes := encoded, captured := job.captured, quality }
      previousEncoded := if fresh then encoded else s.previousEncoded
      worker := .settling job fresh } : Session).Invariant
      { j with queued := j.queued ++ [{ capture := j.held job.index, bytes := encoded }] } := by
  obtain ⟨slots, current, cached, queue, sound, accounted⟩ := inv
  rw [queueing] at current
  obtain ⟨busy, ⟨encoding, made, same, pictured⟩, stale⟩ := current
  have shown := slots.busy job.index busy
  have undecided : s.worker.undecided := by rw [queueing]; trivial
  have earlier := queue.working undecided job.index busy
  have grown : j.Grown
      { j with queued := j.queued ++ [{ capture := j.held job.index, bytes := encoded }] } :=
    ⟨⟨[], List.append_nil _⟩, fun _ => id, fun _ => id, fun _ => id, fun _ => id,
      fun _ listed => List.mem_append_left _ listed⟩
  have own : Journal.Settled
      { j with queued := j.queued ++ [{ capture := j.held job.index, bytes := encoded }] }
      (j.held job.index) :=
    .inl ⟨_, List.mem_append_right _ (List.mem_singleton.mpr rfl), rfl⟩
  refine ⟨?_, ⟨busy, fun _ => own⟩, ?_, ?_, ⟨sound.encodings, ?_⟩, ?_⟩
  · exact ⟨slots.apart, slots.worked, slots.copied, slots.pending, slots.busy, slots.numbered,
      slots.newer⟩
  · intro index remembered
    refine ⟨⟨_, List.getLast?_concat, ?_⟩, ?_⟩
    · cases fresh with
      | true =>
        cases remembered
        exact shown
      | false =>
        obtain ⟨_, previous, known, agree⟩ := stale rfl
        cases known.symm.trans remembered
        exact agree ▸ shown
    · cases fresh with
      | true =>
        cases remembered
        exact ⟨encoding, made, same, pictured⟩
      | false =>
        obtain ⟨cachedBytes, previous, known, agree⟩ := stale rfl
        cases known.symm.trans remembered
        exact ⟨encoding, made, same.trans cachedBytes, pictured.trans agree⟩
  · refine ⟨?_, ?_, nofun, ?_, ?_, queue.handed, queue.sending⟩
    · refine List.pairwise_append.mpr ⟨queue.ordered, List.pairwise_singleton _ _, ?_⟩
      intro entry listed last newest
      cases List.mem_singleton.mp newest
      exact earlier entry listed
    · intro index pending entry listed
      rcases List.mem_append.mp listed with before | newest
      · exact queue.pending index pending entry before
      · cases List.mem_singleton.mp newest
        exact slots.newer index job.index pending busy
    · exact queue.picked.trans (List.sublist_append_left _ _)
    · rintro _ ⟨⟩
      exact ⟨j.queued, _, rfl, rfl, queue.picked⟩
  · intro entry listed
    rcases List.mem_append.mp listed with before | newest
    · exact sound.queued entry before
    · cases List.mem_singleton.mp newest
      exact ⟨encoding, made, same, pictured ▸ shown⟩
  · intro running capture bound
    rcases accounted running capture bound with settled | other
    · exact .inl (grown.settled settled)
    · exact .inr other

/-- The end of a round: a fresh encoding makes its buffer the previous one. -/
theorem Invariant.settled (inv : s.Invariant j) (unlocked : s.locked = false) {job : Job}
    {remember : Bool} (settling : s.worker = .settling job remember) :
    ({ s with
      previous := if remember then some job.index else s.previous
      busy := none
      worker := .waiting } : Session).Invariant j := by
  obtain ⟨slots, current, cached, queue, sound, accounted⟩ := inv
  rw [settling] at current
  obtain ⟨busy, through⟩ := current
  have remembers : s.remembered = if remember then some job.index else s.previous := by
    rw [remembered, settling]
    cases remember with
    | true => rfl
    | false => rfl
  refine ⟨?_, rfl, ?_, ?_, sound, ?_⟩
  · refine ⟨?_, nofun, ?_, slots.pending, nofun, slots.numbered, nofun⟩
    · intro index pending
      refine ⟨nofun, fun known => ?_⟩
      split at known
      · cases known
        exact (slots.apart _ pending).1 busy
      · exact (slots.apart index pending).2 known
    · intro index rgba stride row copying
      rw [locked, show s.producer = _ from copying] at unlocked
      cases unlocked
  · intro index known
    exact cached index (remembers.trans known)
  · exact ⟨queue.ordered, queue.pending, nofun, queue.picked, queue.ready,
      queue.handed, queue.sending⟩
  · intro running capture bound
    rcases accounted running capture bound with done | gone | waited | worked
    · exact .inl done
    · exact .inr (.inl gone)
    · exact .inr (.inr (.inl waited))
    · obtain ⟨index, known, named⟩ := worked
      cases known.symm.trans busy
      exact .inl (named ▸ through running)

theorem last_entry {entries front : List Entry} {entry : Entry} {bytes : List UInt8}
    (last : entries = front ++ [entry]) (same : entry.bytes = bytes) :
    entries.getLast?.toList.map (fun entry => { entry with bytes }) = [entry] := by
  rw [last, List.getLast?_concat, ← same]
  rfl

/-- The transmit worker takes the ready image. -/
theorem Invariant.picked (inv : s.Invariant j) {frame : EncodedFrame}
    (ready : s.ready = some frame) :
    ({ s with ready := none, transmitter := .sending frame } : Session).Invariant
      { j with
        picked := j.picked ++ j.queued.getLast?.toList.map fun entry =>
          { entry with bytes := frame.bytes } } := by
  obtain ⟨slots, current, cached, queue, sound, accounted⟩ := inv
  obtain ⟨front, entry, queued, same, picked⟩ := queue.ready frame ready
  refine ⟨?_, current, cached, ?_, ⟨sound.encodings, sound.queued⟩, accounted⟩
  · exact ⟨slots.apart, slots.worked, slots.copied, slots.pending, slots.busy, slots.numbered,
      slots.newer⟩
  · rw [last_entry queued same]
    refine ⟨queue.ordered, queue.pending, queue.working, ?_, nofun, ?_, ?_⟩
    · rw [queued]
      exact picked.append_right [entry]
    · exact queue.handed.trans (List.sublist_append_left _ _)
    · rintro _ ⟨⟩
      exact ⟨j.picked, entry, rfl, same, queue.handed⟩

/-- The image that was taken goes to `send_image`. -/
theorem Invariant.handed (inv : s.Invariant j) {frame : EncodedFrame}
    (sending : s.transmitter = .sending frame) (sequence : UInt32) (frames dropped errors : Nat)
    (error : String) (jpegQuality : Int) :
    ({ s with
      sequence, frames, dropped, errors, error, jpegQuality
      transmitter := .waiting } : Session).Invariant
      { j with
        handed := j.handed ++ j.picked.getLast?.toList.map fun entry =>
          { entry with bytes := frame.bytes } } := by
  obtain ⟨slots, current, cached, queue, sound, accounted⟩ := inv
  obtain ⟨front, entry, picked, same, handed⟩ := queue.sending frame sending
  refine ⟨?_, current, cached, ?_, ⟨sound.encodings, sound.queued⟩, accounted⟩
  · exact ⟨slots.apart, slots.worked, slots.copied, slots.pending, slots.busy, slots.numbered,
      slots.newer⟩
  · rw [last_entry picked same]
    refine ⟨queue.ordered, queue.pending, queue.working, queue.picked, queue.ready, ?_, nofun⟩
    rw [picked]
    exact handed.append_right [entry]

end Session

end FrameSender

end VbanStream
