import VbanStream.Video.VideoReceiver

/-! Generations keep the video slots apart: what the queue, the worker and the
images shown owe to the datagrams of their own slot and generation. -/

namespace VbanStream

open Library

namespace VideoReceiver

variable {Picture : Type*}

/-- The next `change` of the configuration in progress changes slot `i`. -/
def Changes (s : VideoReceiver Picture) (i : Fin videoSlotCount) : Prop :=
  ∃ config port remaining, s.edit = some (config, port, i :: remaining) ∧
    ((s.slots i).config.same (config i) = false ∨ s.port ≠ port)

/-- The run has put this datagram into the queue. -/
def Enqueued (labels : List (Label Picture)) (p : VideoDatagram) : Prop :=
  ∃ front back before, labels = front ++ .enqueue p.slot p.bytes p.timestamp :: back ∧
    run step ({} : VideoReceiver Picture) front = some before ∧
    (before.enqueue p.slot p.bytes p.timestamp).queue = before.queue ++ [p]

/-- As `Enqueued`, and the datagram's slot has not been changed since. -/
def EnqueuedSinceChange (labels : List (Label Picture)) (p : VideoDatagram) : Prop :=
  ∃ front back before, labels = front ++ .enqueue p.slot p.bytes p.timestamp :: back ∧
    run step ({} : VideoReceiver Picture) front = some before ∧
    (before.enqueue p.slot p.bytes p.timestamp).queue = before.queue ++ [p] ∧
    ∀ middle rest state, back = middle ++ .change :: rest →
      run step ({} : VideoReceiver Picture)
        (front ++ .enqueue p.slot p.bytes p.timestamp :: middle) = some state →
      ¬ state.Changes p.slot

/-- The run has asked the decoder for these bytes, which the log completes; this was the
answer. -/
def Answered (labels : List (Label Picture)) (log : List Feed) (encoded : List UInt8)
    (decoding : Decoding Picture) : Prop :=
  ∃ front back before after now p counters, labels = front ++ .assemble now decoding :: back ∧
    run step ({} : VideoReceiver Picture) front = some before ∧
    before.step (.assemble now decoding) = some after ∧
    after.worker = .publishing p counters log (some (encoded, decoding))

/-- An assembler's datagrams all come from one generation of one slot. -/
def Gathered (accepted : VideoDatagram → Prop) (i : Fin videoSlotCount) (generation : Nat)
    (log : List Feed) : Prop :=
  ∀ p, .pushed p ∈ log → accepted p ∧ p.slot = i ∧ p.generation = generation

def WorkerSound (accepted : VideoDatagram → Prop)
    (answered : List Feed → List UInt8 → Decoding Picture → Prop) : Worker Picture → Prop
  | .idle | .failing _ _ => True
  | .holding p => accepted p
  | .publishing p _ log completed =>
    Gathered accepted p.slot p.generation log ∧
      ∀ encoded decoding, completed = some (encoded, decoding) →
        Feed.Completes log encoded ∧ answered log encoded decoding

/-- A slot's image and the history it is shown with. -/
structure ShownSound (accepted : VideoDatagram → Prop)
    (answered : List Feed → List UInt8 → Decoding Picture → Prop) (i : Fin videoSlotCount)
    (generation : Nat) (history : VideoHistory) (shown : VideoSnapshot Picture) : Prop where
  gathered : Gathered accepted i generation history.sources
  completes : Feed.Completes history.sources history.encoded
  decoded : ∃ decoding, answered history.sources history.encoded decoding ∧
    decoding.error = "" ∧ decoding.picture = some shown.picture
  serial : history.serials.getLast? = some shown.serial

structure Invariant (accepted : VideoDatagram → Prop)
    (answered : List Feed → List UInt8 → Decoding Picture → Prop) (s : VideoReceiver Picture) :
    Prop where
  generation : ∀ i, (s.slots i).generation = s.generations i
  queue : ∀ p ∈ s.queue, accepted p
  worker : WorkerSound accepted answered s.worker
  feeds : ∀ i, Gathered accepted i (s.adopted i) (s.feeds i)
  assemblers : ∀ i, s.assemblers i = (s.feeds i).foldl Feed.apply {}
  shown : ∀ i shown, (s.slots i).latest = some shown →
    ShownSound accepted answered i (s.generations i) (s.history i) shown
  increasing : ∀ i, (s.history i).serials.Pairwise (· < ·)
  bounded : ∀ i, ∀ serial ∈ (s.history i).serials, serial ≤ s.serial

theorem gathered_nil (accepted : VideoDatagram → Prop) (i : Fin videoSlotCount)
    (generation : Nat) : Gathered accepted i generation [] := by
  intro p member
  cases member

theorem gathered_append {accepted : VideoDatagram → Prop} {i : Fin videoSlotCount}
    {generation : Nat} {log : List Feed} (gathered : Gathered accepted i generation log)
    {feed : Feed} (late : ∀ p, feed = .pushed p →
      accepted p ∧ p.slot = i ∧ p.generation = generation) :
    Gathered accepted i generation (log ++ [feed]) := by
  intro p member
  rcases List.mem_append.mp member with old | new
  · exact gathered p old
  · exact late p (List.mem_singleton.mp new).symm

theorem Gathered.mono {accepted wider : VideoDatagram → Prop} {i : Fin videoSlotCount}
    {generation : Nat} {log : List Feed} (gathered : Gathered accepted i generation log)
    (widens : ∀ p, accepted p → wider p) : Gathered wider i generation log := by
  intro p member
  obtain ⟨held, same⟩ := gathered p member
  exact ⟨widens p held, same⟩

theorem invariant_init (accepted : VideoDatagram → Prop)
    (answered : List Feed → List UInt8 → Decoding Picture → Prop) :
    Invariant accepted answered ({} : VideoReceiver Picture) where
  generation i := rfl
  queue p member := by cases member
  worker := trivial
  feeds i := gathered_nil accepted i 0
  assemblers i := rfl
  shown i shown found := by cases found
  increasing i := List.Pairwise.nil
  bounded i serial member := by cases member

namespace Invariant

variable {accepted : VideoDatagram → Prop}
  {answered : List Feed → List UInt8 → Decoding Picture → Prop} {s : VideoReceiver Picture}

theorem mono {wider : VideoDatagram → Prop}
    {also : List Feed → List UInt8 → Decoding Picture → Prop} (inv : Invariant accepted answered s)
    (widens : ∀ p, accepted p → wider p)
    (keeps : ∀ log encoded decoding, answered log encoded decoding → also log encoded decoding) :
    Invariant wider also s where
  generation := inv.generation
  queue p member := widens p (inv.queue p member)
  worker := by
    have sound := inv.worker
    cases held : s.worker with
    | idle => trivial
    | failing p message => trivial
    | holding p =>
      rw [held] at sound
      exact widens p sound
    | publishing p counters log completed =>
      rw [held] at sound
      refine ⟨sound.1.mono widens, ?_⟩
      intro encoded decoding same
      obtain ⟨completes, answer⟩ := sound.2 encoded decoding same
      exact ⟨completes, keeps log encoded decoding answer⟩
  feeds i := (inv.feeds i).mono widens
  assemblers := inv.assemblers
  shown i shown found := by
    have sound := inv.shown i shown found
    obtain ⟨decoding, answer, good⟩ := sound.decoded
    exact ⟨sound.gathered.mono widens, sound.completes, ⟨decoding, keeps _ _ _ answer, good⟩,
      sound.serial⟩
  increasing := inv.increasing
  bounded := inv.bounded

/-- A slot that keeps its picture and its generation may change otherwise. -/
theorem touched (inv : Invariant accepted answered s) (i : Fin videoSlotCount) {slot : VideoSlot Picture}
    (generation : slot.generation = (s.slots i).generation)
    (latest : slot.latest = (s.slots i).latest) :
    Invariant accepted answered { s with slots := Function.update s.slots i slot } := by
  refine { inv with generation := ?_, shown := ?_ }
  · intro j
    rcases eq_or_ne j i with rfl | other
    · simpa [generation] using inv.generation j
    · simpa [other] using inv.generation j
  · intro j picture found
    rcases eq_or_ne j i with rfl | other
    · simp only [Function.update_self, latest] at found
      exact inv.shown j picture found
    · simp only [Function.update_of_ne other] at found
      exact inv.shown j picture found

theorem change (inv : Invariant accepted answered s) (config : VideoConfig) (port : UInt16)
    (i : Fin videoSlotCount) : Invariant accepted answered (s.changeSlot config port i) := by
  rw [changeSlot]
  split
  · refine { inv with generation := ?_, shown := ?_ }
    · intro j
      rcases eq_or_ne j i with rfl | other
      · simp
      · simpa [other] using inv.generation j
    · intro j shown found
      rcases eq_or_ne j i with rfl | other
      · simp at found
      · simp only [Function.update_of_ne other] at found ⊢
        exact inv.shown j shown found
  · exact inv.touched i rfl rfl

end Invariant

/-- An accepted datagram goes to the end of the queue; nothing else but a drop
counter moves. -/
theorem enqueue_cases (s : VideoReceiver Picture) (slot : Nat) (bytes : List UInt8)
    (now : UInt64) :
    (∃ i : Fin videoSlotCount, slot = i ∧ s.enqueue slot bytes now =
      { s with queue := s.queue ++
        [{ slot := i, bytes, generation := s.generations i, timestamp := now }] }) ∨
    (∃ i, s.enqueue slot bytes now = s.drop i) ∨ s.enqueue slot bytes now = s := by
  rw [enqueue]
  split
  · rename_i inside
    dsimp only
    split
    · exact .inr (.inr rfl)
    · split
      · exact .inr (.inl ⟨⟨slot, inside⟩, rfl⟩)
      · split
        · exact .inr (.inl ⟨⟨slot, inside⟩, rfl⟩)
        · exact .inl ⟨⟨slot, inside⟩, rfl, rfl⟩
  · exact .inr (.inr rfl)

namespace Invariant

variable {accepted : VideoDatagram → Prop}
  {answered : List Feed → List UInt8 → Decoding Picture → Prop} {s : VideoReceiver Picture}

theorem enqueue (inv : Invariant accepted answered s) {slot : Nat} {bytes : List UInt8} {now : UInt64}
    (records : ∀ p : VideoDatagram, slot = p.slot → bytes = p.bytes → now = p.timestamp →
      (s.enqueue slot bytes now).queue = s.queue ++ [p] → accepted p) :
    Invariant accepted answered (s.enqueue slot bytes now) := by
  rcases enqueue_cases s slot bytes now with ⟨i, same, joined⟩ | ⟨i, dropped⟩ | refused
  · have fresh := records _ same rfl rfl (by rw [joined])
    rw [joined]
    refine { inv with queue := ?_ }
    intro p member
    rcases List.mem_append.mp member with old | new
    · exact inv.queue p old
    · rw [List.mem_singleton.mp new]
      exact fresh
  · rw [dropped]
    exact { inv with }
  · rw [refused]
    exact inv

theorem adopt (inv : Invariant accepted answered s) (p : VideoDatagram) :
    Invariant accepted answered (s.adopt p) ∧ (s.adopt p).adopted p.slot = p.generation := by
  rw [VideoReceiver.adopt]
  split
  · refine ⟨{ inv with feeds := ?_, assemblers := ?_ }, Function.update_self ..⟩
    · intro j
      rcases eq_or_ne j p.slot with rfl | other
      · simpa using gathered_nil accepted p.slot p.generation
      · simpa [other] using inv.feeds j
    · intro j
      rcases eq_or_ne j p.slot with rfl | other
      · simp
      · simpa [other] using inv.assemblers j
  · rename_i same
    exact ⟨inv, not_ne_iff.mp same⟩

theorem assemble (inv : Invariant accepted answered s) {p : VideoDatagram} (held : accepted p)
    (current : s.adopted p.slot = p.generation) (decoding : Decoding Picture)
    (answers : ∀ counters log encoded,
      (s.assemble p decoding).worker = .publishing p counters log (some (encoded, decoding)) →
        answered log encoded decoding) :
    Invariant accepted answered (s.assemble p decoding) := by
  have log : Gathered accepted p.slot p.generation (s.feeds p.slot ++ [.pushed p]) := by
    refine gathered_append (current ▸ inv.feeds p.slot) ?_
    rintro q ⟨⟩
    exact ⟨held, rfl, rfl⟩
  refine { inv with worker := ⟨log, ?_⟩, feeds := ?_, assemblers := ?_ }
  · intro encoded result completed
    obtain ⟨bytes, pushed, same⟩ := Option.map_eq_some_iff.mp completed
    cases same
    refine ⟨⟨s.feeds p.slot, p, rfl, inv.assemblers p.slot ▸ pushed⟩, answers
      ((s.assemblers p.slot).push (Memory.ofBytes p.bytes) p.bytes.length p.timestamp).1.counters
      _ encoded ?_⟩
    exact congrArg (Worker.publishing p _ _) completed
  · intro j
    rcases eq_or_ne j p.slot with rfl | other
    · simpa [VideoReceiver.assemble, current] using log
    · simpa [VideoReceiver.assemble, other] using inv.feeds j
  · intro j
    rcases eq_or_ne j p.slot with rfl | other
    · simp [VideoReceiver.assemble, Feed.apply, inv.assemblers p.slot]
    · simpa [VideoReceiver.assemble, other] using inv.assemblers j

theorem raise (inv : Invariant accepted answered s) (p : VideoDatagram) (message : String) :
    Invariant accepted answered { s with
      assemblers := Function.update s.assemblers p.slot {}
      feeds := Function.update s.feeds p.slot []
      worker := .failing p message } := by
  refine { inv with worker := trivial, feeds := ?_, assemblers := ?_ }
  · intro j
    rcases eq_or_ne j p.slot with rfl | other
    · simpa using gathered_nil accepted p.slot (s.adopted p.slot)
    · simpa [other] using inv.feeds j
  · intro j
    rcases eq_or_ne j p.slot with rfl | other
    · simp
    · simpa [other] using inv.assemblers j

theorem expire (inv : Invariant accepted answered s) (now : UInt64) :
    Invariant accepted answered { s with
      assemblers := fun i => (s.assemblers i).expire now
      feeds := fun i => s.feeds i ++ [.expired now] } := by
  refine { inv with feeds := ?_, assemblers := ?_ }
  · intro j
    refine gathered_append (inv.feeds j) ?_
    rintro p ⟨⟩
  · intro j
    simp [Feed.apply, inv.assemblers j]

theorem reported (inv : Invariant accepted answered s) (i : Fin videoSlotCount) (status : VideoStatus) :
    Invariant accepted answered { s with
      slots := Function.update s.slots i { s.slots i with status } } :=
  inv.touched i rfl rfl

theorem publish (inv : Invariant accepted answered s) {p : VideoDatagram} {counters : FrameCounters}
    {log : List Feed} {completed : Option (List UInt8 × Decoding Picture)}
    (sound : WorkerSound accepted answered (.publishing p counters log completed))
    (current : (s.slots p.slot).generation = p.generation) :
    Invariant accepted answered (s.publish p counters log completed) := by
  obtain ⟨gathered, completes⟩ := sound
  rw [inv.generation] at current
  rw [VideoReceiver.publish]
  rcases completed with _ | ⟨encoded, decoding⟩
  · exact inv.reported p.slot _
  · rcases visible : shows (some (encoded, decoding)) with _ | ⟨bytes, picture⟩
    · simpa only [visible] using inv.reported p.slot _
    · obtain ⟨good, image, rfl⟩ :
          decoding.error = "" ∧ decoding.picture = some picture ∧ encoded = bytes := by
        rw [shows] at visible
        split at visible
        · rename_i good
          obtain ⟨image, found, pair⟩ := Option.map_eq_some_iff.mp visible
          cases pair
          exact ⟨good, found, rfl⟩
        · cases visible
      obtain ⟨whole, answer⟩ := completes encoded decoding rfl
      have fresh : ∀ serial ∈ (s.history p.slot).serials, serial < s.serial + 1 := by
        intro serial member
        exact Nat.lt_succ_of_le (inv.bounded p.slot serial member)
      refine { inv with generation := ?_, shown := ?_, increasing := ?_, bounded := ?_ }
      · intro j
        rcases eq_or_ne j p.slot with rfl | other
        · simpa using inv.generation p.slot
        · simpa [other] using inv.generation j
      · intro j shown found
        rcases eq_or_ne j p.slot with rfl | other
        · simp only [Function.update_self, Option.some.injEq] at found ⊢
          rw [← found]
          refine ⟨current ▸ gathered, whole, ⟨decoding, answer, good, image⟩, ?_⟩
          simp
        · simp only [Function.update_of_ne other] at found ⊢
          exact inv.shown j shown found
      · intro j
        rcases eq_or_ne j p.slot with rfl | other
        · simp only [Function.update_self]
          refine List.pairwise_append.mpr ⟨inv.increasing p.slot, List.pairwise_singleton _ _, ?_⟩
          intro serial member next last
          rw [List.mem_singleton.mp last]
          exact fresh serial member
        · simpa [other] using inv.increasing j
      · intro j serial member
        rcases eq_or_ne j p.slot with rfl | other
        · simp only [Function.update_self, List.mem_append, List.mem_singleton] at member
          rcases member with old | rfl
          · exact (fresh serial old).le
          · exact le_rfl
        · simp only [Function.update_of_ne other] at member
          exact (inv.bounded j serial member).trans (Nat.le_succ _)

end Invariant

theorem configureStep_invariant {accepted : VideoDatagram → Prop}
    {answered : List Feed → List UInt8 → Decoding Picture → Prop} {s next : VideoReceiver Picture}
    {label : Label Picture} (inv : Invariant accepted answered s)
    (records : ∀ p : VideoDatagram, label = .enqueue p.slot p.bytes p.timestamp →
      (s.enqueue p.slot p.bytes p.timestamp).queue = s.queue ++ [p] → accepted p)
    (taken : s.configureStep label s.edit = some next) : Invariant accepted answered next := by
  rw [configureStep.eq_def] at taken
  split at taken <;> cases taken
  · exact { inv with }
  · exact { inv.change _ _ _ with }
  · exact { inv with }
  · refine inv.enqueue ?_
    rintro p rfl rfl rfl joined
    exact records p rfl joined
  · exact { inv with }

theorem workerStep_invariant {accepted : VideoDatagram → Prop}
    {answered : List Feed → List UInt8 → Decoding Picture → Prop} {s next : VideoReceiver Picture}
    {label : Label Picture} (inv : Invariant accepted answered s)
    (answers : ∀ now decoding p counters log encoded, label = .assemble now decoding →
      next.worker = .publishing p counters log (some (encoded, decoding)) →
        answered log encoded decoding)
    (taken : s.workerStep label s.worker = some next) : Invariant accepted answered next := by
  have sound := inv.worker
  rw [workerStep.eq_def] at taken
  split at taken
  · split at taken
    · cases taken
    · split at taken
      · cases taken
      · rename_i p rest front
        cases taken
        have queued : ∀ q ∈ p :: rest, accepted q := front ▸ inv.queue
        exact { inv with
          queue := fun q member => queued q (List.mem_cons_of_mem p member)
          worker := queued p List.mem_cons_self }
  · split at taken <;> cases taken
    exact inv.expire _
  · rename_i p held
    rw [held] at sound
    split at taken <;> cases taken
    · exact { inv with worker := trivial }
    · obtain ⟨adopted, current⟩ := inv.adopt p
      exact adopted.assemble sound current _ fun counters log encoded =>
        answers _ _ p counters log encoded rfl
  · rename_i p held
    split at taken <;> cases taken
    · exact { inv with worker := trivial }
    · exact (inv.adopt p).1.raise p _
  · rename_i p counters log completed held
    rw [held] at sound
    split at taken
    · cases taken
    · split at taken <;> cases taken
      · exact { inv with worker := trivial }
      · rename_i current
        exact { inv.publish sound (not_ne_iff.mp current) with worker := trivial }
  · rename_i p message held
    split at taken
    · cases taken
    · split at taken <;> cases taken
      · exact { inv with worker := trivial }
      · exact { inv.reported p.slot _ with worker := trivial }
  · cases taken

theorem step_invariant {accepted : VideoDatagram → Prop}
    {answered : List Feed → List UInt8 → Decoding Picture → Prop} {s next : VideoReceiver Picture}
    {label : Label Picture} (inv : Invariant accepted answered s)
    (records : ∀ p : VideoDatagram, label = .enqueue p.slot p.bytes p.timestamp →
      (s.enqueue p.slot p.bytes p.timestamp).queue = s.queue ++ [p] → accepted p)
    (answers : ∀ now decoding p counters log encoded, label = .assemble now decoding →
      next.worker = .publishing p counters log (some (encoded, decoding)) →
        answered log encoded decoding)
    (taken : s.step label = some next) : Invariant accepted answered next := by
  rw [step.eq_def] at taken
  split at taken
  · exact configureStep_invariant inv records taken
  · exact configureStep_invariant inv records taken
  · exact configureStep_invariant inv records taken
  · exact configureStep_invariant inv records taken
  · exact configureStep_invariant inv records taken
  · exact workerStep_invariant inv answers taken
  · exact workerStep_invariant inv answers taken
  · exact workerStep_invariant inv answers taken
  · exact workerStep_invariant inv answers taken
  · exact workerStep_invariant inv answers taken

theorem Enqueued.later {labels : List (Label Picture)} {p : VideoDatagram}
    (enqueued : Enqueued labels p) (label : Label Picture) : Enqueued (labels ++ [label]) p := by
  obtain ⟨front, back, before, rfl, success, joined⟩ := enqueued
  exact ⟨front, back ++ [label], before, by simp, success, joined⟩

theorem Answered.later {labels : List (Label Picture)} {log : List Feed} {encoded : List UInt8}
    {decoding : Decoding Picture} (answered : Answered labels log encoded decoding)
    (label : Label Picture) : Answered (labels ++ [label]) log encoded decoding := by
  obtain ⟨front, back, before, after, now, p, counters, rfl, success, taken, held⟩ := answered
  exact ⟨front, back ++ [label], before, after, now, p, counters, by simp, success, taken, held⟩

theorem run_sound {labels : List (Label Picture)} {s : VideoReceiver Picture}
    (success : run step {} labels = some s) :
    Invariant (Enqueued labels) (Answered labels) s := by
  refine run_history (fun labels s => Invariant (Enqueued labels) (Answered labels) s)
    (invariant_init _ _) ?_ success
  intro labels state label next before inv taken
  have kept := inv.mono (fun p enqueued => enqueued.later label)
    fun log encoded decoding answered => answered.later label
  refine step_invariant kept ?_ ?_ taken
  · intro p performed joined
    exact ⟨labels, [], state, by rw [performed], before, joined⟩
  · intro now decoding p counters log encoded performed held
    exact ⟨labels, [], state, next, now, p, counters, by rw [performed], before,
      performed ▸ taken, held⟩

theorem changeSlot_generations (s : VideoReceiver Picture) (config : VideoConfig) (port : UInt16)
    (i j : Fin videoSlotCount) :
    s.generations j ≤ (s.changeSlot config port i).generations j ∧
      ((s.slots i).config.same config = false ∨ s.port ≠ port →
        s.generations i < (s.changeSlot config port i).generations i) := by
  by_cases changes : (s.slots i).config.same config = false ∨ s.port ≠ port
  · rw [changeSlot, if_pos changes]
    refine ⟨?_, fun _ => by simp⟩
    rcases eq_or_ne j i with rfl | other
    · simp
    · simp [other]
  · rw [changeSlot, if_neg changes]
    exact ⟨le_rfl, fun changed => absurd changed changes⟩

theorem enqueue_generations (s : VideoReceiver Picture) (slot : Nat) (bytes : List UInt8)
    (now : UInt64) : (s.enqueue slot bytes now).generations = s.generations := by
  rcases enqueue_cases s slot bytes now with ⟨i, _, joined⟩ | ⟨i, dropped⟩ | refused
  · rw [joined]
  · rw [dropped]
    rfl
  · rw [refused]

theorem adopt_generations (s : VideoReceiver Picture) (p : VideoDatagram) :
    (s.adopt p).generations = s.generations := by
  rw [adopt]
  split <;> rfl

theorem publish_generations (s : VideoReceiver Picture) (p : VideoDatagram)
    (counters : FrameCounters) (log : List Feed)
    (completed : Option (List UInt8 × Decoding Picture)) :
    (s.publish p counters log completed).generations = s.generations := by
  rw [publish]
  dsimp only
  split <;> rfl

theorem workerStep_generations {s next : VideoReceiver Picture} {label : Label Picture}
    (taken : s.workerStep label s.worker = some next) : next.generations = s.generations := by
  rw [workerStep.eq_def] at taken
  split at taken
  · split at taken
    · cases taken
    · split at taken <;> cases taken
      rfl
  · split at taken <;> cases taken
    rfl
  · split at taken <;> cases taken
    · rfl
    · exact adopt_generations s _
  · split at taken <;> cases taken
    · rfl
    · exact adopt_generations s _
  · split at taken
    · cases taken
    · split at taken <;> cases taken
      · rfl
      · exact publish_generations s _ _ _ _
  · split at taken
    · cases taken
    · split at taken <;> cases taken <;> rfl
  · cases taken

theorem configureStep_generations {s next : VideoReceiver Picture} {label : Label Picture}
    (taken : s.configureStep label s.edit = some next) (i : Fin videoSlotCount) :
    s.generations i ≤ next.generations i ∧
      (label = .change → s.Changes i → s.generations i < next.generations i) := by
  rw [configureStep.eq_def] at taken
  split at taken <;> cases taken
  · exact ⟨le_rfl, nofun⟩
  · rename_i config port changed remaining editing
    obtain ⟨kept, bumped⟩ := s.changeSlot_generations (config changed) port changed i
    refine ⟨kept, ?_⟩
    rintro _ ⟨config', port', remaining', editing', changes⟩
    rw [editing] at editing'
    cases editing'
    exact bumped changes
  · exact ⟨le_rfl, nofun⟩
  · rw [enqueue_generations]
    exact ⟨le_rfl, nofun⟩
  · exact ⟨le_rfl, nofun⟩

theorem step_generations {s next : VideoReceiver Picture} {label : Label Picture}
    (taken : s.step label = some next) (i : Fin videoSlotCount) :
    s.generations i ≤ next.generations i ∧
      (label = .change → s.Changes i → s.generations i < next.generations i) := by
  cases label with
  | configure _ _ | change | configured | enqueue _ _ _ | stop =>
    refine configureStep_generations ?_ i
    exact taken
  | dequeue | expire _ | assemble _ _ | raise _ _ | publish =>
    exact ⟨(congrFun (workerStep_generations (s := s) taken) i).ge, nofun⟩

theorem run_generations {s final : VideoReceiver Picture} {labels : List (Label Picture)}
    (success : run step s labels = some final) (i : Fin videoSlotCount) :
    s.generations i ≤ final.generations i := by
  induction labels generalizing s with
  | nil =>
    cases success
    exact le_rfl
  | cons label rest ih =>
    obtain ⟨next, taken, later⟩ := run_cons.mp success
    exact (step_generations taken i).1.trans (ih later)

theorem enqueued_generation {before : VideoReceiver Picture} {p : VideoDatagram}
    (joined : (before.enqueue p.slot p.bytes p.timestamp).queue = before.queue ++ [p]) :
    p.generation = before.generations p.slot := by
  rcases enqueue_cases before p.slot p.bytes p.timestamp with
    ⟨i, same, accepted⟩ | ⟨i, dropped⟩ | refused
  · rw [accepted] at joined
    obtain rfl : p.slot = i := Fin.ext same
    have last : VideoDatagram.mk p.slot p.bytes (before.generations p.slot) p.timestamp = p := by
      simpa using joined
    rw [← last]
  · rw [dropped] at joined
    simp [drop] at joined
  · rw [refused] at joined
    simp at joined

theorem Enqueued.sinceChange {labels : List (Label Picture)} {s : VideoReceiver Picture}
    (success : run step {} labels = some s) {p : VideoDatagram} (enqueued : Enqueued labels p)
    (current : p.generation = s.generations p.slot) : EnqueuedSinceChange labels p := by
  obtain ⟨front, back, before, rfl, started, joined⟩ := enqueued
  refine ⟨front, back, before, rfl, started, joined, ?_⟩
  rintro middle rest state rfl reached changes
  obtain ⟨_, start, ending⟩ := run_append.mp
    (show run step {} ((front ++ .enqueue p.slot p.bytes p.timestamp :: middle) ++
      .change :: rest) = some s by simpa using success)
  cases start.symm.trans reached
  obtain ⟨changed, taken, later⟩ := run_cons.mp ending
  obtain ⟨_, first, passed⟩ := run_append.mp reached
  cases first.symm.trans started
  have low := run_generations passed p.slot
  have bump := (step_generations taken p.slot).2 rfl changes
  have high := run_generations later p.slot
  rw [← enqueued_generation joined, current] at low
  omega

/-- The picture in a slot is the decoder's answer for an image that was assembled from
datagrams of that slot and of its generation only, each enqueued after the last change. -/
structure FromCurrent (labels : List (Label Picture)) (s : VideoReceiver Picture)
    (i : Fin videoSlotCount) (shown : VideoSnapshot Picture) : Prop where
  latest : (s.slots i).latest = some shown
  completes : Feed.Completes (s.history i).sources (s.history i).encoded
  decoded : ∃ decoding, Answered labels (s.history i).sources (s.history i).encoded decoding ∧
    decoding.error = "" ∧ decoding.picture = some shown.picture
  sources : ∀ p, .pushed p ∈ (s.history i).sources →
    p.slot = i ∧ p.generation = s.generations i ∧ EnqueuedSinceChange labels p

theorem latest_current {labels : List (Label Picture)} {s : VideoReceiver Picture}
    (success : run step {} labels = some s) {i : Fin videoSlotCount}
    {shown : VideoSnapshot Picture} (latest : (s.slots i).latest = some shown) :
    FromCurrent labels s i shown := by
  have sound := (run_sound success).shown i shown latest
  refine ⟨latest, sound.completes, sound.decoded, ?_⟩
  intro p member
  obtain ⟨enqueued, slot, generation⟩ := sound.gathered p member
  exact ⟨slot, generation, enqueued.sinceChange success (slot ▸ generation)⟩

theorem snapshot_latest {s : VideoReceiver Picture} {slot : Int} {now : UInt64}
    {shown : VideoSnapshot Picture} (seen : s.snapshot slot now = some shown) :
    ∃ i : Fin videoSlotCount, slot = i ∧ (s.slots i).latest = some shown := by
  rw [snapshot] at seen
  split at seen
  · rename_i inside
    dsimp only at seen
    split at seen
    · cases seen
    · refine ⟨⟨slot.toNat, by omega⟩, by simp [inside.1], ?_⟩
      exact (Option.filter_eq_some_iff.mp seen).1
  · cases seen

/-- In every run, a slot holds and shows only images of its own datagrams after
its last change, under growing serials. -/
theorem video_generations_isolated {labels : List (Label Picture)} {s : VideoReceiver Picture}
    (success : run step {} labels = some s) :
    (∀ i shown, (s.slots i).latest = some shown → FromCurrent labels s i shown) ∧
      (∀ slot now shown, s.snapshot slot now = some shown →
        ∃ i : Fin videoSlotCount, slot = i ∧ FromCurrent labels s i shown) ∧
      ∀ i, (s.history i).serials.Pairwise (· < ·) ∧
        ∀ shown, (s.slots i).latest = some shown →
          (s.history i).serials.getLast? = some shown.serial := by
  have inv := run_sound success
  refine ⟨fun i shown latest => latest_current success latest, ?_, ?_⟩
  · intro slot now shown seen
    obtain ⟨i, same, latest⟩ := snapshot_latest seen
    exact ⟨i, same, latest_current success latest⟩
  · intro i
    exact ⟨inv.increasing i, fun shown latest => (inv.shown i shown latest).serial⟩

/-- Configure slot 0, enqueue an image of one datagram and let the worker show it. -/
def shownRun : List (Label Nat) :=
  [.configure ![{ enabled := true, streamName := ascii "A" }, {}] 6980,
    .change, .change, .configured,
    .enqueue 0 (signature ++ [0x8f, 0, 0, 5] ++ List.replicate 20 0 ++ [7]) 100, .dequeue,
    .assemble 200 { picture := some 7, format := "PNG", error := "", width := 1, height := 1 },
    .publish]

theorem video_generations_isolated_shownRun :
    ∃ s shown, run step {} shownRun = some s ∧ s.snapshot 0 300 = some shown ∧
      shown.picture = 7 ∧ FromCurrent shownRun s 0 shown := by
  obtain ⟨s, success⟩ := Option.isSome_iff_exists.mp
    (show (run step ({} : VideoReceiver Nat) shownRun).isSome = true by decide +kernel)
  have seen : (run step ({} : VideoReceiver Nat) shownRun).bind (fun s =>
      (s.snapshot 0 300).map VideoSnapshot.picture) = some 7 := by decide +kernel
  rw [success, Option.bind_some] at seen
  obtain ⟨shown, visible, picture⟩ := Option.map_eq_some_iff.mp seen
  obtain ⟨i, same, current⟩ := (video_generations_isolated success).2.1 0 300 shown visible
  obtain rfl : i = 0 := by exact_mod_cast same.symm
  exact ⟨s, shown, success, visible, picture, current⟩

end VideoReceiver

end VbanStream
