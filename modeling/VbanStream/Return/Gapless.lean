import VbanStream.Return.Progress
import VbanStream.Return.Playing

/-! An undisturbed source is played without a gap: whatever the order of the callback's and the
worker's steps, each packet holds the frames that the source has for its time, and no others. -/

namespace VbanStream

open Library

/-- The packet that the worker serves. -/
def Service.call : Service → Option ServiceCall
  | .entering call | .wantsMonitored call | .wantsRemoved call | .wantsDead call
  | .upgrading call | .counting call | .renewing call | .attaching call | .activity call
  | .comparing call _ | .stale call _ | .rating call _ | .next call _ _ | .fronting call _ _
  | .judging call _ _ _ | .placing call _ _ _ | .popping call _ _ _
  | .checkingMonitored call _ | .checkingRemoved call _ _ | .checkingEpoch call _ _ _ => some call
  | .idle | .detaching | .detachingDead | .unwanted | .restarting => none

/-- How many blocks the loop of `service` may still take. -/
def Service.slack : Service → Nat
  | .next _ _ processed | .fronting _ _ processed => 128 - processed
  | .judging _ _ processed _ | .placing _ _ processed _ | .popping _ _ processed _ =>
    129 - processed
  | .checkingMonitored .. | .checkingRemoved .. | .checkingEpoch .. => 0
  | _ => 128

/-- Where the worker can be while its source is wanted and active. -/
def Service.Steady (attached : Bool) : Service → Prop
  | .idle | .entering _ | .wantsMonitored _ | .wantsRemoved _ | .wantsDead _ | .upgrading _ => True
  | .counting _ | .renewing _ | .attaching _ => attached = false
  | .activity _ => attached = true
  | .comparing _ active | .rating _ active | .checkingMonitored _ active
  | .checkingRemoved _ active _ | .checkingEpoch _ active _ _ => attached = true ∧ active = true
  | .next _ active processed | .fronting _ active processed =>
    attached = true ∧ active = true ∧ processed ≤ 128
  | .judging _ active processed _ | .placing _ active processed _ | .popping _ active processed _ =>
    attached = true ∧ active = true ∧ 1 ≤ processed ∧ processed ≤ 128
  | .detaching | .detachingDead | .unwanted | .stale _ _ | .restarting => False

/-- The blocks that are placed but not popped yet. -/
def Service.held {V : Type*} (ring : CaptureRing V) : Service → List (StampedBlock V)
  | .popping _ _ _ cell => [ring.ring.data cell]
  | _ => []

namespace FencedTap

variable {V : Type*}

def published (s : FencedTap V) : List (StampedBlock V) :=
  (s.ring.map AudioRing.State.published).getD []

def consumed (s : FencedTap V) : List (StampedBlock V) :=
  (s.ring.map AudioRing.State.consumed).getD []

/-- The blocks that are placed. -/
def placed (s : FencedTap V) : List (StampedBlock V) :=
  s.consumed ++ (s.ring.map fun ring => s.service.held ring).getD []

theorem placed_of_held (s : FencedTap V)
    (nothing : ∀ ring : CaptureRing V, s.service.held ring = []) : s.placed = s.consumed := by
  simp only [FencedTap.placed, nothing]
  cases s.ring <;> exact List.append_nil _

/-- The time after the last packet. -/
def reached (s : FencedTap V) : Int :=
  (s.mixes.getLast?.map fun m => (m.call.cursor + returnFrames : Int)).getD 0

/-- The time from which on the timeline is used. -/
def now (s : FencedTap V) : Int := (s.service.call.map ServiceCall.cursor).getD s.reached

variable [Mul V]

/-- The frames of some blocks. -/
def sound (blocks : List (StampedBlock V)) : List (V × V) :=
  performance (blocks.map StampedBlock.block)

/-- What a step may be while nothing disturbs the source: a packet is served when its frames have
been captured. -/
def Undisturbed (source : SteadySource) (s : FencedTap V) : Label V → Prop
  | .capture _ | .captureStep => True
  | .service call =>
    call.enabled = true ∧ call.rate = source.rate ∧ call.lookbehindNs = source.lookbehindNs ∧
      s.reached ≤ call.cursor ∧
      call.cursor + returnFrames ≤ source.origin + (sound s.published).length
  | .serviceStep answers => answers.source = true ∧ answers.active = true
  | _ => False

/-- `Undisturbed`, decided. -/
def undisturbed (source : SteadySource) (s : FencedTap V) : Label V → Bool
  | .capture _ | .captureStep => true
  | .service call =>
    call.enabled && call.rate = source.rate && call.lookbehindNs = source.lookbehindNs &&
      s.reached ≤ call.cursor &&
      call.cursor + returnFrames ≤ source.origin + (sound s.published).length
  | .serviceStep answers => answers.source && answers.active
  | _ => false

theorem undisturbed_iff {source : SteadySource} {s : FencedTap V} {label : Label V} :
    s.undisturbed source label = true ↔ s.Undisturbed source label := by
  cases label <;> simp [undisturbed, Undisturbed, and_assoc]

/-- The blocks captured so far follow each other without a gap, and none lies beyond the window of
the packet that is served. -/
structure Fed (source : SteadySource) (s : FencedTap V) : Prop where
  sequence : Tap.Sequence source.start source.rate source.speakers 0
    (s.published.map StampedBlock.block)
  early : ∀ b ∈ s.published, b.block.timestamp.toNat < 2 ^ 63
  direct : ∀ b ∈ s.published.head?, (Tap.request b.block).Direct source.rate
  inside : ∀ call, s.service.call = some call →
    source.origin + (sound s.published).length ≤ call.cursor + source.window

/-- The packets that have been asked for. -/
def services (labels : List (Label V)) : List ServiceCall :=
  labels.filterMap fun
    | .service call => some call
    | _ => none

theorem sound_append (front back : List (StampedBlock V)) :
    sound (front ++ back) = sound front ++ sound back := by
  rw [sound, List.map_append, performance, List.flatMap_append]
  rfl

theorem sound_length (blocks : List (StampedBlock V)) :
    (sound blocks).length = ((blocks.map StampedBlock.block).map fun b => b.frames.toNat).sum := by
  simp [sound, performance, List.length_flatMap, scaled_length]

variable [Zero V] [Add V]

/-- A packet that holds the frames of some blocks for its time. -/
structure Heard (source : SteadySource) (blocks : List (StampedBlock V)) (m : Mixed V) : Prop where
  due : m.call.cursor + returnFrames ≤ source.origin + (sound blocks).length
  added : ∀ j, j < returnFrames * 2 → (m.added j).value =
    sounded (frameAt (sound blocks) (m.call.cursor + (j / 2 : Nat) - source.origin)) j

/-- A tap of the source after these packets were asked for. -/
structure Gapless (source : SteadySource) (around : Surroundings V) (calls : List ServiceCall)
    (s : FencedTap V) : Prop where
  sound : Sound around s
  monitored : s.monitored = true
  removed : s.removed = false
  dead : s.dead = false
  ready : s.ready = true
  steady : s.service.Steady s.attached
  current : s.attached = true ∨ (∃ call, s.service = .attaching call) → s.workerEpoch = s.epoch
  present : s.attached = true ∨ s.service.Prepares → s.ring.isSome = true
  unattached : s.attached = false → s.published = []
  epochs : ∀ b ∈ s.published, b.epoch = s.epoch
  stamp : ∀ stamp, s.capture.stamp = some stamp → stamp.epoch = s.epoch
  plays : TracedTap.Plays source around.resampling s.audio s.now (s.placed.map StampedBlock.block)
  asked : ∀ call, s.service.call = some call →
    call.enabled = true ∧ call.rate = source.rate ∧ call.lookbehindNs = source.lookbehindNs
  due : ∀ call, s.service.call = some call → ∃ count ≤ s.published.length,
    call.cursor + returnFrames ≤
      source.origin + (FencedTap.sound (s.published.take count)).length ∧
      count ≤ s.consumed.length + s.service.slack
  calls : calls = s.mixes.map Mixed.call ++ s.service.call.toList
  heard : ∀ m ∈ s.mixes, Heard source s.published m

theorem Heard.later {source : SteadySource} {blocks : List (StampedBlock V)} {m : Mixed V}
    (heard : Heard source blocks m) (more : List (StampedBlock V)) :
    Heard source (blocks ++ more) m := by
  have due := heard.due
  simp only [returnFrames, Nat.cast_ofNat] at due
  refine ⟨?_, fun j inside => ?_⟩
  · rw [sound_append, List.length_append]
    simp only [returnFrames, Nat.cast_ofNat, Nat.cast_add]
    omega
  · rw [heard.added j inside, sound_append, frameAt_append]
    simp only [returnFrames] at inside
    by_cases begun : 0 ≤ m.call.cursor + (j / 2 : Nat) - source.origin
    · rw [Option.or_of_isSome (frameAt_isSome begun (by omega))]
    · rw [frameAt, if_neg begun, frameAt, if_neg (by omega), Option.none_or]

section Sequences

variable {S : Type*} {start : UInt64} {rate : UInt32} {speakers : UInt8}

/-- A block of a sequence, by what lies before it. -/
theorem sequence_middle {front back : List (MonitorBlock S)} {block : MonitorBlock S} {before : Nat}
    (sequence : Tap.Sequence start rate speakers before (front ++ block :: back))
    (audible : 1000 ≤ rate.toNat) (small : rate.toNat ≤ 1000000)
    (fits : start.toNat + nanoseconds before rate.toNat < 2 ^ 64)
    (early : ∀ b ∈ front, b.timestamp.toNat < 2 ^ 63) :
    let before := before + (front.map fun b => b.frames.toNat).sum
    Tap.Stamped start rate before block ∧ Tap.Plain block rate speakers ∧
      start.toNat + nanoseconds before rate.toNat < 2 ^ 64 := by
  induction front generalizing before with
  | nil =>
    cases sequence with
    | cons stamped plain => exact ⟨stamped, plain, fits⟩
  | cons first rest ih =>
    cases sequence with
    | cons stamped plain short onward =>
      obtain ⟨soon, later⟩ := List.forall_mem_cons.mp early
      obtain ⟨near, -, -⟩ := stamped.frames audible small fits soon
      rw [List.map_cons, List.sum_cons, ← Nat.add_assoc]
      exact ih onward (Tap.Stamped.room audible soon near short) later

end Sequences

section Moves

variable {source : SteadySource} {around : Surroundings V} {calls : List ServiceCall}
  {s : FencedTap V}

/-- The worker goes on with its packet: what is placed stays, and what is due comes nearer. -/
theorem Gapless.serve (gapless : Gapless source around calls s) {ring : Option (CaptureRing V)}
    {after : Service} (sound : Sound around { s with ring, service := after })
    (published : ({ s with ring, service := after } : FencedTap V).published = s.published)
    (placed : ({ s with ring, service := after } : FencedTap V).placed = s.placed)
    (present : s.attached = true ∨ after.Prepares → ring.isSome = true)
    (call : after.call = s.service.call)
    (slack : s.consumed.length + s.service.slack ≤
        ({ s with ring, service := after } : FencedTap V).consumed.length + after.slack ∨
      s.published.length ≤
        ({ s with ring, service := after } : FencedTap V).consumed.length + after.slack)
    (steady : after.Steady s.attached)
    (current : (∃ call, after = .attaching call) → s.workerEpoch = s.epoch) :
    Gapless source around calls { s with ring, service := after } where
  sound := sound
  monitored := gapless.monitored
  removed := gapless.removed
  dead := gapless.dead
  ready := gapless.ready
  steady := steady
  current here := here.elim (fun attached => gapless.current (.inl attached)) current
  present := present
  unattached detached := published.trans (gapless.unattached detached)
  epochs := published ▸ gapless.epochs
  stamp := gapless.stamp
  plays := by
    have now : ({ s with ring, service := after } : FencedTap V).now = s.now := by
      rw [FencedTap.now, FencedTap.now, call]
      rfl
    rw [now, placed]
    exact gapless.plays
  asked other here := gapless.asked other (call ▸ here)
  due other here := by
    obtain ⟨count, room, frames, few⟩ := gapless.due other (call ▸ here)
    rw [published]
    refine ⟨count, room, frames, ?_⟩
    rcases slack with nearer | done
    · exact few.trans nearer
    · exact room.trans done
  calls := call ▸ gapless.calls
  heard := published ▸ gapless.heard

/-- The callback goes on: it may publish blocks of the current epoch. -/
theorem Gapless.produce (gapless : Gapless source around calls s) {ring : Option (CaptureRing V)}
    {after : Capture V} (sound : Sound around { s with ring, capture := after })
    (more : List (StampedBlock V))
    (published : ({ s with ring, capture := after } : FencedTap V).published = s.published ++ more)
    (epochs : ∀ b ∈ more, b.epoch = s.epoch) (attached : s.attached = true)
    (consumed : ({ s with ring, capture := after } : FencedTap V).consumed = s.consumed)
    (placed : ({ s with ring, capture := after } : FencedTap V).placed = s.placed)
    (present : ring.isSome = true)
    (stamp : ∀ stamp, after.stamp = some stamp → stamp.epoch = s.epoch) :
    Gapless source around calls { s with ring, capture := after } where
  sound := sound
  monitored := gapless.monitored
  removed := gapless.removed
  dead := gapless.dead
  ready := gapless.ready
  steady := gapless.steady
  current := gapless.current
  present _ := present
  unattached detached := Bool.noConfusion (attached.symm.trans detached)
  epochs := by
    rw [published]
    exact List.forall_mem_append.mpr ⟨gapless.epochs, epochs⟩
  stamp := stamp
  plays := by
    rw [placed]
    exact gapless.plays
  asked := gapless.asked
  due call here := by
    obtain ⟨count, room, frames, few⟩ := gapless.due call here
    rw [published, consumed]
    refine ⟨count, ?_, ?_, few⟩
    · rw [List.length_append]
      exact room.trans (Nat.le_add_right ..)
    · rwa [List.take_append_of_le_length room]
  calls := gapless.calls
  heard m member := by
    rw [published]
    exact (gapless.heard m member).later more

/-- The callback's step on the ring, other than `publish`. -/
theorem Gapless.work (gapless : Gapless source around calls s) {ring next : CaptureRing V}
    {after : Capture V} (here : s.ring = some ring) (attached : s.attached = true)
    (published : next.published = ring.published) (consumed : next.consumed = ring.consumed)
    (held : s.service.held next = s.service.held ring)
    (sound : Sound around { s with ring := some next, capture := after })
    (stamp : ∀ stamp, after.stamp = some stamp → stamp.epoch = s.epoch) :
    Gapless source around calls { s with ring := some next, capture := after } := by
  have same : s.published = ring.published := by rw [FencedTap.published, here]; rfl
  have taken : s.consumed = ring.consumed := by rw [FencedTap.consumed, here]; rfl
  have placed : s.placed = ring.consumed ++ s.service.held ring := by
    rw [FencedTap.placed, taken, here]
    rfl
  refine gapless.produce sound [] ?_ (List.forall_mem_nil _) attached ?_ ?_ rfl stamp
  · rw [same, List.append_nil, ← published]
    rfl
  · rw [taken, ← consumed]
    rfl
  · rw [placed, ← consumed, ← held]
    rfl

theorem Gapless.captureStep (gapless : Gapless source around calls s) {next : FencedTap V}
    (sound : Sound around next) (taken : s.captureStep s.capture = some next) :
    Gapless source around calls next := by
  have attached : s.capture ≠ .idle → s.attached = true := by
    intro running
    by_contra detached
    exact running (gapless.sound.quiet (.inl (Bool.not_eq_true _ ▸ detached)))
  have stamped := gapless.stamp
  have produced := gapless.sound.ring
  generalize here : s.capture = place at taken attached stamped produced
  have turn {after : Capture V} (running : place ≠ .idle)
      (sound : Sound around { s with capture := after })
      (stamp : ∀ stamp, after.stamp = some stamp → stamp.epoch = s.epoch) :
      Gapless source around calls { s with capture := after } := by
    refine gapless.produce sound [] (List.append_nil _).symm (List.forall_mem_nil _)
      (attached running) rfl rfl (gapless.present (.inl (attached running))) stamp
  cases place with
  | idle => cases taken
  | monitored call =>
    cases taken
    refine turn (by rintro ⟨⟩) sound ?_
    split <;> rintro _ ⟨⟩
  | removed call =>
    cases taken
    refine turn (by rintro ⟨⟩) sound ?_
    split <;> rintro _ ⟨⟩
  | generation call =>
    cases taken
    refine turn (by rintro ⟨⟩) sound ?_
    rintro _ ⟨⟩
    rfl
  | next call stamp start =>
    simp only [FencedTap.captureStep] at taken
    split at taken
    · obtain ⟨ring, ring', present, worked, rfl⟩ := onRing_map taken
      obtain ⟨_, same⟩ := Option.ite_none_right_eq_some.mp worked
      cases same
      exact gapless.work present (attached (by rintro ⟨⟩)) rfl rfl rfl sound stamped
    · cases taken
      exact turn (by rintro ⟨⟩) sound (by rintro _ ⟨⟩)
  | claiming call stamp start =>
    obtain ⟨ring, ring', present, worked, rfl⟩ := onRing_map taken
    obtain ⟨w, loaded⟩ := (produced ring present).produces
    simp only [AudioRing.step, loaded] at worked
    split at worked <;> cases worked
    · exact gapless.work present (attached (by rintro ⟨⟩)) rfl rfl rfl sound (by rintro _ ⟨⟩)
    · exact gapless.work present (attached (by rintro ⟨⟩)) rfl rfl rfl sound stamped
  | filling call stamp start =>
    obtain ⟨ring, ring', present, worked, rfl⟩ := onRing_map taken
    have old := produced ring present
    obtain ⟨cell, filling⟩ := old.produces
    simp only [AudioRing.step, filling] at worked
    cases worked
    refine gapless.work present (attached (by rintro ⟨⟩)) rfl rfl ?_ sound stamped
    -- The cell that is filled is not the one that the worker holds.
    cases place : s.service with
    | popping request active processed held =>
      have holding : ring.consumer = .holding held := by
        have consumes := old.consumes
        rw [place] at consumes
        exact consumes
      have apart := old.inv.apart filling holding
      simp only [Service.held, AudioRing.store, Function.update_of_ne apart]
    | _ => rfl
  | filled call stamp start =>
    obtain ⟨ring, ring', present, worked, rfl⟩ := onRing_map taken
    obtain ⟨cell, filling, stored⟩ := (produced ring present).produces
    simp only [AudioRing.step, filling] at worked
    cases worked
    have epoch := stamped stamp rfl
    refine gapless.produce sound [ring.ring.data cell] ?_ ?_ (attached (by rintro ⟨⟩)) ?_ ?_ rfl
      stamped
    · rw [FencedTap.published, FencedTap.published, present]
      rfl
    · intro b member
      rw [List.mem_singleton.mp member, stored]
      exact epoch
    · rw [FencedTap.consumed, FencedTap.consumed, present]
      rfl
    · rw [FencedTap.placed, FencedTap.placed, FencedTap.consumed, FencedTap.consumed, present]
      cases s.service <;> rfl
  | published call stamp start =>
    obtain ⟨ring, ring', present, worked, rfl⟩ := onRing_map taken
    obtain ⟨_, same⟩ := Option.ite_none_right_eq_some.mp worked
    cases same
    exact gapless.work present (attached (by rintro ⟨⟩)) rfl rfl rfl sound stamped
  | sizing call stamp start =>
    obtain ⟨ring, ring', present, worked, rfl⟩ := onRing_map taken
    obtain ⟨w, sizing⟩ := (produced ring present).produces
    simp only [AudioRing.step, sizing] at worked
    cases worked
    exact gapless.work present (attached (by rintro ⟨⟩)) rfl rfl rfl sound stamped

/-- The worker goes on without the ring. -/
theorem Gapless.move (gapless : Gapless source around calls s) {after : Service}
    (sound : Sound around { s with service := after }) (call : after.call = s.service.call)
    (slack : s.service.slack ≤ after.slack)
    (held : ∀ ring : CaptureRing V, after.held ring = s.service.held ring)
    (steady : after.Steady s.attached) (present : after.Prepares → s.service.Prepares)
    (current : (∃ call, after = .attaching call) → s.workerEpoch = s.epoch) :
    Gapless source around calls { s with service := after } := by
  refine gapless.serve sound rfl ?_ (fun here => gapless.present (here.imp_right present)) call
    (.inl ?_) steady current
  · simp only [FencedTap.placed, FencedTap.consumed, held]
  · exact Nat.add_le_add_left slack _

/-- The worker's step on the ring. -/
theorem Gapless.consume (gapless : Gapless source around calls s) {ring next : CaptureRing V}
    {after : Service} (here : s.ring = some ring)
    (sound : Sound around { s with ring := some next, service := after })
    (published : next.published = ring.published)
    (placed : next.consumed ++ after.held next = ring.consumed ++ s.service.held ring)
    (call : after.call = s.service.call)
    (slack : ring.consumed.length + s.service.slack ≤ next.consumed.length + after.slack ∨
      ring.published.length ≤ next.consumed.length + after.slack)
    (steady : after.Steady s.attached)
    (current : (∃ call, after = .attaching call) → s.workerEpoch = s.epoch) :
    Gapless source around calls { s with ring := some next, service := after } := by
  have same : s.published = ring.published := by rw [FencedTap.published, here]; rfl
  have taken : s.consumed = ring.consumed := by rw [FencedTap.consumed, here]; rfl
  refine gapless.serve sound ?_ ?_ (fun _ => rfl) call ?_ steady current
  · rw [same, ← published]
    rfl
  · rw [FencedTap.placed, FencedTap.placed, taken, here]
    exact placed
  · rw [taken, same]
    exact slack

/-- After the loop the source is active still, and all that is due has been consumed. -/
theorem Gapless.finish (gapless : Gapless source around calls s) {ring next : CaptureRing V}
    {call : ServiceCall} {processed : Nat} (here : s.ring = some ring)
    (place : s.service = .fronting call true processed)
    (sound : Sound around { s with ring := some next, service := FencedTap.finish call true })
    (published : next.published = ring.published) (consumed : next.consumed = ring.consumed)
    (done : processed = 128 ∨ ring.published.length ≤ ring.consumed.length) :
    Gapless source around calls
      { s with ring := some next, service := FencedTap.finish call true } := by
  have steady := gapless.steady
  rw [place] at steady
  refine gapless.consume here sound published ?_ ?_ ?_ ⟨steady.1, rfl⟩ ?_
  · rw [place, consumed]
    rfl
  · rw [place]
    rfl
  · rw [place, consumed]
    refine done.imp (fun all => ?_) id
    simp [Service.slack, FencedTap.finish, all]
  · rintro ⟨_, attaching⟩
    cases attaching

/-- The worker finds the next block, or has found the ring empty. -/
theorem Gapless.front (gapless : Gapless source around calls s) {next : FencedTap V}
    {call : ServiceCall} {active : Bool} {processed : Nat}
    (place : s.service = .fronting call active processed) (sound : Sound around next)
    {answers : SourceAnswers}
    (taken : s.serviceStep around answers (.fronting call active processed) = some next) :
    Gapless source around calls next := by
  have steady := gapless.steady
  have consumed := gapless.sound.ring
  rw [place] at steady consumed
  obtain ⟨attached, rfl, few⟩ := steady
  obtain ⟨_, read, rest⟩ := Option.bind_eq_some_iff.mp taken
  obtain ⟨ring, present, moved⟩ := Option.bind_eq_some_iff.mp read
  obtain ⟨ring', worked, rfl⟩ := Option.map_eq_some_iff.mp moved
  obtain ⟨queue, holds, -, knows⟩ := (consumed ring present).inv
  obtain ⟨r, loaded⟩ := (consumed ring present).consumes
  rw [loaded] at knows
  have counter : r = ring.ring.read := knows
  simp only [AudioRing.step, loaded] at worked
  split at worked <;> cases worked
  · rename_i nothing
    have empty : queue = [] := by
      by_contra some
      rw [AudioRing.front, counter, if_neg (mt holds.occupied.mp some)] at nothing
      cases nothing
    simp only [Option.map_some, Option.some.injEq] at rest
    subst rest
    refine gapless.finish present place sound rfl rfl (.inr ?_)
    rw [holds.conserved, empty, List.append_nil]
  · simp only [Option.map_some] at rest
    split at rest
    · rename_i full
      obtain ⟨ring, ring'', same, left, rfl⟩ := onRing_map rest
      cases same
      simp only [AudioRing.step, Option.some.injEq] at left
      subst left
      refine gapless.finish present place sound rfl rfl (.inl ?_)
      have all : captureBlocks.toNat = 128 := rfl
      omega
    · rename_i room
      cases rest
      have all : captureBlocks.toNat = 128 := rfl
      refine gapless.consume present sound rfl ?_ ?_ ?_ ⟨attached, rfl, by omega, by omega⟩ ?_
      · rw [place]
        rfl
      · rw [place]
        rfl
      · rw [place]
        left
        simp only [Service.slack]
        omega
      · rintro ⟨_, attaching⟩
        cases attaching

omit [Zero V] [Add V] in
/-- The block that the worker holds comes next, and lies inside the window. -/
theorem Fed.continues (fed : s.Fed source) {front back : List (StampedBlock V)}
    {b : StampedBlock V} (published : s.published = front ++ b :: back) {call : ServiceCall}
    (serving : s.service.call = some call) :
    TracedTap.Continues source (front.map StampedBlock.block) b.block ∧
      source.origin + (sound front).length + b.block.frames.toNat ≤
        call.cursor + source.window := by
  have sequence := fed.sequence
  have early := fed.early
  have inside := fed.inside call serving
  rw [published] at sequence early inside
  rw [List.map_append, List.map_cons] at sequence
  obtain ⟨stamped, plain, fits⟩ := sequence_middle sequence source.audible source.small
    (by simp [nanoseconds, source.start.toNat_lt]) (by
      intro block member
      obtain ⟨b, old, rfl⟩ := List.mem_map.mp member
      exact early b (List.mem_append_left _ old))
  rw [← sound_length, Nat.zero_add] at stamped fits
  refine ⟨⟨stamped, plain, fits, early b (by simp), ?_⟩, ?_⟩
  · intro first
    refine fed.direct b ?_
    rw [published, List.map_eq_nil_iff.mp first]
    rfl
  · rw [sound_append, List.length_append, sound_length (b :: back), List.map_cons, List.map_cons,
      List.sum_cons, Nat.cast_add, Nat.cast_add] at inside
    omega

theorem Gapless.consumed_prefix (gapless : Gapless source around calls s) :
    s.consumed <+: s.published := by
  cases here : s.ring with
  | none => simp [FencedTap.consumed, here]
  | some ring =>
    obtain ⟨queue, holds, -, -⟩ := (gapless.sound.ring ring here).inv
    rw [FencedTap.consumed, FencedTap.published, here]
    exact ⟨queue, holds.conserved.symm⟩

/-- The held block is placed. -/
theorem Gapless.place (gapless : Gapless source around calls s) (fed : s.Fed source)
    (passes : around.resampling.Passes source) {call : ServiceCall} {active : Bool}
    {processed cell : Nat} (here : s.service = .placing call active processed cell)
    {ring : CaptureRing V} (present : s.ring = some ring)
    (sound : Sound around { s with
      audio := s.audio.place around.resampling around.blend call.rate call.cursor
        call.lookbehindNs (ring.ring.data cell).block
      service := .popping call active processed cell }) :
    Gapless source around calls { s with
      audio := s.audio.place around.resampling around.blend call.rate call.cursor
        call.lookbehindNs (ring.ring.data cell).block
      service := .popping call active processed cell } := by
  have serving : s.service.call = some call := by rw [here]; rfl
  obtain ⟨-, rate, lookbehind⟩ := gapless.asked call serving
  have placing := gapless.sound.ring ring present
  rw [here] at placing
  obtain ⟨queue, holds, -, knows⟩ := placing.inv
  rw [placing.consumes.1] at knows
  obtain ⟨oldest, waiting⟩ := knows
  obtain ⟨block, back, rfl⟩ := List.exists_cons_of_ne_nil waiting
  have found : ring.ring.data cell = block := by
    rw [oldest]
    exact holds.stored.front
  have published : s.published = ring.consumed ++ block :: back := by
    rw [FencedTap.published, present]
    exact holds.conserved
  have placed : s.placed = ring.consumed := by
    rw [FencedTap.placed, FencedTap.consumed, present, here]
    exact List.append_nil _
  have now : s.now = call.cursor := by rw [FencedTap.now, serving]; rfl
  obtain ⟨next, inside⟩ := fed.continues published serving
  have plays := gapless.plays
  rw [placed, now] at plays
  have after := plays.place passes around.blend next inside
  have steady := gapless.steady
  have due := gapless.due
  rw [here] at steady due
  refine ⟨sound, gapless.monitored, gapless.removed, gapless.dead, gapless.ready, steady, ?_,
    fun _ => gapless.present (.inl steady.1), gapless.unattached, gapless.epochs, gapless.stamp,
    ?_, ?_, due, ?_,
    gapless.heard⟩
  · exact fun _ => gapless.current (.inl steady.1)
  · rw [rate, lookbehind, found]
    have grown : ({ s with service := .popping call active processed cell } :
        FencedTap V).placed = ring.consumed ++ [block] := by
      rw [FencedTap.placed, FencedTap.consumed, present, ← found]
      rfl
    rw [← List.map_singleton (f := StampedBlock.block), ← List.map_append, ← grown] at after
    exact after
  · exact fun other same => gapless.asked other (by rw [here]; exact same)
  · rw [gapless.calls, here]
    rfl

/-- The packet is mixed, and holds all frames of its time. -/
theorem Gapless.mix (gapless : Gapless source around calls s) {call : ServiceCall}
    {active monitored removed : Bool}
    (here : s.service = .checkingEpoch call active monitored removed)
    {m : Mixed V} (asked : m.call = call)
    (added : m.added = (s.audio.mix call.cursor returnFrames).2)
    (sound : Sound around { s with
      audio := (s.audio.mix call.cursor returnFrames).1
      service := .idle
      mixes := s.mixes ++ [m] }) :
    Gapless source around calls { s with
      audio := (s.audio.mix call.cursor returnFrames).1
      service := .idle
      mixes := s.mixes ++ [m] } := by
  have serving : s.service.call = some call := by rw [here]; rfl
  have now : s.now = call.cursor := by rw [FencedTap.now, serving]; rfl
  have placed : s.placed = s.consumed := placed_of_held s fun _ => by rw [here]; rfl
  have plays := gapless.plays
  rw [placed, now] at plays
  obtain ⟨after, values⟩ := plays.mix returnFrames
  obtain ⟨count, room, frames, few⟩ := gapless.due call serving
  rw [here] at few
  obtain ⟨queue, whole⟩ := gapless.consumed_prefix
  have full : call.cursor + returnFrames ≤ source.origin + (FencedTap.sound s.consumed).length := by
    have split := congrArg (fun blocks => (FencedTap.sound blocks).length)
      (List.take_append_drop count s.consumed)
    simp only [sound_append, List.length_append] at split
    rw [← whole, List.take_append_of_le_length few] at frames
    omega
  have heard : Heard source s.consumed m := by
    refine ⟨asked ▸ full, fun j inside => ?_⟩
    rw [added, values j inside, asked]
    rfl
  have steady := gapless.steady
  rw [here] at steady
  refine ⟨sound, gapless.monitored, gapless.removed, gapless.dead, gapless.ready, trivial, ?_,
    fun _ => gapless.present (.inl steady.1), gapless.unattached, gapless.epochs, gapless.stamp,
    ?_, nofun, nofun, ?_, ?_⟩
  · exact fun _ => gapless.current (.inl steady.1)
  · rw [placed_of_held _ fun _ => rfl]
    simp only [FencedTap.now, FencedTap.reached, List.getLast?_concat, Service.call,
      Option.map_none, Option.map_some, Option.getD_none, Option.getD_some, asked]
    exact after
  · rw [gapless.calls, here, List.map_append, List.map_singleton, asked]
    exact (List.append_nil _).symm
  · intro other member
    rcases List.mem_append.mp member with old | new
    · exact gapless.heard other old
    · rw [List.mem_singleton.mp new]
      have later := heard.later queue
      rw [whole] at later
      exact later

theorem Gapless.nothing (gapless : Gapless source around calls s) (detached : s.attached = false)
    (held : ∀ ring : CaptureRing V, s.service.held ring = []) :
    s.consumed = [] ∧ s.placed = [] := by
  have none : s.consumed = [] := by
    have front := gapless.consumed_prefix
    rwa [gapless.unattached detached, List.prefix_nil] at front
  exact ⟨none, (placed_of_held s held).trans none⟩

/-- The worker makes a new ring. -/
theorem Gapless.upgrade (gapless : Gapless source around calls s) {call : ServiceCall}
    (here : s.service = .upgrading call) (detached : s.attached = false)
    (sound : Sound around
      { s with ring := some (.initial around.blank), service := .counting call }) :
    Gapless source around calls
      { s with ring := some (.initial around.blank), service := .counting call } := by
  obtain ⟨none, empty⟩ := gapless.nothing detached fun _ => by rw [here]; rfl
  refine gapless.serve sound ?_ ?_ (fun _ => rfl) ?_ (.inl ?_) detached nofun
  · exact (gapless.unattached detached).symm
  · exact empty.symm
  · rw [here]
    rfl
  · rw [here, none]
    rfl

/-- The epoch is counted up, while no block carries the old one. -/
theorem Gapless.count (gapless : Gapless source around calls s) {call : ServiceCall}
    (here : s.service = .counting call)
    (sound : Sound around { s.bump with service := .renewing call }) :
    Gapless source around calls { s.bump with service := .renewing call } := by
  have steady := gapless.steady
  have plays := gapless.plays
  have asked := gapless.asked
  have due := gapless.due
  have called := gapless.calls
  rw [here] at steady asked due called
  have now : s.now = call.cursor := by rw [FencedTap.now, here]; rfl
  have detached : s.attached = false := steady
  obtain ⟨none, empty⟩ := gapless.nothing detached fun _ => by rw [here]; rfl
  rw [empty, now] at plays
  refine ⟨sound, gapless.monitored, gapless.removed, gapless.dead, gapless.ready, steady, ?_,
    fun _ => gapless.present (.inr (by rw [here]; trivial)), gapless.unattached, ?_, ?_, ?_, asked,
    due, called, gapless.heard⟩
  · rintro (attached | ⟨_, ⟨⟩⟩)
    exact Bool.noConfusion (detached.symm.trans attached)
  · intro b member
    have inside : b ∈ s.published := member
    rw [gapless.unattached detached] at inside
    cases inside
  · intro stamp found
    have calling : s.capture.stamp = some stamp := found
    rw [gapless.sound.quiet (.inl detached)] at calling
    cases calling
  · have same := (placed_of_held { s.bump with service := .renewing call } fun _ => rfl).trans none
    rw [same]
    exact plays

/-- A reset, while nothing has been captured. -/
theorem Gapless.renew (gapless : Gapless source around calls s) {call : ServiceCall}
    (here : s.service = .renewing call)
    (sound : Sound around { s.resetAudio with service := .attaching call }) :
    Gapless source around calls { s.resetAudio with service := .attaching call } := by
  have steady := gapless.steady
  have asked := gapless.asked
  have due := gapless.due
  have called := gapless.calls
  have plays := gapless.plays
  rw [here] at steady asked due called
  have now : s.now = call.cursor := by rw [FencedTap.now, here]; rfl
  obtain ⟨none, empty⟩ := gapless.nothing steady fun _ => by rw [here]; rfl
  rw [empty, now] at plays
  refine ⟨sound, gapless.monitored, gapless.removed, gapless.dead, gapless.ready, steady,
    fun _ => rfl, fun _ => gapless.present (.inr (by rw [here]; trivial)), gapless.unattached,
    gapless.epochs, gapless.stamp, ?_, asked, due, called, gapless.heard⟩
  have same :=
    (placed_of_held { s.resetAudio with service := .attaching call } fun _ => rfl).trans none
  rw [same]
  exact plays.reset

theorem Gapless.attach (gapless : Gapless source around calls s) {call : ServiceCall}
    (here : s.service = .attaching call)
    (sound : Sound around { s with attached := true, service := .activity call }) :
    Gapless source around calls { s with attached := true, service := .activity call } := by
  have steady := gapless.steady
  have plays := gapless.plays
  have asked := gapless.asked
  have due := gapless.due
  have called := gapless.calls
  rw [here] at steady asked due called
  have now : s.now = call.cursor := by rw [FencedTap.now, here]; rfl
  obtain ⟨none, empty⟩ := gapless.nothing steady fun _ => by rw [here]; rfl
  rw [empty, now] at plays
  refine ⟨sound, gapless.monitored, gapless.removed, gapless.dead, gapless.ready, rfl,
    fun _ => gapless.current (.inr ⟨call, here⟩),
    fun _ => gapless.present (.inr (by rw [here]; trivial)), nofun, gapless.epochs, gapless.stamp,
    ?_, asked, due, called, gapless.heard⟩
  have same := (placed_of_held { s with attached := true, service := .activity call }
    fun _ => rfl).trans none
  rw [same]
  exact plays

/-- The block that the worker holds is one of the current epoch. -/
theorem Gapless.judge (gapless : Gapless source around calls s) {call : ServiceCall} {active : Bool}
    {processed cell : Nat} (here : s.service = .judging call active processed cell)
    {ring : CaptureRing V} (present : s.ring = some ring) :
    ¬((ring.ring.data cell).epoch ≠ s.workerEpoch ∨ active = false) := by
  have steady := gapless.steady
  have judging := gapless.sound.ring ring present
  rw [here] at steady judging
  obtain ⟨attached, rfl, -⟩ := steady
  have member : ring.ring.data cell ∈ s.published := by
    rw [FencedTap.published, present]
    exact judging.inv.held judging.consumes
  rw [gapless.current (.inl attached), gapless.epochs _ member]
  simp

theorem Gapless.serviceStep (gapless : Gapless source around calls s) (fed : s.Fed source)
    (passes : around.resampling.Passes source) {next : FencedTap V} (sound : Sound around next)
    {answers : SourceAnswers} (lives : answers.source = true) (active : answers.active = true)
    (taken : s.serviceStep around answers s.service = some next) :
    Gapless source around calls next := by
  have steady := gapless.steady
  have consumed := gapless.sound.ring
  have move {after : Service} (sound : Sound around { s with service := after })
      (call : after.call = s.service.call) (slack : s.service.slack ≤ after.slack)
      (held : ∀ ring : CaptureRing V, after.held ring = s.service.held ring)
      (steady : after.Steady s.attached) (present : after.Prepares → s.service.Prepares)
      (current : (∃ call, after = .attaching call) → s.workerEpoch = s.epoch) :=
    gapless.move sound call slack held steady present current
  generalize here : s.service = place at taken steady consumed move
  cases place with
  | idle => cases taken
  | entering call =>
    cases taken
    rw [if_pos gapless.ready, if_pos (gapless.asked call (by rw [here]; rfl)).1] at sound ⊢
    exact move sound rfl le_rfl (fun _ => rfl) trivial (by rintro ⟨⟩) (by rintro ⟨_, ⟨⟩⟩)
  | wantsMonitored call =>
    cases taken
    rw [if_pos gapless.monitored] at sound ⊢
    exact move sound rfl le_rfl (fun _ => rfl) trivial (by rintro ⟨⟩) (by rintro ⟨_, ⟨⟩⟩)
  | wantsRemoved call =>
    cases taken
    rw [if_neg (by simp [gapless.removed])] at sound ⊢
    exact move sound rfl le_rfl (fun _ => rfl) trivial (by rintro ⟨⟩) (by rintro ⟨_, ⟨⟩⟩)
  | wantsDead call =>
    cases taken
    rw [if_neg (by simp [gapless.dead])] at sound ⊢
    exact move sound rfl le_rfl (fun _ => rfl) trivial (by rintro ⟨⟩) (by rintro ⟨_, ⟨⟩⟩)
  | upgrading call =>
    simp only [FencedTap.serviceStep] at taken
    rw [if_neg (by simp [lives])] at taken
    split at taken
    · rename_i attached
      cases taken
      exact move sound rfl le_rfl (fun _ => rfl) attached (by rintro ⟨⟩) (by rintro ⟨_, ⟨⟩⟩)
    · rename_i detached
      cases taken
      exact gapless.upgrade here (Bool.eq_false_iff.mpr detached) sound
  | counting call =>
    cases taken
    exact gapless.count here sound
  | renewing call =>
    cases taken
    exact gapless.renew here sound
  | attaching call =>
    cases taken
    exact gapless.attach here sound
  | activity call =>
    cases taken
    rw [active] at sound ⊢
    exact move sound rfl le_rfl (fun _ => rfl) ⟨steady, rfl⟩ (by rintro ⟨⟩) (by rintro ⟨_, ⟨⟩⟩)
  | comparing call active =>
    cases taken
    rw [if_neg (not_not.mpr (gapless.current (.inl steady.1)))] at sound ⊢
    exact move sound rfl le_rfl (fun _ => rfl) steady (by rintro ⟨⟩) (by rintro ⟨_, ⟨⟩⟩)
  | rating call active =>
    simp only [FencedTap.serviceStep] at taken
    cases taken
    have same : ¬(s.audio.tap.outputRate ≠ 0 ∧ s.audio.tap.outputRate ≠ call.rate) := by
      rw [(gapless.asked call (by rw [here]; rfl)).2.1, not_and_or, not_not, not_not]
      exact gapless.plays.outputRate
    rw [if_neg same] at sound ⊢
    exact move sound rfl le_rfl (fun _ => rfl) ⟨steady.1, steady.2, Nat.zero_le _⟩
      (by rintro ⟨⟩) (by rintro ⟨_, ⟨⟩⟩)
  | next call active processed =>
    obtain ⟨ring, ring', present, worked, rfl⟩ := onRing_map taken
    obtain ⟨_, same⟩ := Option.ite_none_right_eq_some.mp worked
    cases same
    refine gapless.consume present sound rfl ?_ ?_ (.inl ?_) steady (by rintro ⟨_, ⟨⟩⟩)
    · rw [here]
      rfl
    · rw [here]
      rfl
    · rw [here]
      exact le_rfl
  | fronting call active processed => exact gapless.front here sound taken
  | judging call active processed cell =>
    obtain ⟨ring, present, rfl⟩ := Option.map_eq_some_iff.mp taken
    have kept := gapless.judge here present
    dsimp only at sound ⊢
    rw [if_neg kept] at sound ⊢
    exact move sound rfl le_rfl (fun _ => rfl) steady (by rintro ⟨⟩) (by rintro ⟨_, ⟨⟩⟩)
  | placing call active processed cell =>
    obtain ⟨ring, present, rfl⟩ := Option.map_eq_some_iff.mp taken
    exact gapless.place fed passes here present sound
  | popping call active processed cell =>
    obtain ⟨ring, ring', present, worked, rfl⟩ := onRing_map taken
    have holding : ring.consumer = .holding cell := (consumed ring present).consumes
    simp only [AudioRing.step, holding] at worked
    cases worked
    obtain ⟨attached, active, begun, few⟩ := steady
    refine gapless.consume present sound rfl ?_ ?_ (.inl ?_) ⟨attached, active, few⟩
      (by rintro ⟨_, ⟨⟩⟩)
    · rw [here]
      exact List.append_nil _
    · rw [here]
      rfl
    · rw [here]
      simp only [Service.slack, List.length_append, List.length_singleton]
      omega
  | checkingMonitored call active =>
    cases taken
    rw [if_pos gapless.monitored] at sound ⊢
    exact move sound rfl le_rfl (fun _ => rfl) steady (by rintro ⟨⟩) (by rintro ⟨_, ⟨⟩⟩)
  | checkingRemoved call active monitored =>
    cases taken
    rw [if_neg (by simp [gapless.removed])] at sound ⊢
    exact move sound rfl le_rfl (fun _ => rfl) steady (by rintro ⟨⟩) (by rintro ⟨_, ⟨⟩⟩)
  | checkingEpoch call active monitored removed =>
    simp only [FencedTap.serviceStep] at taken
    rw [if_pos (gapless.current (.inl steady.1))] at taken
    cases taken
    exact gapless.mix here rfl rfl sound
  | detaching | detachingDead | unwanted | stale | restarting => exact steady.elim

/-- A packet is asked for when all frames before its end are captured. -/
theorem Gapless.ask (gapless : Gapless source around calls s) (here : s.service = .idle)
    {call : ServiceCall} (quiet : s.Undisturbed source (.service call))
    (sound : Sound around { s with service := .entering call }) :
    Gapless source around (calls ++ [call]) { s with service := .entering call } := by
  obtain ⟨enabled, rate, lookbehind, later, due⟩ := quiet
  have now : s.now = s.reached := by rw [FencedTap.now, here]; rfl
  have placed := placed_of_held s fun _ => by rw [here]; rfl
  have plays := gapless.plays
  rw [placed, now] at plays
  have current := gapless.current
  have called := gapless.calls
  rw [here] at current called
  refine ⟨sound, gapless.monitored, gapless.removed, gapless.dead, gapless.ready, trivial, ?_, ?_,
    gapless.unattached, gapless.epochs, gapless.stamp, ?_, ?_, ?_, ?_, gapless.heard⟩
  · rintro (attached | ⟨_, ⟨⟩⟩)
    exact current (.inl attached)
  · rintro (attached | ⟨⟨⟩⟩)
    exact gapless.present (.inl attached)
  · rw [placed_of_held _ fun _ => rfl]
    exact ⟨plays.plans.advance later, plays.fresh, plays.tuned⟩
  · rintro _ ⟨⟩
    exact ⟨enabled, rate, lookbehind⟩
  · rintro _ ⟨⟩
    rw [← List.take_length (l := s.published)] at due
    refine ⟨s.published.length, le_rfl, due, ?_⟩
    -- The ring holds no more than the loop may take.
    show s.published.length ≤ s.consumed.length + 128
    cases present : s.ring with
    | none => simp [FencedTap.published, present]
    | some ring =>
      obtain ⟨queue, holds, -, -⟩ := (gapless.sound.ring ring present).inv
      have bounded : queue.length ≤ 128 := holds.bounded
      simp only [FencedTap.published, FencedTap.consumed, present, Option.map_some,
        Option.getD_some, holds.conserved, List.length_append]
      omega
  · rw [called]
    simp [Service.call]

theorem Gapless.step (gapless : Gapless source around calls s) (fed : s.Fed source)
    (passes : around.resampling.Passes source) {next : FencedTap V} {label : Label V}
    (quiet : s.Undisturbed source label) (taken : s.step around label = some next) :
    Gapless source around (calls ++ services [label]) next := by
  have sound := gapless.sound.step taken
  cases label with
  | capture call =>
    rw [services, List.filterMap_cons_none rfl, List.filterMap_nil, List.append_nil]
    simp only [FencedTap.step] at taken
    split at taken
    · obtain ⟨⟨attached, -⟩, same⟩ := Option.ite_none_right_eq_some.mp taken
      cases same
      refine gapless.produce sound [] (List.append_nil _).symm (List.forall_mem_nil _) attached
        rfl rfl (gapless.present (.inl attached)) ?_
      split <;> rintro _ ⟨⟩
    · cases taken
  | captureStep =>
    rw [services, List.filterMap_cons_none rfl, List.filterMap_nil, List.append_nil]
    exact gapless.captureStep sound taken
  | service call =>
    simp only [FencedTap.step] at taken
    split at taken
    · rename_i idle
      cases taken
      exact gapless.ask idle quiet sound
    · cases taken
  | serviceStep answers =>
    rw [services, List.filterMap_cons_none rfl, List.filterMap_nil, List.append_nil]
    exact gapless.serviceStep fed passes sound quiet.1 quiet.2 taken
  | monitoring | deactivate | remove | destroy | count | restart => exact quiet.elim

theorem Gapless.initial (source : SteadySource) (around : Surroundings V) :
    Gapless source around [] (start true) where
  sound := .initial around true
  monitored := rfl
  removed := rfl
  dead := rfl
  ready := rfl
  steady := trivial
  current := by rintro (⟨⟨⟩⟩ | ⟨_, ⟨⟩⟩)
  present := by rintro (⟨⟨⟩⟩ | ⟨⟨⟩⟩)
  unattached _ := rfl
  epochs := nofun
  stamp := nofun
  plays := ⟨TracedTap.plans_blank source le_rfl fun _ => rfl, fun _ => ⟨rfl, rfl⟩,
    fun some => absurd rfl some⟩
  asked := nofun
  due := nofun
  calls := rfl
  heard := nofun

end Moves

end FencedTap

/-- From the moment a source is tracked: if its blocks follow each other, and each packet is asked
for when its frames are captured, then whatever the order of the steps, every packet is mixed and
holds at each time the frame that the source has for it, and silence before its start. -/
theorem gapless_playing {V : Type*} [Zero V] [Add V] [Mul V] (source : SteadySource)
    (around : FencedTap.Surroundings V) (passes : around.resampling.Passes source)
    {labels : List (FencedTap.Label V)} {s : FencedTap V}
    (quiet : ∀ state label,
      Performs (FencedTap.step around) (FencedTap.start true) labels state label →
        state.Undisturbed source label ∧ state.Fed source)
    (ran : run (FencedTap.step around) (FencedTap.start true) labels = some s) :
    FencedTap.services labels = s.mixes.map Mixed.call ++ s.service.call.toList ∧
      ∀ m ∈ s.mixes, ∀ j < returnFrames * 2,
        let time := m.call.cursor + (j / 2 : Nat) - source.origin
        (m.added j).value = sounded (frameAt (FencedTap.sound s.published) time) j ∧
          (0 ≤ time → (frameAt (FencedTap.sound s.published) time).isSome = true) := by
  have gapless : FencedTap.Gapless source around (FencedTap.services labels) s := by
    refine run_performed (fun front state =>
      FencedTap.Gapless source around (FencedTap.services front) state) (.initial source around) ?_
      ran
    intro front state label next before performed taken
    obtain ⟨undisturbed, fed⟩ := quiet state label performed
    rw [FencedTap.services, List.filterMap_append]
    exact before.step fed passes undisturbed taken
  refine ⟨gapless.calls, fun m member j inside => ⟨(gapless.heard m member).added j inside, ?_⟩⟩
  intro begun
  have due := (gapless.heard m member).due
  refine frameAt_isSome begun ?_
  simp only [returnFrames, Nat.cast_ofNat] at due inside
  omega

namespace FencedTap

/-- A source that starts at time 15615. -/
def pulse : SteadySource where
  start := 325312500
  rate := 48000
  speakers := 2
  lookbehindNs := 0
  audible := by decide
  small := by decide

/-- Whether a step is undisturbed while there is at most that one block. -/
def pulses (s : FencedTap ℤ) (label : Label ℤ) : Bool :=
  s.undisturbed pulse label && s.published.length ≤ 1 &&
    s.published.all (fun b => b.block.frames = 1 && b.block.timestamp = 325312500 &&
      b.block.arrival = 325312500 && b.block.rate = 48000 && b.block.speakers = 2 &&
      b.block.syncNs = 0) &&
    s.service.call.all fun call =>
      pulse.origin + (sound s.published).length ≤ call.cursor + pulse.window

theorem pulses_fed {s : FencedTap ℤ} {label : Label ℤ} (checked : s.pulses label = true) :
    s.Undisturbed pulse label ∧ s.Fed pulse := by
  simp only [pulses, Bool.and_eq_true, decide_eq_true_eq] at checked
  obtain ⟨⟨⟨quiet, few⟩, fields⟩, inside⟩ := checked
  refine ⟨undisturbed_iff.mp quiet, ?_⟩
  have window : ∀ call, s.service.call = some call →
      pulse.origin + (sound s.published).length ≤ call.cursor + pulse.window := by
    intro call here
    rw [here, Option.all_some] at inside
    exact of_decide_eq_true inside
  cases published : s.published with
  | nil =>
    exact ⟨by rw [published]; exact .nil, by simp [published], by simp [published], window⟩
  | cons b rest =>
    rw [published, List.length_cons] at few
    obtain rfl : rest = [] := List.eq_nil_of_length_eq_zero (by omega)
    rw [published] at fields
    simp only [List.all_cons, List.all_nil, Bool.and_true, Bool.and_eq_true,
      decide_eq_true_eq] at fields
    obtain ⟨⟨⟨⟨⟨frames, timestamp⟩, arrival⟩, rate⟩, speakers⟩, undelayed⟩ := fields
    refine ⟨?_, ?_, ?_, window⟩
    · rw [published]
      refine .cons ⟨0, 0, rfl, ?_⟩ ⟨rate, speakers, undelayed, ?_⟩ ?_ .nil
      · rw [timestamp]
        decide
      · rw [frames]
        decide
      · rw [frames]
        decide
    · simp only [published, List.mem_singleton, forall_eq, timestamp]
      decide
    · simp only [published, List.head?_cons, Option.mem_def, Option.some.injEq, forall_eq',
        Tap.request, MonitorClock.Request.Direct, MonitorClock.Request.stamp, timestamp, arrival]
      decide

end FencedTap

open FencedTap in
theorem gapless_playing_pulse : ∃ s, run (FencedTap.step plain) (.start true)
      (serving 15360 16 ++ calling 10 ++ serving 15488 18) = some s ∧
    s.mixes.map (fun m => m.call.cursor) = [15360, 15488] ∧
    ∀ m ∈ s.mixes, ∀ j < 256, (m.added j).value =
      sounded (frameAt (sound s.published) (m.call.cursor + (j / 2 : Nat) - 15615)) j := by
  have ran : (run (FencedTap.step plain) (.start true)
      (serving 15360 16 ++ calling 10 ++ serving 15488 18)).map
        (fun s => s.mixes.map fun m => m.call.cursor) = some [15360, 15488] := by
    decide +kernel
  obtain ⟨s, ran, cursors⟩ := Option.map_eq_some_iff.mp ran
  have along : allAlong (FencedTap.step plain) pulses (.start true)
      (serving 15360 16 ++ calling 10 ++ serving 15488 18) = true := by
    decide +kernel
  have passes : plain.resampling.Passes pulse := by
    refine ⟨rfl, fun history block => ?_⟩
    simp [plain]
  obtain ⟨-, heard⟩ := gapless_playing pulse plain passes
    (fun state label performed => pulses_fed (allAlong_performs along performed)) ran
  have origin : pulse.origin = 15615 := by decide
  refine ⟨s, ran, cursors, fun m member j inside => ?_⟩
  rw [← origin]
  exact (heard m member j inside).1

end VbanStream
