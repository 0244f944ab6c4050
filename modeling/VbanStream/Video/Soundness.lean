import VbanStream.Library.Circular
import VbanStream.Video.Assembly

namespace VbanStream.FrameAssembler

open Library

/-- What `push` reads from a datagram. -/
def flagsOf (bytes : List UInt8) : UInt8 := Memory.ofBytes bytes 7

def indexOf (bytes : List UInt8) : UInt16 :=
  UInt16.ofNat (littleEndian ((Memory.ofBytes bytes).read 5 2))

def frameOf (bytes : List UInt8) : UInt32 :=
  UInt32.ofNat (littleEndian ((Memory.ofBytes bytes).read 24 4))

def payloadOf (bytes : List UInt8) : List UInt8 :=
  (Memory.ofBytes bytes).read headerSize (bytes.length - headerSize)

def WellFormed (bytes : List UInt8) : Prop :=
  validHeader (Memory.ofBytes bytes) bytes.length = true ∧ flagsOf bytes ∈ imageFlags

/-- A call of the assembler. -/
inductive Call where
  | push (bytes : List UInt8) (now : UInt64)
  | expire (now : UInt64)

def call (a : FrameAssembler) : Call → FrameAssembler × Option (List UInt8)
  | .push bytes now => a.push (Memory.ofBytes bytes) bytes.length now
  | .expire now => (a.expire now, none)

/-- One push of a run, by its place among the calls. -/
structure Part where
  position : Nat
  bytes : List UInt8
  now : UInt64

/-- An image and the push that returned it. -/
structure Returned where
  last : Part
  image : List UInt8

/-- A run: the calls so far and the images they returned. -/
structure Reassembly where
  assembler : FrameAssembler := {}
  calls : List Call := []
  images : List Returned := []

namespace Reassembly

def perform (r : Reassembly) (c : Call) : Reassembly :=
  let (assembler, image) := r.assembler.call c
  { assembler
    calls := r.calls ++ [c]
    images := r.images ++
      match c, image with
      | .push bytes now, some image => [{ last := ⟨r.calls.length, bytes, now⟩, image }]
      | _, _ => [] }

def ofRun (calls : List Call) : Reassembly := calls.foldl perform {}

end Reassembly

/-- Pushes of one counter in the order of their indices, the first of them the
only one with the start flag, and the bytes they carry. -/
structure Gathered (calls : List Call) (frame : UInt32) (parts : List Part) (data : List UInt8) :
    Prop where
  pushed : ∀ p ∈ parts, calls[p.position]? = some (.push p.bytes p.now)
  accepted : ∀ p ∈ parts, WellFormed p.bytes ∧ frameOf p.bytes = frame
  index : ∀ (j : Nat) p, parts[j]? = some p → indexOf p.bytes = UInt16.ofNat j
  start : ∀ (j : Nat) p, parts[j]? = some p → (flagsOf p.bytes &&& 1 ≠ 0 ↔ j = 0)
  joined : data = parts.flatMap fun p => payloadOf p.bytes
  size : data.length ≤ maxImageBytes

/-- An image is made of such pushes, the last of them the only one with the end
flag, and no more than the timeout after the first. -/
structure Composed (calls : List Call) (parts : List Part) (e : Returned) : Prop where
  gathered : Gathered calls (frameOf e.last.bytes) parts e.image
  last : parts.getLast? = some e.last
  finish : ∀ (j : Nat) p, parts[j]? = some p → (flagsOf p.bytes &&& 4 ≠ 0 ↔ j + 1 = parts.length)
  timely : ∀ first, parts.head? = some first → e.last.now - first.now ≤ frameTimeoutNs

/-- An image completed soon after another has the newer counter. -/
def Follows (early late : Returned) : Prop :=
  late.last.now - early.last.now < frameTimeoutNs →
    Newer (frameOf early.last.bytes) (frameOf late.last.bytes)

theorem getElem?_concat_cases {α : Type*} {values : List α} {last value : α} {j : Nat}
    (found : (values ++ [last])[j]? = some value) :
    values[j]? = some value ∧ j < values.length ∨ j = values.length ∧ value = last := by
  rcases Nat.lt_trichotomy j values.length with less | rfl | more
  · rw [List.getElem?_append_left less] at found
    exact .inl ⟨found, less⟩
  · simp only [List.getElem?_concat_length, Option.some.injEq] at found
    exact .inr ⟨rfl, found.symm⟩
  · rw [List.getElem?_eq_none (by simpa using more)] at found
    cases found

namespace Gathered

variable {calls : List Call} {frame : UInt32} {parts : List Part} {data : List UInt8}

theorem nil (calls : List Call) (frame : UInt32) : Gathered calls frame [] [] := by
  constructor <;> simp

theorem later (gathered : Gathered calls frame parts data) (c : Call) :
    Gathered (calls ++ [c]) frame parts data where
  pushed p member := by
    have found := gathered.pushed p member
    rw [List.getElem?_append_left (List.getElem?_eq_some_iff.mp found).1, found]
  accepted := gathered.accepted
  index := gathered.index
  start := gathered.start
  joined := gathered.joined
  size := gathered.size

/-- One more push, with the next index. -/
theorem concat (gathered : Gathered calls frame parts data) {p : Part}
    (pushed : calls[p.position]? = some (.push p.bytes p.now)) (accepted : WellFormed p.bytes)
    (counter : frameOf p.bytes = frame) (index : indexOf p.bytes = UInt16.ofNat parts.length)
    (start : flagsOf p.bytes &&& 1 ≠ 0 ↔ parts = [])
    (room : (payloadOf p.bytes).length ≤ maxImageBytes - data.length) :
    Gathered calls frame (parts ++ [p]) (data ++ payloadOf p.bytes) where
  pushed q member := by
    rcases List.mem_append.mp member with old | new
    · exact gathered.pushed q old
    · exact List.mem_singleton.mp new ▸ pushed
  accepted q member := by
    rcases List.mem_append.mp member with old | new
    · exact gathered.accepted q old
    · exact List.mem_singleton.mp new ▸ ⟨accepted, counter⟩
  index j q found := by
    rcases getElem?_concat_cases found with ⟨old, _⟩ | ⟨rfl, rfl⟩
    · exact gathered.index j q old
    · exact index
  start j q found := by
    rcases getElem?_concat_cases found with ⟨old, _⟩ | ⟨rfl, rfl⟩
    · exact gathered.start j q old
    · rw [start, List.length_eq_zero_iff]
  joined := by
    rw [gathered.joined]
    simp
  size := by
    have size := gathered.size
    rw [List.length_append]
    omega

end Gathered

/-- A push is refused, or one of the outcomes of a well-formed fragment. -/
theorem push_cases (a : FrameAssembler) (bytes : List UInt8) (now : UInt64) :
    let b := (a.expire now).count fun c => { c with packets := c.packets + 1 }
    (¬ WellFormed bytes ∧ a.call (.push bytes now) = b.reject) ∨
      (WellFormed bytes ∧ Assembled b (flagsOf bytes) (indexOf bytes) (frameOf bytes)
        (payloadOf bytes) now (a.call (.push bytes now)).1 (a.call (.push bytes now)).2) := by
  intro b
  rw [call, push]
  by_cases bad : validHeader (Memory.ofBytes bytes) bytes.length = false ∨
      Memory.ofBytes bytes 7 ∉ imageFlags
  · rw [if_pos bad]
    refine .inl ⟨fun good => ?_, rfl⟩
    rcases bad with header | flags
    · rw [good.1] at header
      cases header
    · exact flags good.2
  · rw [if_neg bad]
    obtain ⟨header, flags⟩ := not_or.mp bad
    exact .inr ⟨⟨by simpa using header, not_not.mp flags⟩, b.assemble_cases _ _ _ _ _⟩

/-- The pushes behind the image in progress. -/
structure Progress (calls : List Call) (a : FrameAssembler) (parts : List Part) : Prop where
  begun : parts ≠ []
  gathered : Gathered calls a.frame parts a.bytes
  next : a.next = UInt16.ofNat parts.length
  started : ∀ first, parts.head? = some first → first.now = a.started
  unfinished : ∀ p ∈ parts, flagsOf p.bytes &&& 4 = 0

/-- What the calls have made of the assembler: the pushes behind each image, and
those behind the image in progress. -/
structure Traced (calls : List Call) (images : List Returned) (a : FrameAssembler)
    (sources : List (List Part)) (parts : List Part) : Prop where
  composed : List.Forall₂ (Composed calls) sources images
  ordered : ((sources.flatten ++ parts).map Part.position).Pairwise (· < ·)
  inside : ∀ p ∈ sources.flatten ++ parts, p.position < calls.length
  progress : a.active = true → Progress calls a parts
  shown : a.haveCompleted = true → ∃ e, images.getLast? = some e ∧
    a.completedFrame = frameOf e.last.bytes ∧ a.completedAt = e.last.now
  silent : a.haveCompleted = false → images = []
  chain : images.IsChain Follows

section Step

variable {calls : List Call} {images : List Returned} {a : FrameAssembler}
  {sources : List (List Part)} {parts : List Part}

theorem Composed.later {e : Returned} (composed : Composed calls parts e) (c : Call) :
    Composed (calls ++ [c]) parts e :=
  ⟨composed.gathered.later c, composed.last, composed.finish, composed.timely⟩

theorem Traced.later (traced : Traced calls images a sources parts) (c : Call) :
    Traced (calls ++ [c]) images a sources parts where
  composed := traced.composed.imp fun _ _ composed => composed.later c
  ordered := traced.ordered
  inside p member := by
    have inside := traced.inside p member
    rw [List.length_append]
    omega
  progress active := by
    have progress := traced.progress active
    exact ⟨progress.begun, progress.gathered.later c, progress.next, progress.started,
      progress.unfinished⟩
  shown := traced.shown
  silent := traced.silent
  chain := traced.chain

theorem Traced.count (traced : Traced calls images a sources parts) (counters : FrameCounters) :
    Traced calls images { a with counters := counters } sources parts where
  composed := traced.composed
  ordered := traced.ordered
  inside := traced.inside
  progress active := by
    have progress := traced.progress active
    exact ⟨progress.begun, progress.gathered, progress.next, progress.started,
      progress.unfinished⟩
  shown := traced.shown
  silent := traced.silent
  chain := traced.chain

theorem Traced.dropped (traced : Traced calls images a sources parts) {after : FrameAssembler}
    (idle : after.active = false) (same : a.SameShown after) :
    Traced calls images after sources [] where
  composed := traced.composed
  ordered := by
    refine traced.ordered.sublist (List.Sublist.map _ ?_)
    rw [List.append_nil]
    exact List.sublist_append_left _ _
  inside p member := by
    rw [List.append_nil] at member
    exact traced.inside p (List.mem_append_left _ member)
  progress active := by
    rw [idle] at active
    cases active
  shown := by
    rw [same.1, same.2.1, same.2.2]
    exact traced.shown
  silent := by
    rw [same.1]
    exact traced.silent
  chain := traced.chain

theorem Traced.expired (traced : Traced calls images a sources parts) (now : UInt64) :
    ∃ parts, Traced calls images (a.expire now) sources parts ∧
      ((a.expire now).active = true → now - (a.expire now).started ≤ frameTimeoutNs) := by
  rcases a.expire_cases now with ⟨same, young⟩ | ⟨idle, shown⟩
  · rw [same]
    exact ⟨parts, traced, fun active => UInt64.not_lt.mp (young active)⟩
  · refine ⟨[], traced.dropped idle shown, fun active => ?_⟩
    rw [idle] at active
    cases active

theorem Traced.ordered_concat (traced : Traced calls images a sources parts) {front : List Part}
    (kept : front.Sublist parts) {p : Part} (position : p.position = calls.length) :
    ((sources.flatten ++ (front ++ [p])).map Part.position).Pairwise (· < ·) := by
  have earlier : (sources.flatten ++ front).Sublist (sources.flatten ++ parts) :=
    (List.Sublist.refl _).append kept
  rw [← List.append_assoc, List.map_append, List.pairwise_append]
  refine ⟨traced.ordered.sublist (earlier.map _), List.pairwise_singleton _ _, ?_⟩
  intro first old last new
  obtain ⟨q, member, rfl⟩ := List.mem_map.mp old
  rw [List.map_singleton, List.mem_singleton] at new
  rw [new, position]
  exact traced.inside q (earlier.subset member)

theorem Traced.inside_concat (traced : Traced calls images a sources parts) {front : List Part}
    (kept : front.Sublist parts) {p : Part} (position : p.position = calls.length) (c : Call) :
    ∀ q ∈ sources.flatten ++ (front ++ [p]), q.position < (calls ++ [c]).length := by
  intro q member
  rw [List.length_append, List.length_singleton]
  rw [← List.append_assoc] at member
  rcases List.mem_append.mp member with old | new
  · have before := traced.inside q (((List.Sublist.refl _).append kept).subset old)
    omega
  · rw [List.mem_singleton.mp new]
    omega

/-- A fragment stands behind the pushes of the image that it opens or continues. -/
structure Opened (calls : List Call) (o : FrameAssembler) (front : List Part) (p : Part) :
    Prop where
  gathered : Gathered calls (frameOf p.bytes) (front ++ [p]) (o.bytes ++ payloadOf p.bytes)
  frame : o.frame = frameOf p.bytes
  next : o.next = UInt16.ofNat front.length
  started : ∀ first, (front ++ [p]).head? = some first →
    first.now = o.started ∧ p.now - first.now ≤ frameTimeoutNs
  unfinished : ∀ q ∈ front, flagsOf q.bytes &&& 4 = 0

theorem Traced.opened (traced : Traced calls images a sources parts) {p : Part}
    (position : p.position = calls.length) (wellFormed : WellFormed p.bytes)
    (recent : a.active = true → p.now - a.started ≤ frameTimeoutNs) {o : FrameAssembler}
    (opening : a.Opening (flagsOf p.bytes) (indexOf p.bytes) (frameOf p.bytes) p.now o)
    (room : (payloadOf p.bytes).length ≤ maxImageBytes - o.bytes.length) :
    ∃ front, front.Sublist parts ∧ Opened (calls ++ [.push p.bytes p.now]) o front p := by
  have pushed : (calls ++ [.push p.bytes p.now])[p.position]? = some (.push p.bytes p.now) := by
    rw [position, List.getElem?_concat_length]
  cases opening with
  | fresh first zero counters =>
    refine ⟨[], List.nil_sublist _, ?_, rfl, rfl, ?_, by simp⟩
    · exact (Gathered.nil _ _).concat pushed wellFormed rfl zero (by simp [first]) room
    · intro q head
      cases head
      exact ⟨rfl, by simp⟩
  | current later active same next =>
    have progress := traced.progress active
    refine ⟨parts, List.Sublist.refl _, ?_, same.symm, progress.next, ?_, progress.unfinished⟩
    · rw [same]
      exact (progress.gathered.later _).concat pushed wellFormed same (next.trans progress.next)
        (by simp [later, progress.begun]) room
    · intro q head
      have first : parts.head? = some q := by
        cases old : parts with
        | nil => exact absurd old progress.begun
        | cons => simpa [old] using head
      have began := progress.started q first
      exact ⟨began, began ▸ recent active⟩

/-- A fragment that is not the last extends the image in progress. -/
theorem Traced.extended (traced : Traced calls images a sources parts) {p : Part}
    (position : p.position = calls.length) {o : FrameAssembler} {front : List Part}
    (kept : front.Sublist parts) (opened : Opened (calls ++ [.push p.bytes p.now]) o front p)
    (same : a.SameShown o) (more : flagsOf p.bytes &&& 4 = 0) :
    Traced (calls ++ [.push p.bytes p.now]) images
      { o with bytes := o.bytes ++ payloadOf p.bytes, next := o.next + 1 } sources
      (front ++ [p]) := by
  have later := traced.later (.push p.bytes p.now)
  constructor
  · exact later.composed
  · exact traced.ordered_concat kept position
  · exact traced.inside_concat kept position _
  · intro _
    refine ⟨by simp, opened.frame ▸ opened.gathered, ?_, ?_, ?_⟩
    · simp only [opened.next, List.length_append, List.length_singleton, UInt16.ofNat_add]
      rfl
    · exact fun first head => (opened.started first head).1
    · intro q member
      rcases List.mem_append.mp member with old | new
      · exact opened.unfinished q old
      · exact List.mem_singleton.mp new ▸ more
  · change o.haveCompleted = true → _
    rw [same.1]
    intro known
    change ∃ e, _ ∧ o.completedFrame = _ ∧ o.completedAt = _
    rw [same.2.1, same.2.2]
    exact traced.shown known
  · change o.haveCompleted = false → _
    rw [same.1]
    exact traced.silent
  · exact traced.chain

theorem newer_of_current {frame : UInt32} {now : UInt64} (known : a.haveCompleted = true)
    (current : a.outdated frame now = false) (recent : now - a.completedAt < frameTimeoutNs) :
    Newer a.completedFrame frame := by
  simp only [outdated, known, recent, decide_true, Bool.true_and, Bool.or_eq_false_iff,
    beq_eq_false_iff_ne, decide_eq_false_iff_not] at current
  exact newer_iff.mpr current

/-- The last fragment completes the image. -/
theorem Traced.completed (traced : Traced calls images a sources parts) {p : Part}
    (position : p.position = calls.length) {o after : FrameAssembler} {front : List Part}
    (kept : front.Sublist parts) (opened : Opened (calls ++ [.push p.bytes p.now]) o front p)
    (last : flagsOf p.bytes &&& 4 ≠ 0) (current : a.outdated (frameOf p.bytes) p.now = false)
    (idle : after.active = false)
    (shown : after.haveCompleted = true ∧ after.completedFrame = frameOf p.bytes ∧
      after.completedAt = p.now) :
    Traced (calls ++ [.push p.bytes p.now])
      (images ++ [{ last := p, image := o.bytes ++ payloadOf p.bytes }]) after
      (sources ++ [front ++ [p]]) [] := by
  have later := traced.later (.push p.bytes p.now)
  constructor
  · refine List.rel_append later.composed (.cons ?_ .nil)
    refine ⟨opened.gathered, by simp, ?_, fun first head => (opened.started first head).2⟩
    intro j q found
    rw [List.length_append, List.length_singleton]
    rcases getElem?_concat_cases found with ⟨old, short⟩ | ⟨rfl, rfl⟩
    · have unfinished := opened.unfinished q (List.mem_of_getElem? old)
      exact iff_of_false (not_not.mpr unfinished) (by omega)
    · exact iff_of_true last rfl
  · simpa using traced.ordered_concat kept position
  · simpa using traced.inside_concat kept position (.push p.bytes p.now)
  · intro active
    rw [idle] at active
    cases active
  · exact fun _ => ⟨⟨p, _⟩, List.getLast?_concat, shown.2.1, shown.2.2⟩
  · intro unknown
    rw [shown.1] at unknown
    cases unknown
  · rw [List.isChain_append]
    refine ⟨traced.chain, List.isChain_singleton _, ?_⟩
    intro e before e' now recent
    cases now
    cases known : a.haveCompleted with
    | false =>
      rw [traced.silent known] at before
      cases before
    | true =>
      obtain ⟨previous, found, frame, time⟩ := traced.shown known
      cases before.symm.trans found
      rw [← time] at recent
      rw [← frame]
      exact newer_of_current known current recent

theorem perform_push {r : Reassembly} {p : Part} (position : p.position = r.calls.length)
    {after : FrameAssembler} {image : Option (List UInt8)}
    (pushed : r.assembler.call (.push p.bytes p.now) = (after, image)) :
    r.perform (.push p.bytes p.now) =
      { assembler := after
        calls := r.calls ++ [.push p.bytes p.now]
        images := r.images ++ (image.map fun image => { last := p, image }).toList } := by
  obtain ⟨place, bytes, now⟩ := p
  subst position
  rw [Reassembly.perform, pushed]
  cases image with
  | none => rfl
  | some image => rfl

theorem Traced.push {r : Reassembly} (traced : Traced r.calls r.images r.assembler sources parts)
    {p : Part} (position : p.position = r.calls.length) : ∃ sources parts,
      Traced (r.perform (.push p.bytes p.now)).calls (r.perform (.push p.bytes p.now)).images
        (r.perform (.push p.bytes p.now)).assembler sources parts := by
  obtain ⟨parts, expired, recent⟩ := traced.expired p.now
  have outcome := r.assembler.push_cases p.bytes p.now
  have counted : Traced r.calls r.images
      ((r.assembler.expire p.now).count fun c => { c with packets := c.packets + 1 })
      sources parts := expired.count _
  have recent : ((r.assembler.expire p.now).count fun c =>
      { c with packets := c.packets + 1 }).active = true → p.now -
        ((r.assembler.expire p.now).count fun c => { c with packets := c.packets + 1 }).started ≤
          frameTimeoutNs := recent
  generalize (r.assembler.expire p.now).count (fun c => { c with packets := c.packets + 1 }) = b
    at outcome counted recent
  generalize pushed : r.assembler.call (.push p.bytes p.now) = result at outcome
  obtain ⟨after, image⟩ := result
  rw [perform_push position pushed]
  rcases outcome with ⟨_, rejected⟩ | ⟨wellFormed, assembled⟩
  · cases rejected
    obtain ⟨idle, shown⟩ := (b.count fun c => { c with invalid := c.invalid + 1 }).discard_idle
    refine ⟨sources, [], ?_⟩
    simpa using ((counted.count _).dropped idle shown).later (.push p.bytes p.now)
  · cases assembled with
    | kept counters =>
      refine ⟨sources, parts, ?_⟩
      simpa using (counted.count counters).later (.push p.bytes p.now)
    | dropped idle shown =>
      refine ⟨sources, [], ?_⟩
      simpa using (counted.dropped idle shown).later (.push p.bytes p.now)
    | extended opening room more =>
      obtain ⟨front, kept, opened⟩ := counted.opened position wellFormed recent opening room
      refine ⟨sources, front ++ [p], ?_⟩
      simpa using counted.extended position kept opened opening.shown more
    | completed opening room last current idle shown =>
      obtain ⟨front, kept, opened⟩ := counted.opened position wellFormed recent opening room
      exact ⟨sources ++ [front ++ [p]], [],
        counted.completed position kept opened last current idle shown⟩

theorem Traced.perform {r : Reassembly} (traced : Traced r.calls r.images r.assembler sources parts)
    (c : Call) : ∃ sources parts,
      Traced (r.perform c).calls (r.perform c).images (r.perform c).assembler sources parts := by
  cases c with
  | expire now =>
    obtain ⟨parts, expired, _⟩ := traced.expired now
    refine ⟨sources, parts, ?_⟩
    simpa [Reassembly.perform, call] using expired.later (.expire now)
  | push bytes now => exact traced.push (p := ⟨r.calls.length, bytes, now⟩) rfl

end Step

theorem ofRun_traced (calls : List Call) : (Reassembly.ofRun calls).calls = calls ∧
    ∃ sources parts, Traced (Reassembly.ofRun calls).calls (Reassembly.ofRun calls).images
      (Reassembly.ofRun calls).assembler sources parts := by
  induction calls using List.reverseRecOn with
  | nil =>
    refine ⟨rfl, [], [], .nil, .nil, by simp, nofun, nofun, fun _ => rfl, .nil⟩
  | append_singleton front last ih =>
    obtain ⟨same, sources, parts, traced⟩ := ih
    rw [Reassembly.ofRun, List.foldl_append]
    refine ⟨?_, traced.perform last⟩
    change (Reassembly.ofRun front).calls ++ [last] = front ++ [last]
    rw [same]

/-- Whatever is pushed and whenever: every image is made of the fragments of one
counter in the order of their indices, within the timeout; no push serves two
images; and an image completed soon after another has the newer counter. -/
theorem images_reassembled (calls : List Call) :
    (∃ sources : List (List Part),
      List.Forall₂ (Composed calls) sources (Reassembly.ofRun calls).images ∧
        (sources.flatten.map Part.position).Pairwise (· < ·)) ∧
    (Reassembly.ofRun calls).images.IsChain Follows := by
  obtain ⟨same, sources, parts, traced⟩ := ofRun_traced calls
  rw [same] at traced
  refine ⟨⟨sources, traced.composed, ?_⟩, traced.chain⟩
  have ordered := traced.ordered
  rw [List.map_append, List.pairwise_append] at ordered
  exact ordered.1

end VbanStream.FrameAssembler
