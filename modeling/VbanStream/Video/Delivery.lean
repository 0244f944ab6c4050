import VbanStream.Video.Assembly
import VbanStream.Video.Fragments

namespace VbanStream

open Library FrameSender

/-- One datagram reaches the assembler: its image, its place in that image, and
the clock of the push. -/
structure Delivery where
  image : Nat
  position : Nat
  now : UInt64
deriving DecidableEq

/-- The bytes of the datagram; a datagram that was never sent carries nothing. -/
def carried (images : List Image) (d : Delivery) : Option (List UInt8) :=
  images[d.image]?.bind fun image => image.transmission.datagrams[d.position]?

structure Reception where
  assembler : FrameAssembler := {}
  returned : List (Delivery × List UInt8) := []

namespace Reception

def receive (images : List Image) (r : Reception) (d : Delivery) : Reception :=
  match carried images d with
  | none => r
  | some bytes =>
    let (assembler, image) := r.assembler.push (Memory.ofBytes bytes) bytes.length d.now
    { assembler, returned := r.returned ++ (image.map fun bytes => (d, bytes)).toList }

def ofRun (images : List Image) (deliveries : List Delivery) : Reception :=
  deliveries.foldl (receive images) {}

end Reception

/-- No datagram is overtaken by an image half a turn of the counter younger. -/
def Overtaking (early late : Delivery) : Prop := early.image < late.image + 2 ^ 31

/-- Images a whole turn of the counter apart do not meet within the timeout. -/
def Recurrence (early late : Delivery) : Prop :=
  early.image + 2 ^ 32 ≤ late.image → early.now.toNat + 2000000000 < late.now.toNat

/-- The second of two images returned within the timeout was sent later. -/
def Forward (early late : Delivery × List UInt8) : Prop :=
  late.1.now.toNat < early.1.now.toNat + 2000000000 → early.1.image < late.1.image

theorem carried_fragment {start : UInt32} {calls : List SendCall} {d : Delivery}
    {bytes : List UInt8} (sent : carried (transmit start calls) d = some bytes) :
    ∃ image, (transmit start calls)[d.image]? = some image ∧ accepts image.call = true ∧
      Fragment image.call.encoded (serial start d.image) d.position bytes := by
  obtain ⟨image, found, datagram⟩ := Option.bind_eq_some_iff.mp sent
  obtain ⟨fragment, accepted⟩ := image_fragment found datagram
  exact ⟨image, found, accepted, fragment⟩

namespace FrameAssembler

/-- The assembler reads back what the sender wrote. -/
theorem push_fragment (a : FrameAssembler) {encoded : List UInt8} {frame : UInt32} {index : Nat}
    {bytes : List UInt8} (fragment : Fragment encoded frame index bytes) (now : UInt64) :
    a.push (Memory.ofBytes bytes) bytes.length now =
      ((a.expire now).count fun c => { c with packets := c.packets + 1 }).assemble
        (flags (fragmentCount encoded) index) (UInt16.ofNat index) frame (payload encoded index)
        now := by
  have number : UInt16.ofNat (index % 2 ^ 16) = UInt16.ofNat index := by
    apply UInt16.toNat_inj.mp
    simp
  have counter : UInt32.ofNat frame.toNat = frame := UInt32.ofNat_toNat
  have listed := flags_mem (fragmentCount encoded) index
  unfold push
  dsimp only
  rw [if_neg (by simp [fragment.valid, fragment.flags, listed]), fragment.flags, fragment.number,
    number, fragment.frame, counter, fragment.payload]

end FrameAssembler

/-- What the past deliveries have made of the assembler. -/
structure Assembling (images : List Image) (start : UInt32) (past : List Delivery)
    (returned : List (Delivery × List UInt8)) (a : FrameAssembler) : Prop where
  progress : a.active = true → ∃ d ∈ past, ∃ image, images[d.image]? = some image ∧
    d.now = a.started ∧ a.frame = serial start d.image ∧
    a.bytes = image.call.encoded.take (a.next.toNat * fragmentBytes)
  shown : a.haveCompleted = true → ∃ d ∈ past, d.now = a.completedAt ∧
    a.completedFrame = serial start d.image ∧
    ∀ e ∈ returned, e.1.now ≤ d.now ∧
      (d.now.toNat < e.1.now.toNat + 2000000000 → e.1.image ≤ d.image)
  silent : a.haveCompleted = false → returned = []

section Step

variable {images : List Image} {start : UInt32} {past : List Delivery}
  {returned : List (Delivery × List UInt8)} {a : FrameAssembler}

theorem Assembling.weaken (inv : Assembling images start past returned a) (d : Delivery) :
    Assembling images start (past ++ [d]) returned a := by
  refine ⟨fun active => ?_, fun known => ?_, inv.silent⟩
  · obtain ⟨starter, member, rest⟩ := inv.progress active
    exact ⟨starter, List.mem_append_left _ member, rest⟩
  · obtain ⟨last, member, rest⟩ := inv.shown known
    exact ⟨last, List.mem_append_left _ member, rest⟩

theorem Assembling.idle (inv : Assembling images start past returned a) {after : FrameAssembler}
    (idle : after.active = false) (same : a.SameShown after) :
    Assembling images start past returned after := by
  obtain ⟨have', frame, time⟩ := same
  refine ⟨fun active => ?_, ?_, ?_⟩
  · rw [idle] at active
    cases active
  · rw [have', frame, time]
    exact inv.shown
  · rw [have']
    exact inv.silent

theorem Assembling.count (inv : Assembling images start past returned a)
    (counters : FrameCounters) :
    Assembling images start past returned { a with counters := counters } :=
  ⟨inv.progress, inv.shown, inv.silent⟩

theorem same_image {first second : Delivery} (overtaking : Overtaking first second)
    (recurrence : Recurrence first second) (recent : second.now.toNat ≤ first.now.toNat + 2000000000)
    (same : serial start second.image = serial start first.image) : second.image = first.image := by
  have turns := serial_eq_iff.mp same
  unfold Overtaking at overtaking
  unfold Recurrence at recurrence
  omega

/-- Fragments that may be appended continue the bytes of their own image. -/
theorem opening_bytes (inv : Assembling images start past returned a) {d : Delivery}
    {image : Image} {flag : UInt8} {opened : FrameAssembler}
    (found : images[d.image]? = some image) (small : d.position < 2 ^ 16)
    (clock : ∀ e ∈ past, e.now ≤ d.now) (overtaking : ∀ e ∈ past, Overtaking e d)
    (recurrence : ∀ e ∈ past, Recurrence e d)
    (recent : a.active = true → ¬ d.now - a.started > frameTimeoutNs)
    (opening : a.Opening flag (UInt16.ofNat d.position) (serial start d.image) d.now opened) :
    opened.active = true ∧ opened.frame = serial start d.image ∧
      opened.next.toNat = d.position ∧
      opened.bytes = image.call.encoded.take (d.position * fragmentBytes) ∧
      ∃ e ∈ past ++ [d], e.image = d.image ∧ e.now = opened.started := by
  have index : (UInt16.ofNat d.position).toNat = d.position := by
    rw [UInt16.toNat_ofNat', Nat.mod_eq_of_lt small]
  cases opening with
  | fresh first zero counters =>
    have start' : d.position = 0 := by
      rw [← index, zero]
      rfl
    refine ⟨rfl, rfl, ?_, ?_, d, by simp, rfl, rfl⟩
    · exact start'.symm
    · rw [start', Nat.zero_mul, List.take_zero]
  | current _ active same next =>
    obtain ⟨starter, member, other, known, time, frame, bytes⟩ := inv.progress active
    have order := UInt64.le_iff_toNat_le.mp (clock starter member)
    have fresh : d.now.toNat ≤ starter.now.toNat + 2000000000 := by
      have young := recent active
      rw [← time, frameTimeoutNs, gt_iff_lt, UInt64.lt_iff_toNat_lt,
        UInt64.toNat_sub_of_le _ _ (clock starter member)] at young
      simp only [UInt64.reduceToNat] at young
      omega
    have image' := same_image (overtaking starter member) (recurrence starter member) fresh
      (same.trans frame)
    rw [image', known] at found
    cases found
    rw [← next, index] at bytes
    exact ⟨active, same.symm, by rw [← next, index], bytes, starter, List.mem_append_left _ member,
      image'.symm, time⟩

/-- An image passes the check against the one shown last only if it is younger. -/
theorem younger {last d : Delivery} (overtaking : Overtaking last d)
    (clock : last.now ≤ d.now) (time : last.now = a.completedAt)
    (frame : a.completedFrame = serial start last.image) (known : a.haveCompleted = true)
    (current : a.outdated (serial start d.image) d.now = false)
    (recent : d.now.toNat < last.now.toNat + 2000000000) : last.image < d.image := by
  have fresh : d.now - a.completedAt < frameTimeoutNs := by
    rw [← time, frameTimeoutNs, UInt64.lt_iff_toNat_lt, UInt64.toNat_sub_of_le _ _ clock]
    simp only [UInt64.reduceToNat]
    omega
  simp only [FrameAssembler.outdated, known, fresh, decide_true, Bool.true_and, Bool.or_eq_false_iff,
    beq_eq_false_iff_ne, decide_eq_false_iff_not, frame] at current
  obtain ⟨other, ahead'⟩ := current
  by_contra behind
  have older : d.image ≤ last.image := Nat.le_of_not_lt behind
  rcases Nat.lt_or_eq_of_le older with less | same
  · have far := ahead_serial_behind start less (by unfold Overtaking at overtaking; omega)
    exact ahead' (UInt32.le_iff_toNat_le.mpr far)
  · exact other (by rw [same])

theorem Assembling.expired (inv : Assembling images start past returned a) (now : UInt64)
    (next : FrameCounters → FrameCounters) :
    Assembling images start past returned ((a.expire now).count next) ∧
      (((a.expire now).count next).active = true →
        ¬ now - ((a.expire now).count next).started > frameTimeoutNs) := by
  rcases a.expire_cases now with ⟨same, young⟩ | ⟨idle, shown⟩
  · rw [same]
    exact ⟨inv.count _, young⟩
  · refine ⟨(inv.idle idle shown).count _, fun active => ?_⟩
    change (a.expire now).active = true at active
    rw [idle] at active
    cases active

/-- A fragment that is not the last is appended to the image it opened or found. -/
theorem Assembling.extend (inv : Assembling images start past returned a) {d : Delivery}
    {image : Image} {o : FrameAssembler} (found : images[d.image]? = some image)
    (small : d.position + 1 < 2 ^ 16) (shown : a.SameShown o)
    (frame : o.frame = serial start d.image) (next : o.next.toNat = d.position)
    (begun : o.bytes = image.call.encoded.take (d.position * fragmentBytes))
    (starter : ∃ e ∈ past ++ [d], e.image = d.image ∧ e.now = o.started) :
    Assembling images start (past ++ [d]) returned { o with
      bytes := o.bytes ++ payload image.call.encoded d.position
      next := o.next + 1 } := by
  obtain ⟨e, member, same, time⟩ := starter
  obtain ⟨have', completed, completedAt⟩ := shown
  have later := inv.weaken d
  constructor
  · intro _
    refine ⟨e, member, image, same ▸ found, time, same ▸ frame, ?_⟩
    have increment : (o.next + 1).toNat = d.position + 1 := by
      rw [UInt16.toNat_add, next]
      simp only [UInt16.reduceToNat]
      omega
    rw [increment, ← take_append_payload, ← begun]
  · change o.haveCompleted = true → _
    rw [have', completed, completedAt]
    exact later.shown
  · change o.haveCompleted = false → _
    rw [have']
    exact later.silent

/-- An image that is not outdated is younger than those returned lately. -/
theorem Assembling.forward (inv : Assembling images start past returned a) {d : Delivery}
    (clock : ∀ e ∈ past, e.now ≤ d.now) (overtaking : ∀ e ∈ past, Overtaking e d)
    (current : a.outdated (serial start d.image) d.now = false) (encoded : List UInt8) :
    ∀ e ∈ returned, e.1.now ≤ d.now ∧ Forward e (d, encoded) := by
  intro e member
  cases known : a.haveCompleted with
  | false =>
    rw [inv.silent known] at member
    cases member
  | true =>
    obtain ⟨previous, old, time, shown, order⟩ := inv.shown known
    obtain ⟨before, ordered⟩ := order e member
    refine ⟨UInt64.le_trans before (clock previous old), fun recent => ?_⟩
    have first := UInt64.le_iff_toNat_le.mp before
    have second := UInt64.le_iff_toNat_le.mp (clock previous old)
    dsimp only at recent
    have newer := younger (overtaking previous old) (clock previous old) time shown known
      current (by omega)
    exact Nat.lt_of_le_of_lt (ordered (by omega)) newer

/-- The last fragment of an image makes it the one shown last. -/
theorem Assembling.complete {d : Delivery} {encoded : List UInt8} {after : FrameAssembler}
    (idle : after.active = false) (known : after.haveCompleted = true)
    (frame : after.completedFrame = serial start d.image) (time : after.completedAt = d.now)
    (forward : ∀ e ∈ returned, e.1.now ≤ d.now ∧ Forward e (d, encoded)) :
    Assembling images start (past ++ [d]) (returned ++ [(d, encoded)]) after := by
  constructor
  · intro running
    rw [idle] at running
    cases running
  · intro _
    refine ⟨d, by simp, time.symm, frame, fun e member => ?_⟩
    rcases List.mem_append.mp member with old | new
    · obtain ⟨before, younger⟩ := forward e old
      exact ⟨before, fun recent => Nat.le_of_lt (younger recent)⟩
    · rw [List.mem_singleton.mp new]
      exact ⟨UInt64.le_refl _, fun _ => Nat.le_refl _⟩
  · intro unknown
    rw [known] at unknown
    cases unknown

/-- One datagram keeps the invariant; a returned image is whole, and younger than
every image returned within the timeout. -/
theorem assembling_fragment (inv : Assembling images start past returned a) {d : Delivery}
    {image : Image} {bytes : List UInt8} (found : images[d.image]? = some image)
    (accepted : accepts image.call = true)
    (fragment : Fragment image.call.encoded (serial start d.image) d.position bytes)
    (clock : ∀ e ∈ past, e.now ≤ d.now) (overtaking : ∀ e ∈ past, Overtaking e d)
    (recurrence : ∀ e ∈ past, Recurrence e d) {after : FrameAssembler}
    {output : Option (List UInt8)}
    (pushed : a.push (Memory.ofBytes bytes) bytes.length d.now = (after, output)) :
    Assembling images start (past ++ [d])
        (returned ++ (output.map fun bytes => (d, bytes)).toList) after ∧
      ∀ bytes ∈ output, bytes = image.call.encoded ∧
        ∀ e ∈ returned, Forward e (d, bytes) := by
  rw [a.push_fragment fragment] at pushed
  obtain ⟨ready, recent⟩ := inv.expired d.now fun c => { c with packets := c.packets + 1 }
  generalize (a.expire d.now).count (fun c => { c with packets := c.packets + 1 }) = b
    at pushed ready recent
  have small : d.position + 1 < 2 ^ 16 := by
    have count := fragmentCount_le accepted
    have inside := fragment.inside
    omega
  have outcome := b.assemble_cases (flags (fragmentCount image.call.encoded) d.position)
    (UInt16.ofNat d.position) (serial start d.image) (payload image.call.encoded d.position) d.now
  rw [pushed] at outcome
  cases outcome with
  | kept counters => exact ⟨by simpa using (ready.count counters).weaken d, by simp⟩
  | dropped idle shown => exact ⟨by simpa using (ready.idle idle shown).weaken d, by simp⟩
  | @extended o opening _ more =>
    obtain ⟨_, frame, next, begun, starter⟩ :=
      opening_bytes ready found (by omega) clock overtaking recurrence recent opening
    refine ⟨?_, by simp⟩
    simpa using ready.extend found small opening.shown frame next begun starter
  | @completed o _ opening _ last current idle shown =>
    obtain ⟨_, _, _, begun, _⟩ :=
      opening_bytes ready found (by omega) clock overtaking recurrence recent opening
    obtain ⟨known, frame, time⟩ := shown
    have whole : o.bytes ++ payload image.call.encoded d.position = image.call.encoded := by
      have final : d.position + 1 = fragmentCount image.call.encoded :=
        not_not.mp (mt (flags_last _ _).mpr last)
      rw [begun, take_append_payload, final, take_fragmentCount]
    have forward := ready.forward clock overtaking current image.call.encoded
    rw [whole]
    refine ⟨Assembling.complete idle known frame time forward, fun bytes member => ?_⟩
    cases member
    exact ⟨rfl, fun e returned => (forward e returned).2⟩

end Step

/-- The complete encoded bytes of the image that the datagram belongs to. -/
def Whole (images : List Image) (e : Delivery × List UInt8) : Prop :=
  ∃ image, images[e.1.image]? = some image ∧ e.2 = image.call.encoded

theorem ofRun_invariant {start : UInt32} {calls : List SendCall} {deliveries : List Delivery}
    (clock : deliveries.Pairwise fun early late => early.now ≤ late.now)
    (overtaking : deliveries.Pairwise Overtaking) (recurrence : deliveries.Pairwise Recurrence) :
    let r := Reception.ofRun (transmit start calls) deliveries
    Assembling (transmit start calls) start deliveries r.returned r.assembler ∧
      (∀ e ∈ r.returned, Whole (transmit start calls) e) ∧ r.returned.Pairwise Forward := by
  induction deliveries using List.reverseRecOn with
  | nil =>
    refine ⟨⟨fun active => ?_, fun known => ?_, fun _ => rfl⟩, by simp [Reception.ofRun],
      List.Pairwise.nil⟩
    · cases active
    · cases known
  | append_singleton past d ih =>
    obtain ⟨clock, _, latest⟩ := List.pairwise_append.mp clock
    obtain ⟨overtaking, _, overtakes⟩ := List.pairwise_append.mp overtaking
    obtain ⟨recurrence, _, recurs⟩ := List.pairwise_append.mp recurrence
    obtain ⟨inv, whole, ordered⟩ := ih clock overtaking recurrence
    have step : Reception.ofRun (transmit start calls) (past ++ [d]) =
        (Reception.ofRun (transmit start calls) past).receive (transmit start calls) d := by
      simp [Reception.ofRun]
    rw [step]
    generalize Reception.ofRun (transmit start calls) past = r at *
    unfold Reception.receive
    cases sent : carried (transmit start calls) d with
    | none => exact ⟨inv.weaken d, whole, ordered⟩
    | some bytes =>
      obtain ⟨image, found, accepted, fragment⟩ := carried_fragment sent
      dsimp only
      generalize pushed : r.assembler.push (Memory.ofBytes bytes) bytes.length d.now = result
      obtain ⟨after, output⟩ := result
      obtain ⟨next, complete⟩ := assembling_fragment inv found accepted fragment
        (fun e member => latest e member d (by simp))
        (fun e member => overtakes e member d (by simp))
        (fun e member => recurs e member d (by simp)) pushed
      refine ⟨next, ?_, ?_⟩
      · intro e member
        rcases List.mem_append.mp member with old | new
        · exact whole e old
        · obtain ⟨bytes, shown, rfl⟩ := by simpa using new
          exact ⟨image, found, (complete bytes shown).1⟩
      · refine List.pairwise_append.mpr ⟨ordered, ?_, ?_⟩
        · cases output <;> simp
        · intro e old other new
          obtain ⟨bytes, shown, rfl⟩ := by simpa using new
          exact (complete bytes shown).2 e old

/-- Every image that the assembler returns is the complete image given to one
call of `send_image`, and of two images returned within the timeout the second
was sent after the first. -/
theorem images_arrive_whole {start : UInt32} {calls : List SendCall} {deliveries : List Delivery}
    (clock : deliveries.Pairwise fun early late => early.now ≤ late.now)
    (overtaking : deliveries.Pairwise Overtaking) (recurrence : deliveries.Pairwise Recurrence) :
    let images := transmit start calls
    let returned := (Reception.ofRun images deliveries).returned
    (∀ e ∈ returned, ∃ image, images[e.1.image]? = some image ∧ e.2 = image.call.encoded ∧
      image.call ∈ calls) ∧
    returned.Pairwise fun early late =>
      late.1.now.toNat < early.1.now.toNat + 2000000000 → early.1.image < late.1.image := by
  obtain ⟨_, whole, ordered⟩ := ofRun_invariant clock overtaking recurrence
  refine ⟨fun e member => ?_, ordered⟩
  obtain ⟨image, found, complete⟩ := whole e member
  exact ⟨image, found, complete, (transmit_image found).1⟩

/-- A call whose datagrams all leave the machine. -/
def sendAll (encoded : List UInt8) : SendCall :=
  { config := {}, encoded, attempts := fun _ => .sent }

theorem images_arrive_whole_repeated :
    let images := transmit 0 [sendAll (List.replicate 1437 1)]
    let deliveries : List Delivery := [⟨0, 0, 1⟩, ⟨0, 0, 2⟩, ⟨0, 1, 3⟩, ⟨0, 1, 4⟩]
    let returned := (Reception.ofRun images deliveries).returned
    returned.length = 1 ∧ ∀ e ∈ returned, ∃ image, images[e.1.image]? = some image ∧
      e.2 = image.call.encoded := by
  refine ⟨by decide +kernel, fun e member => ?_⟩
  obtain ⟨image, found, complete, _⟩ := (images_arrive_whole (by simp) (by simp [Overtaking])
    (by simp [Recurrence])).1 e member
  exact ⟨image, found, complete⟩

/-- Two large images with many small ones between them. -/
def distantCalls (between : Nat) : List SendCall :=
  sendAll (List.replicate 1437 1) ::
    (List.replicate between (sendAll [0]) ++ [sendAll (List.replicate 1437 2)])

theorem distantCalls_accepted (between : Nat) :
    (distantCalls between).filter accepts = distantCalls between := by
  apply List.filter_eq_self.mpr
  intro call member
  rcases List.mem_cons.mp member with rfl | member
  · decide +kernel
  · rcases List.mem_append.mp member with small | large
    · rw [List.eq_of_mem_replicate small]
      decide
    · rw [List.mem_singleton.mp large]
      decide +kernel

theorem distantCalls_last {between last : Nat} (after : last = between + 1) :
    (distantCalls between)[last]? = some (sendAll (List.replicate 1437 2)) := by
  rw [after, distantCalls, List.getElem?_cons_succ,
    List.getElem?_append_right (by rw [List.length_replicate]), List.length_replicate, Nat.sub_self]
  rfl

/-- Half of the first image with half of the last one is none of the images. -/
theorem distantCalls_other (between : Nat) :
    ∀ call ∈ distantCalls between, List.replicate 1436 1 ++ [2] ≠ call.encoded := by
  intro call member
  rcases List.mem_cons.mp member with rfl | member
  · decide +kernel
  · rcases List.mem_append.mp member with small | large
    · rw [List.eq_of_mem_replicate small]
      decide +kernel
    · rw [List.mem_singleton.mp large]
      decide +kernel

/-- The datagrams of an image sent in full. -/
def datagram (encoded : List UInt8) (position : Nat) : Option (List UInt8) :=
  (sendImage 0 (sendAll encoded)).2.datagrams[position]?

theorem carried_distant {calls : List SendCall} {encoded : List UInt8} {d : Delivery}
    (accepted : calls.filter accepts = calls) (found : calls[d.image]? = some (sendAll encoded))
    (round : serial 0 d.image = 0) :
    carried (transmit 0 calls) d = datagram encoded d.position := by
  rw [carried, transmit_getElem?, accepted, found, round]
  rfl

theorem datagram_fragment {encoded bytes : List UInt8} {position : Nat}
    (accepted : accepts (sendAll encoded) = true)
    (sent : datagram encoded position = some bytes) : Fragment encoded 0 position bytes := by
  have found : (transmit 0 [sendAll encoded])[0]? = some
      { call := sendAll encoded, transmission := (sendImage 0 (sendAll encoded)).2 } := by
    simp [transmit, accepted]
  exact (image_fragment found sent).1

theorem distant_mixed {calls : List SendCall} (accepted : calls.filter accepts = calls)
    (head : calls[0]? = some (sendAll (List.replicate 1437 1)))
    (last : calls[2 ^ 32]? = some (sendAll (List.replicate 1437 2))) :
    (Reception.ofRun (transmit 0 calls) [⟨0, 0, 1⟩, ⟨2 ^ 32, 1, 2⟩]).returned =
      [(⟨2 ^ 32, 1, 2⟩, List.replicate 1436 1 ++ [2])] := by
  have first : carried (transmit 0 calls) ⟨0, 0, 1⟩ = datagram (List.replicate 1437 1) 0 :=
    carried_distant accepted head (by decide)
  have second : carried (transmit 0 calls) ⟨2 ^ 32, 1, 2⟩ = datagram (List.replicate 1437 2) 1 :=
    carried_distant accepted last (by decide)
  obtain ⟨opening, opened⟩ := Option.isSome_iff_exists.mp
    (show (datagram (List.replicate 1437 1) 0).isSome = true by decide +kernel)
  obtain ⟨ending, ended⟩ := Option.isSome_iff_exists.mp
    (show (datagram (List.replicate 1437 2) 1).isSome = true by decide +kernel)
  have front := datagram_fragment (by decide +kernel) opened
  have back := datagram_fragment (by decide +kernel) ended
  simp only [Reception.ofRun, List.foldl_cons, List.foldl_nil, Reception.receive, first, second,
    opened, ended, FrameAssembler.push_fragment _ front, FrameAssembler.push_fragment _ back]
  decide +kernel

/-- Once the counter has come round, the second half of an image completes the
first half of another one. -/
theorem images_mixed :
    let deliveries : List Delivery := [⟨0, 0, 1⟩, ⟨2 ^ 32, 1, 2⟩]
    deliveries.Pairwise (fun early late => early.now ≤ late.now) ∧
      deliveries.Pairwise Overtaking ∧
      ∃ e ∈ (Reception.ofRun (transmit 0 (distantCalls (2 ^ 32 - 1))) deliveries).returned,
        ∀ call ∈ distantCalls (2 ^ 32 - 1), e.2 ≠ call.encoded := by
  have mixed := distant_mixed (distantCalls_accepted (2 ^ 32 - 1)) List.getElem?_cons_zero
    (distantCalls_last (by norm_num))
  refine ⟨by simp, by simp [Overtaking], ?_⟩
  rw [mixed]
  exact ⟨_, List.mem_singleton_self _, distantCalls_other _⟩

end VbanStream
