import VbanStream.Receiver.Threads
import VbanStream.Video.VideoReceiver

namespace VbanStream

open Library

/-- The header announces the protocol that carries video frames. -/
def Datagram.video (d : Datagram) : Bool := d.memory 4 &&& 0xe0 == 0x80

/-- `receive_loop` enqueues the datagram for this video slot. -/
def Routing.watches (route : Routing) (d : Datagram) (i : Fin videoSlotCount) : Bool :=
  (route.config.videos i).enabled && route.videoAddresses i == d.sender &&
    some (route.config.videos i).streamName == d.name

/-- What an iteration reads while the other threads run: the generation at each check, and
the clock at each slot that it reaches. -/
structure Readings where
  videoGeneration : Nat
  videoClock : Fin videoSlotCount → UInt64
  generation : Fin slotCount → Nat
  clock : Fin slotCount → UInt64

/-- What an iteration writes. Not every receiver has a video receiver. -/
structure Inbox (Picture : Type*) where
  slots : Fin slotCount → Slot
  videos : Option (VideoReceiver Picture)

variable {Picture : Type*}

namespace Routing

/-- The loop over the video slots, which does not stop at a match. -/
def offerVideos (route : Routing) (d : Datagram) (clock : Fin videoSlotCount → UInt64) :
    List (Fin videoSlotCount) → VideoReceiver Picture → VideoReceiver Picture
  | [], videos => videos
  | i :: rest, videos =>
    offerVideos route d clock rest
      (if route.watches d i then videos.enqueue i d.bytes (clock i) else videos)

/-- The loop over the audio slots; only another generation ends it early. -/
def offerSlots (route : Routing) (d : Datagram) (readings : Readings) :
    List (Fin slotCount) → (Fin slotCount → Slot) → Fin slotCount → Slot
  | [], slots => slots
  | i :: rest, slots =>
    if route.hears d i = false then offerSlots route d readings rest slots
    else if route.generation ≠ readings.generation i then slots
    else
      offerSlots route d readings rest
        (Function.update slots i ((slots i).receive d.decoded (readings.clock i)))

/-- `receive_loop` after `recvfrom`: the datagram came in on the socket of `polled`, and
`current` is published by now. -/
def receiveOnce (current polled : Routing) (d : Datagram) (readings : Readings)
    (s : Inbox Picture) : Inbox Picture :=
  if polled.socket ≠ current.socket then s
  else if d.name.isNone then s
  else if d.video then
    if current.generation ≠ readings.videoGeneration then s
    else
      { s with
        videos := s.videos.map
          (current.offerVideos d readings.videoClock (List.finRange videoSlotCount)) }
  else if d.audio = false then s
  else { s with slots := current.offerSlots d readings (List.finRange slotCount) s.slots }

end Routing

namespace Config

/-- The audio slot that a datagram is for. -/
structure Expects (parse : Parse) (config : Config) (d : Datagram) (i : Fin slotCount) :
    Prop where
  enabled : (config.slots i).enabled = true
  sender : parse (config.ip i) = some d.sender
  named : d.name = some (config.slots i).streamName
  kind : d.memory 4 &&& 0xe0 = 0

/-- The video slot that a datagram is for. -/
structure Awaits (parse : Parse) (config : Config) (d : Datagram) (i : Fin videoSlotCount) :
    Prop where
  enabled : (config.videos i).enabled = true
  sender : parse (config.videos i).senderIp = some d.sender
  named : d.name = some (config.videos i).streamName
  kind : d.memory 4 &&& 0xe0 = 0x80

end Config

section Loops

variable {route : Routing} {d : Datagram}

theorem Routing.offerVideos_none {clock : Fin videoSlotCount → UInt64}
    {list : List (Fin videoSlotCount)} {videos : VideoReceiver Picture}
    (deaf : ∀ i ∈ list, route.watches d i = false) :
    route.offerVideos d clock list videos = videos := by
  induction list generalizing videos with
  | nil => rfl
  | cons head rest ih =>
    have first := deaf head List.mem_cons_self
    rw [offerVideos, first]
    exact ih fun i member => deaf i (List.mem_cons_of_mem _ member)

/-- The loop reaches the one slot that watches, and passes all others. -/
theorem Routing.offerVideos_one {clock : Fin videoSlotCount → UInt64}
    {list : List (Fin videoSlotCount)} {videos : VideoReceiver Picture} {i : Fin videoSlotCount}
    (distinct : list.Nodup) (listed : i ∈ list) (watching : route.watches d i = true)
    (only : ∀ j, route.watches d j = true → j = i) :
    route.offerVideos d clock list videos = videos.enqueue i d.bytes (clock i) := by
  induction list generalizing videos with
  | nil => cases listed
  | cons head rest ih =>
    obtain ⟨fresh, apart⟩ := List.nodup_cons.mp distinct
    rw [offerVideos]
    rcases List.mem_cons.mp listed with rfl | later
    · rw [if_pos watching]
      apply offerVideos_none
      intro j member
      by_contra hears
      exact fresh (only j (eq_true_of_ne_false hears) ▸ member)
    · rw [if_neg (fun watches => fresh (only head watches ▸ later))]
      exact ih apart later

theorem Routing.offerSlots_none {readings : Readings} {list : List (Fin slotCount)}
    {slots : Fin slotCount → Slot} (deaf : ∀ i ∈ list, route.hears d i = false) :
    route.offerSlots d readings list slots = slots := by
  induction list generalizing slots with
  | nil => rfl
  | cons head rest ih =>
    rw [offerSlots, if_pos (deaf head List.mem_cons_self)]
    exact ih fun i member => deaf i (List.mem_cons_of_mem _ member)

/-- The loop reaches the one slot that hears, unless the generation has changed. -/
theorem Routing.offerSlots_one {readings : Readings} {list : List (Fin slotCount)}
    {slots : Fin slotCount → Slot} {i : Fin slotCount} (distinct : list.Nodup)
    (listed : i ∈ list) (hearing : route.hears d i = true)
    (only : ∀ j, route.hears d j = true → j = i) :
    route.offerSlots d readings list slots =
      if readings.generation i = route.generation then
        Function.update slots i ((slots i).receive d.decoded (readings.clock i))
      else slots := by
  induction list generalizing slots with
  | nil => cases listed
  | cons head rest ih =>
    obtain ⟨fresh, apart⟩ := List.nodup_cons.mp distinct
    rw [offerSlots]
    rcases List.mem_cons.mp listed with rfl | later
    · have silent : ∀ j ∈ rest, route.hears d j = false := by
        intro j member
        by_contra hears
        exact fresh (only j (eq_true_of_ne_false hears) ▸ member)
      rw [if_neg (by rw [hearing]; decide)]
      by_cases current : readings.generation i = route.generation
      · rw [if_neg (not_not.mpr current.symm), if_pos current, offerSlots_none silent]
      · rw [if_pos (Ne.symm current), if_neg current]
    · have deaf : route.hears d head = false := by
        by_contra hears
        exact fresh (only head (eq_true_of_ne_false hears) ▸ later)
      rw [if_pos deaf]
      exact ih apart later

end Loops

/-- Undisturbed, the network thread of the receiver makes the same visits. -/
theorem Receiver.visits_offer (parse : Parse) {s : Receiver} {route : Routing} {d : Datagram}
    {list : List (Fin slotCount)} (visiting : s.network = .visiting route d list)
    (readings : Readings) (steady : readings.generation = fun _ => s.generation) :
    ∃ labels t, run (Receiver.step parse) s labels = some t ∧ t.network = .idle ∧
      t.slots = route.offerSlots d readings list s.slots := by
  induction list generalizing s with
  | nil =>
    have taken : s.step parse (.visit 0) = some { s with network := .idle } := by
      rw [step, visiting]
      rfl
    exact ⟨[.visit 0], _, run_cons.mpr ⟨_, taken, rfl⟩, rfl, rfl⟩
  | cons head rest ih =>
    have stepped : s.step parse (.visit (readings.clock head)) = if route.hears d head then
        (if route.generation ≠ s.generation then some { s with network := .idle }
        else some { s.touch head (.received d (readings.clock head) s.generation) with
          network := .visiting route d rest })
      else some { s with network := .visiting route d rest } := by
      rw [step, visiting]
      rfl
    rw [Routing.offerSlots, steady]
    by_cases hears : route.hears d head = true
    · rw [if_pos hears] at stepped
      rw [if_neg (by rw [hears]; decide)]
      by_cases stale : route.generation ≠ s.generation
      · rw [if_pos stale] at stepped
        rw [if_pos stale]
        exact ⟨[_], { s with network := .idle }, run_cons.mpr ⟨_, stepped, rfl⟩, rfl, rfl⟩
      · rw [if_neg stale] at stepped
        rw [if_neg stale]
        obtain ⟨labels, t, ran, idle, offered⟩ := ih (s := { s.touch head (.received d
          (readings.clock head) s.generation) with network := .visiting route d rest }) rfl steady
        exact ⟨_ :: labels, t, run_cons.mpr ⟨_, stepped, ran⟩, idle, offered⟩
    · rw [if_neg hears] at stepped
      rw [if_pos (eq_false_of_ne_true hears)]
      obtain ⟨labels, t, ran, idle, offered⟩ :=
        ih (s := { s with network := .visiting route d rest }) rfl steady
      exact ⟨_ :: labels, t, run_cons.mpr ⟨_, stepped, ran⟩, idle, offered⟩

section Routes

variable {parse : Parse} {config : Config} {d : Datagram}

/-- The routing that `configure` publishes for a configuration. -/
def published (parse : Parse) (old : Routing) (config : Config) (fresh generation : Nat) :
    Routing := { Routing.prepare parse old config fresh with generation }

variable {old : Routing} {fresh generation : Nat}

theorem hears_iff (valid : validate parse config = none) (i : Fin slotCount) :
    (published parse old config fresh generation).hears d i = true ↔
      (config.slots i).enabled = true ∧ parse (config.ip i) = some d.sender ∧
        d.name = some (config.slots i).streamName := by
  simp only [Routing.hears, published, Routing.prepare, Bool.and_eq_true, beq_iff_eq, and_assoc]
  refine and_congr_right fun on => and_congr_left fun _ => ?_
  obtain ⟨address, parsed⟩ := Option.isSome_iff_exists.mp ((validate_slots valid).2 i on)
  rw [if_pos on, parsed, Option.getD_some, Option.some.injEq, eq_comm]

theorem watches_iff (valid : validate parse config = none) (i : Fin videoSlotCount) :
    (published parse old config fresh generation).watches d i = true ↔
      (config.videos i).enabled = true ∧ parse (config.videos i).senderIp = some d.sender ∧
        d.name = some (config.videos i).streamName := by
  simp only [Routing.watches, published, Routing.prepare, Bool.and_eq_true, beq_iff_eq, and_assoc]
  refine and_congr_right fun on => and_congr ?_ eq_comm
  obtain ⟨address, parsed⟩ := Option.isSome_iff_exists.mp (validate_videos valid i on)
  rw [if_pos on, parsed, Option.getD_some, Option.some.injEq]

/-- At most one slot is meant, and not one of each kind. -/
theorem Config.target_unique (valid : validate parse config = none) :
    (∀ i j, config.Expects parse d i → config.Expects parse d j → i = j) ∧
      (∀ i j, config.Awaits parse d i → config.Awaits parse d j → i = j) ∧
      ∀ i j, ¬ (config.Expects parse d i ∧ config.Awaits parse d j) := by
  obtain ⟨slots, videos⟩ := validate_distinct valid
  refine ⟨?_, ?_, ?_⟩
  · intro i j first second
    exact slots i j first.enabled second.enabled (first.sender.trans second.sender.symm)
      (Option.some.inj (first.named.symm.trans second.named))
  · intro i j first second
    exact videos i j first.enabled second.enabled (first.sender.trans second.sender.symm)
      (Option.some.inj (first.named.symm.trans second.named))
  · rintro i j ⟨audio, video⟩
    have kind := audio.kind.symm.trans video.kind
    cases kind

variable {polled : Routing} {readings : Readings} {s : Inbox Picture}

theorem receive_expected (valid : validate parse config = none) {i : Fin slotCount}
    (expects : config.Expects parse d i) :
    (published parse old config fresh generation).receiveOnce polled d readings s =
      if polled.socket = (published parse old config fresh generation).socket ∧
          readings.generation i = generation then
        { s with
          slots := Function.update s.slots i ((s.slots i).receive d.decoded (readings.clock i)) }
      else s := by
  obtain ⟨unique, _, _⟩ := Config.target_unique (d := d) valid
  have hearing : (published parse old config fresh generation).hears d i = true :=
    (hears_iff valid i).mpr ⟨expects.enabled, expects.sender, expects.named⟩
  have only (j : Fin slotCount)
      (hears : (published parse old config fresh generation).hears d j = true) : j = i := by
    obtain ⟨on, sender, named⟩ := (hears_iff valid j).mp hears
    exact unique j i ⟨on, sender, named, expects.kind⟩ expects
  have audio : d.audio = true := beq_iff_eq.mpr expects.kind
  have video : d.video = false := by
    rw [Datagram.video, expects.kind]
    rfl
  rw [Routing.receiveOnce, expects.named, video, audio,
    Routing.offerSlots_one (List.nodup_finRange _) (List.mem_finRange i) hearing only]
  by_cases same : polled.socket = (published parse old config fresh generation).socket
  · by_cases current : readings.generation i = generation
    · simp [same, current, published]
    · simp [same, current, published]
  · simp [same]

theorem receive_awaited (valid : validate parse config = none) {i : Fin videoSlotCount}
    (awaits : config.Awaits parse d i) :
    (published parse old config fresh generation).receiveOnce polled d readings s =
      if polled.socket = (published parse old config fresh generation).socket ∧
          readings.videoGeneration = generation then
        { s with videos := s.videos.map fun v => v.enqueue i d.bytes (readings.videoClock i) }
      else s := by
  obtain ⟨_, unique, _⟩ := Config.target_unique (d := d) valid
  have watching : (published parse old config fresh generation).watches d i = true :=
    (watches_iff valid i).mpr ⟨awaits.enabled, awaits.sender, awaits.named⟩
  have only (j : Fin videoSlotCount)
      (watches : (published parse old config fresh generation).watches d j = true) : j = i := by
    obtain ⟨on, sender, named⟩ := (watches_iff valid j).mp watches
    exact unique j i ⟨on, sender, named, awaits.kind⟩ awaits
  have video : d.video = true := beq_iff_eq.mpr awaits.kind
  have reached : ((published parse old config fresh generation).offerVideos d
      readings.videoClock (List.finRange videoSlotCount) :
        VideoReceiver Picture → VideoReceiver Picture) =
        fun v => v.enqueue i d.bytes (readings.videoClock i) := by
    funext v
    exact Routing.offerVideos_one (List.nodup_finRange _) (List.mem_finRange i) watching only
  rw [Routing.receiveOnce, awaits.named, video, reached]
  by_cases same : polled.socket = (published parse old config fresh generation).socket
  · by_cases current : readings.videoGeneration = generation
    · simp [same, current, published]
    · simp [same, Ne.symm current, current, published]
  · simp [same]

theorem receive_ignored (valid : validate parse config = none)
    (unexpected : ∀ i, ¬ config.Expects parse d i) (unawaited : ∀ i, ¬ config.Awaits parse d i) :
    (published parse old config fresh generation).receiveOnce polled d readings s = s := by
  unfold Routing.receiveOnce
  split
  · rfl
  · split
    · rfl
    · split
      · rename_i video
        have deaf (i : Fin videoSlotCount) (_ : i ∈ List.finRange videoSlotCount) :
            (published parse old config fresh generation).watches d i = false := by
          by_contra watches
          obtain ⟨on, sender, named⟩ := (watches_iff valid i).mp (eq_true_of_ne_false watches)
          exact unawaited i ⟨on, sender, named, beq_iff_eq.mp video⟩
        split
        · rfl
        · cases present : s.videos with
          | none => rw [Option.map_none, ← present]
          | some v => rw [Option.map_some, Routing.offerVideos_none deaf, ← present]
      · split
        · rfl
        · rename_i audio
          have deaf (i : Fin slotCount) (_ : i ∈ List.finRange slotCount) :
              (published parse old config fresh generation).hears d i = false := by
            by_contra hears
            obtain ⟨on, sender, named⟩ := (hears_iff valid i).mp (eq_true_of_ne_false hears)
            exact unexpected i ⟨on, sender, named, beq_iff_eq.mp (eq_true_of_ne_false audio)⟩
          rw [Routing.offerSlots_none deaf]

end Routes

/-- What `enqueue` writes: one entry at most, and the drop counter of its slot. -/
theorem VideoReceiver.enqueue_frame (v : VideoReceiver Picture) (i : Fin videoSlotCount)
    (bytes : List UInt8) (now : UInt64) :
    ∃ drops joined, v.enqueue i bytes now = { v with drops, queue := v.queue ++ joined } ∧
      (∀ j, j ≠ i → drops j = v.drops j) ∧ joined.length ≤ 1 ∧ ∀ p ∈ joined, p.slot = i := by
  have dropped : ∃ drops joined, v.drop i = { v with drops, queue := v.queue ++ joined } ∧
      (∀ j, j ≠ i → drops j = v.drops j) ∧ joined.length ≤ 1 ∧
        ∀ p ∈ joined, p.slot = i := by
    refine ⟨Function.update v.drops i (v.drops i + 1), [], by simp [drop],
      fun j other => Function.update_of_ne other _ _, Nat.zero_le _, fun _ none => nomatch none⟩
  rw [enqueue, dif_pos i.isLt]
  dsimp only
  split
  · exact ⟨v.drops, [], by simp, fun _ _ => rfl, Nat.zero_le _, fun _ none => nomatch none⟩
  · split
    · exact dropped
    · split
      · exact dropped
      · exact ⟨v.drops, [_], rfl, fun _ _ => rfl, le_rfl, by simp⟩

/-- Under a valid configuration at most one slot of both kinds is meant by a datagram, and
an iteration changes that slot alone: an audio slot under its mutex, or the queue and the
drop counter of a video slot; a datagram for nobody changes nothing. -/
theorem receive_isolated (parse : Parse) (config : Config) (valid : validate parse config = none)
    (old polled : Routing) (fresh generation : Nat) (d : Datagram) (readings : Readings)
    (s : Inbox Picture) :
    let current := published parse old config fresh generation
    let after := current.receiveOnce polled d readings s
    ((∀ i j, config.Expects parse d i → config.Expects parse d j → i = j) ∧
      (∀ i j, config.Awaits parse d i → config.Awaits parse d j → i = j) ∧
      ∀ i j, ¬ (config.Expects parse d i ∧ config.Awaits parse d j)) ∧
    (∀ i, config.Expects parse d i →
      after = if polled.socket = current.socket ∧ readings.generation i = generation then
          { s with
            slots := Function.update s.slots i
              ((s.slots i).receive d.decoded (readings.clock i)) }
        else s) ∧
    (∀ i, config.Awaits parse d i →
      (after = if polled.socket = current.socket ∧ readings.videoGeneration = generation then
          { s with videos := s.videos.map fun v => v.enqueue i d.bytes (readings.videoClock i) }
        else s) ∧
      ∀ (v : VideoReceiver Picture) now, ∃ drops joined,
        v.enqueue i d.bytes now = { v with drops, queue := v.queue ++ joined } ∧
        (∀ j, j ≠ i → drops j = v.drops j) ∧ joined.length ≤ 1 ∧ ∀ p ∈ joined, p.slot = i) ∧
    ((∀ i, ¬ config.Expects parse d i) → (∀ i, ¬ config.Awaits parse d i) → after = s) := by
  refine ⟨Config.target_unique valid, fun i expects => receive_expected valid expects, ?_,
    fun unexpected unawaited => receive_ignored valid unexpected unawaited⟩
  intro i awaits
  exact ⟨receive_awaited valid awaits, fun v now => v.enqueue_frame i d.bytes now⟩

/-- One enabled slot for each protocol, with the same sender and the same name. -/
def twins : Config :=
  { commonIp := true, senderIp := "10.0.0.2"
    slots := fun i => if i.val = 0 then { enabled := true, streamName := ascii "a" } else {}
    videos := fun i => if i.val = 0 then
      { enabled := true, senderIp := "10.0.0.2", streamName := ascii "a" } else {} }

/-- A header of the given protocol, from that sender under that name. -/
def twinHeader (protocol : UInt8) : Datagram :=
  { bytes := signature ++ [protocol, 0, 0, 0] ++ ascii "a" ++ List.replicate 19 0
    sender := 0x0200000a, socket := 0 }

def twinParse : Parse := fun text => if text = "10.0.0.2" then some 0x0200000a else none

/-- Nothing has been received yet, in the first generation. -/
def twinInbox : Inbox Unit := { slots := fun _ => {}, videos := some {} }

def twinReadings : Readings :=
  { videoGeneration := 1, videoClock := fun _ => 7, generation := fun _ => 1, clock := fun _ => 7 }

theorem receive_isolated_twins :
    let route := published twinParse {} twins 0 1
    route.receiveOnce route (twinHeader 0) twinReadings twinInbox =
        { twinInbox with
          slots := Function.update twinInbox.slots 0
            ((twinInbox.slots 0).receive (twinHeader 0).decoded 7) } ∧
      route.receiveOnce route (twinHeader 0x80) twinReadings twinInbox =
        { twinInbox with
          videos := twinInbox.videos.map fun v =>
            v.enqueue (0 : Fin videoSlotCount) (twinHeader 0x80).bytes 7 } := by
  have valid : validate twinParse twins = none := by decide +kernel
  have heard : twins.Expects twinParse (twinHeader 0) 0 :=
    ⟨by decide, by decide, by decide +kernel, by decide⟩
  have seen : twins.Awaits twinParse (twinHeader 0x80) 0 :=
    ⟨by decide, by decide, by decide +kernel, by decide⟩
  obtain ⟨_, audio, _, _⟩ := receive_isolated twinParse twins valid {}
    (published twinParse {} twins 0 1) 0 1 (twinHeader 0) twinReadings twinInbox
  obtain ⟨_, _, video, _⟩ := receive_isolated twinParse twins valid {}
    (published twinParse {} twins 0 1) 0 1 (twinHeader 0x80) twinReadings twinInbox
  exact ⟨(audio 0 heard).trans (if_pos ⟨rfl, rfl⟩),
    (video 0 seen).1.trans (if_pos ⟨rfl, rfl⟩)⟩

end VbanStream
