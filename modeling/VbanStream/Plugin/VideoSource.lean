import VbanStream.Video.Isolation

/-! An OBS source that shows a video slot: `video_update` selects the slot, and `video_tick` gives
OBS each new picture once, or a black one while there is none. -/

namespace VbanStream

open Library

/-- `video_selected` of the slot in the settings. -/
def videoSelected (setting : Int) : Int :=
  if 0 ≤ setting ∧ setting < videoSlotCount then setting else -1

structure VideoSource where
  slot : Int := -1
  serial : Nat := 0
  width : Int := 1280
  height : Int := 720
  showingBlack : Bool := false

/-- What `obs_source_output_video` is given; a frame without a picture is black. -/
structure VideoFrame (Picture : Type*) where
  picture : Option (VideoSnapshot Picture)
  width : Int
  height : Int
  timestamp : UInt64

namespace VideoSource

variable {Picture : Type*} (size : Picture → Int × Int)

/-- The slot in `video_update`. -/
def update (s : VideoSource) (setting : Int) : VideoSource :=
  let slot := videoSelected setting
  if s.slot ≠ slot then { s with slot, serial := 0, showingBlack := false } else s

/-- `video_tick`, when the black picture can be allocated or not. -/
def tick (s : VideoSource) (snapshot : Option (VideoSnapshot Picture)) (allocated : Bool)
    (now : UInt64) : VideoSource × Option (VideoFrame Picture) :=
  match snapshot with
  | none =>
    if s.showingBlack then (s, none)
    else if allocated = false then (s, none)
    else
      ({ s with serial := 0, showingBlack := true },
        some { picture := none, width := s.width, height := s.height, timestamp := now })
  | some shown =>
    if shown.serial = s.serial then (s, none)
    else
      let (width, height) := size shown.picture
      ({ s with serial := shown.serial, showingBlack := false, width, height },
        some { picture := some shown, width, height, timestamp := shown.timestamp })

end VideoSource

/-- A source and the receiver, with the frames that the source has given to OBS. Each frame stands
under the number of slots that were selected before it. -/
structure VideoScreen (Picture : Type*) where
  receiver : VideoReceiver Picture := {}
  source : VideoSource := {}
  clock : UInt64 := 0
  selection : Nat := 0
  frames : List (Nat × VideoFrame Picture) := []

namespace VideoScreen

variable {Picture : Type*}

inductive Label (Picture : Type*) where
  | receiver (label : VideoReceiver.Label Picture)
  | update (setting : Int)
  | tick (now : UInt64) (allocated : Bool)

/-- The clock that a step of the receiver reads. -/
def time : VideoReceiver.Label Picture → Option UInt64
  | .enqueue _ _ now | .expire now | .assemble now _ | .raise now _ => some now
  | .configure _ _ | .change | .configured | .dequeue | .publish | .stop => none

/-- One clock that does not go back; `snapshot` waits for a `configure` in progress. -/
def step (size : Picture → Int × Int) (s : VideoScreen Picture) :
    Label Picture → Option (VideoScreen Picture)
  | .receiver label =>
    let now := (time label).getD s.clock
    if s.clock ≤ now then
      (s.receiver.step label).map fun receiver => { s with receiver, clock := now }
    else none
  | .update setting =>
    some { s with
      source := s.source.update setting
      selection := s.selection + if s.source.slot ≠ videoSelected setting then 1 else 0 }
  | .tick now allocated =>
    if s.clock ≤ now ∧ s.receiver.edit.isNone then
      let snapshot := s.receiver.snapshot s.source.slot now
      let (source, frame) := s.source.tick size snapshot allocated now
      some { s with
        source
        clock := now
        frames := s.frames ++ frame.toList.map fun frame => (s.selection, frame) }
    else none

/-- The size of the last picture among some frames. -/
def lastSize (size : Picture → Int × Int) (frames : List (Nat × VideoFrame Picture)) : Int × Int :=
  ((frames.filterMap fun entry => entry.2.picture).getLast?.map fun shown =>
    size shown.picture).getD (1280, 720)

end VideoScreen

namespace VideoReceiver

variable {Picture : Type*} {s next : VideoReceiver Picture} {label : Label Picture}

/-- The datagram that the worker has taken from the queue. -/
def Worker.datagram : Worker Picture → Option VideoDatagram
  | .idle => none
  | .holding p | .publishing p _ _ _ | .failing p _ => some p

/-- What a step may do to a slot: leave its picture, take it away, or put a new one there. -/
inductive Turned (s next : VideoReceiver Picture) (i : Fin videoSlotCount) : Prop where
  | kept (latest : (next.slots i).latest = (s.slots i).latest)
      (enabled : (next.slots i).config.enabled = (s.slots i).config.enabled)
  | emptied (latest : (next.slots i).latest = none)
  | shown (picture : VideoSnapshot Picture) (p : VideoDatagram)
      (latest : (next.slots i).latest = some picture) (serial : picture.serial = s.serial + 1)
      (counted : next.serial = s.serial + 1) (held : Worker.datagram s.worker = some p)
      (slot : p.slot = i) (timestamp : picture.timestamp = p.timestamp)

/-- A slot is edited, and its picture stays. -/
theorem Turned.edited (k : Fin videoSlotCount) (slot : VideoSlot Picture)
    (slots : next.slots = Function.update s.slots k slot)
    (latest : slot.latest = (s.slots k).latest)
    (enabled : slot.config.enabled = (s.slots k).config.enabled) (j : Fin videoSlotCount) :
    Turned s next j := by
  by_cases here : j = k
  · subst here
    exact .kept (by simp [slots, latest]) (by simp [slots, enabled])
  · exact .kept (by simp [slots, here]) (by simp [slots, here])

theorem turned_changeSlot (s : VideoReceiver Picture) (config : VideoConfig) (port : UInt16)
    (i j : Fin videoSlotCount) : Turned s (s.changeSlot config port i) j := by
  rw [changeSlot]
  split
  · by_cases here : j = i
    · subst here
      exact .emptied (by simp)
    · exact .kept (by simp [here]) (by simp [here])
  · rename_i same
    obtain ⟨alike, -⟩ := not_or.mp same
    have enabled : (s.slots i).config.enabled = config.enabled := by
      simp only [VideoConfig.same, Bool.not_eq_false, Bool.and_eq_true, beq_iff_eq] at alike
      exact alike.1.1
    exact .edited i { s.slots i with config } rfl rfl enabled.symm j

theorem turned_publish (s : VideoReceiver Picture) {p : VideoDatagram} {counters : FrameCounters}
    {log : List Feed} {completed : Option (List UInt8 × Decoding Picture)}
    (held : s.worker = .publishing p counters log completed) (j : Fin videoSlotCount) :
    s.serial ≤ (s.publish p counters log completed).serial ∧
      Turned s (s.publish p counters log completed) j := by
  rw [publish]
  cases shows completed with
  | none =>
    refine ⟨le_rfl, .edited p.slot
      { s.slots p.slot with status := report (s.slots p.slot).status counters completed }
      rfl rfl rfl j⟩
  | some found =>
    refine ⟨Nat.le_succ _, ?_⟩
    by_cases here : j = p.slot
    · subst here
      exact .shown ⟨found.2, s.serial + 1, p.timestamp⟩ p (by simp) rfl rfl (by rw [held]; rfl)
        rfl rfl
    · exact .kept (by simp [here]) (by simp [here])

theorem Turned.same (slots : next.slots = s.slots) (i : Fin videoSlotCount) : Turned s next i :=
  .kept (by rw [slots]) (by rw [slots])

theorem adopt_slots (s : VideoReceiver Picture) (p : VideoDatagram) :
    (s.adopt p).slots = s.slots ∧ (s.adopt p).serial = s.serial ∧
      (s.adopt p).queue = s.queue := by
  rw [adopt]
  split <;> exact ⟨rfl, rfl, rfl⟩

/-- The datagrams that are in the queue or with the worker were there before, or come in now. -/
def Carries (s : VideoReceiver Picture) (p : VideoDatagram) : Prop :=
  p ∈ s.queue ∨ Worker.datagram s.worker = some p

theorem configureStep_turned (taken : s.configureStep label s.edit = some next) :
    (∀ i, Turned s next i) ∧ s.serial ≤ next.serial ∧
      ∀ p, next.Carries p → s.Carries p ∨
        ∃ slot bytes, label = .enqueue slot bytes p.timestamp := by
  rw [configureStep.eq_def] at taken
  split at taken <;> cases taken
  · exact ⟨.same rfl, le_rfl, fun _ carried => .inl carried⟩
  · rename_i config port changed remaining editing
    have still : (s.changeSlot (config changed) port changed).serial = s.serial ∧
        (s.changeSlot (config changed) port changed).queue = s.queue ∧
        (s.changeSlot (config changed) port changed).worker = s.worker := by
      rw [changeSlot]
      split <;> exact ⟨rfl, rfl, rfl⟩
    refine ⟨fun i => ?_, still.1.ge, fun p carried => .inl ?_⟩
    · cases s.turned_changeSlot (config changed) port changed i with
      | kept latest enabled => exact .kept latest enabled
      | emptied latest => exact .emptied latest
      | shown picture p latest serial counted held slot timestamp =>
        exact .shown picture p latest serial counted held slot timestamp
    · rw [Carries, ← still.2.1, ← still.2.2]
      exact carried
  · exact ⟨.same rfl, le_rfl, fun _ carried => .inl carried⟩
  · rename_i slot bytes now free
    rcases enqueue_cases s slot bytes now with ⟨i, _, joined⟩ | ⟨i, dropped⟩ | refused
    · rw [joined]
      refine ⟨.same rfl, le_rfl, ?_⟩
      rintro p (queued | held)
      · rcases List.mem_append.mp queued with old | new
        · exact .inl (.inl old)
        · rw [List.mem_singleton.mp new]
          exact .inr ⟨slot, bytes, rfl⟩
      · exact .inl (.inr held)
    · rw [dropped]
      exact ⟨.same rfl, le_rfl, fun _ carried => .inl carried⟩
    · rw [refused]
      exact ⟨.same rfl, le_rfl, fun _ carried => .inl carried⟩
  · exact ⟨.same rfl, le_rfl, fun _ carried => .inl carried⟩

theorem workerStep_turned (taken : s.workerStep label s.worker = some next) :
    (∀ i, Turned s next i) ∧ s.serial ≤ next.serial ∧ ∀ p, next.Carries p → s.Carries p := by
  generalize here : s.worker = place at taken
  have still {after : VideoReceiver Picture} (slots : after.slots = s.slots)
      (serial : after.serial = s.serial) (queue : after.queue = s.queue)
      (worker : Worker.datagram after.worker = none ∨
        Worker.datagram after.worker = Worker.datagram s.worker) :
      (∀ i, Turned s after i) ∧ s.serial ≤ after.serial ∧ ∀ p, after.Carries p → s.Carries p := by
    refine ⟨.same slots, serial.ge, ?_⟩
    rintro p (queued | held)
    · exact .inl (queue ▸ queued)
    · rcases worker with idle | same
      · rw [idle] at held
        cases held
      · exact .inr (same ▸ held)
  rw [workerStep.eq_def] at taken
  split at taken
  · split at taken
    · cases taken
    · split at taken
      · cases taken
      · rename_i p rest front
        cases taken
        refine ⟨.same rfl, le_rfl, ?_⟩
        rintro other (queued | held)
        · exact .inl (front ▸ List.mem_cons_of_mem p queued)
        · cases held
          exact .inl (front ▸ List.mem_cons_self)
  · split at taken <;> cases taken
    exact still rfl rfl rfl (.inl (by rw [here]; rfl))
  · rename_i p
    obtain ⟨slots, serial, queue⟩ := s.adopt_slots p
    split at taken <;> cases taken
    · exact still rfl rfl rfl (.inl rfl)
    · exact still slots serial queue (.inr (by rw [here]; rfl))
  · rename_i p
    obtain ⟨slots, serial, queue⟩ := s.adopt_slots p
    split at taken <;> cases taken
    · exact still rfl rfl rfl (.inl rfl)
    · exact still slots serial queue (.inr (by rw [here]; rfl))
  · rename_i p counters log completed
    split at taken
    · cases taken
    · split at taken <;> cases taken
      · exact still rfl rfl rfl (.inl rfl)
      · have published := s.turned_publish here
        refine ⟨fun i => ?_, (published p.slot).1, ?_⟩
        · cases (published i).2 with
          | kept latest enabled => exact .kept latest enabled
          | emptied latest => exact .emptied latest
          | shown picture p latest serial counted held slot timestamp =>
            exact .shown picture p latest serial counted held slot timestamp
        · rintro other (queued | held)
          · refine .inl ?_
            have same : (s.publish p counters log completed).queue = s.queue := by
              rw [publish]
              cases shows completed <;> rfl
            exact same ▸ queued
          · cases held
  · rename_i p message
    split at taken
    · cases taken
    · split at taken <;> cases taken
      · exact still rfl rfl rfl (.inl rfl)
      · refine ⟨.edited p.slot { s.slots p.slot with status := _ } rfl rfl rfl, le_rfl, ?_⟩
        · rintro other (queued | held)
          · exact .inl queued
          · cases held
  · cases taken

theorem step_turned (taken : s.step label = some next) :
    (∀ i, Turned s next i) ∧ s.serial ≤ next.serial ∧
      ∀ p, next.Carries p → s.Carries p ∨
        ∃ slot bytes, label = .enqueue slot bytes p.timestamp := by
  cases label with
  | configure _ _ | change | configured | enqueue _ _ _ | stop =>
    refine configureStep_turned ?_
    exact taken
  | dequeue | expire _ | assemble _ _ | raise _ _ | publish =>
    obtain ⟨turned, serial, carried⟩ := workerStep_turned (s := s) taken
    exact ⟨turned, serial, fun p now => .inl (carried p now)⟩

end VideoReceiver

namespace VideoScreen

variable {Picture : Type*}

/-- A picture that `snapshot` does not show, now or later. -/
def Refused (s : VideoScreen Picture) (i : Fin videoSlotCount) (latest : VideoSnapshot Picture) :
    Prop :=
  (s.receiver.slots i).config.enabled = false ∨ videoStaleNs ≤ s.clock - latest.timestamp

/-- Two frames of one selection: a later picture is a newer one. -/
def Newer (a b : Nat × VideoFrame Picture) : Prop :=
  a.1 = b.1 → ∀ first second, a.2.picture = some first → b.2.picture = some second →
    first.serial < second.serial

/-- Neighbours of one selection are not both black. -/
def Varied (a b : Nat × VideoFrame Picture) : Prop :=
  a.1 = b.1 → a.2.picture = none → b.2.picture.isSome = true

structure Faithful (size : Picture → Int × Int) (s : VideoScreen Picture) : Prop where
  carried : ∀ p, s.receiver.Carries p → p.timestamp ≤ s.clock
  latest : ∀ i latest, (s.receiver.slots i).latest = some latest →
    latest.timestamp ≤ s.clock ∧ 1 ≤ latest.serial ∧ latest.serial ≤ s.receiver.serial
  given : ∀ e ∈ s.frames, e.1 ≤ s.selection ∧ ∀ shown, e.2.picture = some shown →
    1 ≤ shown.serial ∧ shown.serial ≤ s.receiver.serial
  unique : ∀ i latest, (s.receiver.slots i).latest = some latest → ∀ e ∈ s.frames, ∀ shown,
    e.2.picture = some shown → shown.serial = latest.serial → shown = latest
  apart : ∀ i j first second, (s.receiver.slots i).latest = some first →
    (s.receiver.slots j).latest = some second → first.serial = second.serial → first = second
  black : s.source.showingBlack = true →
    ∃ frame, s.frames.getLast? = some (s.selection, frame) ∧ frame.picture = none
  blackened : ∀ frame, s.frames.getLast? = some (s.selection, frame) → frame.picture = none →
    s.source.showingBlack = true
  shows : s.source.serial ≠ 0 → ∃ frame shown, s.frames.getLast? = some (s.selection, frame) ∧
    frame.picture = some shown ∧ shown.serial = s.source.serial
  spent : ∀ e ∈ s.frames, e.1 = s.selection → ∀ shown, e.2.picture = some shown →
    ∀ i : Fin videoSlotCount, s.source.slot = i → ∀ latest,
      (s.receiver.slots i).latest = some latest →
      shown.serial < latest.serial ∨
        shown.serial = latest.serial ∧ (s.source.serial = latest.serial ∨ s.Refused i latest)
  scaled : (s.source.width, s.source.height) = lastSize size s.frames
  sized : ∀ e, s.frames.getLast? = some e → (e.2.width, e.2.height) = lastSize size s.frames
  newer : s.frames.Pairwise Newer
  varied : s.frames.IsChain Varied

section Steps

variable {size : Picture → Int × Int} {s : VideoScreen Picture}

theorem stale_later {stamp clock now : UInt64} (stamped : stamp ≤ clock) (later : clock ≤ now)
    (stale : videoStaleNs ≤ clock - stamp) : videoStaleNs ≤ now - stamp := by
  have order := UInt64.le_iff_toNat_le.mp later
  rw [UInt64.le_iff_toNat_le, UInt64.toNat_sub_of_le _ _ stamped] at stale
  rw [UInt64.le_iff_toNat_le, UInt64.toNat_sub_of_le _ _ (UInt64.le_trans stamped later)]
  omega

theorem Faithful.initial (size : Picture → Int × Int) (slot : Int) :
    Faithful size ({ source := { slot } } : VideoScreen Picture) where
  carried := by rintro p (⟨⟨⟩⟩ | ⟨⟨⟩⟩)
  latest := nofun
  given := nofun
  unique := nofun
  apart := nofun
  black := nofun
  blackened := nofun
  shows unset := absurd rfl unset
  spent := nofun
  scaled := rfl
  sized := nofun
  newer := .nil
  varied := .nil

theorem Faithful.receive (faithful : Faithful size s) {label : VideoReceiver.Label Picture}
    {receiver : VideoReceiver Picture} (taken : s.receiver.step label = some receiver)
    {now : UInt64} (clock : (time label).getD s.clock = now) (later : s.clock ≤ now) :
    Faithful size { s with receiver, clock := now } := by
  obtain ⟨turned, counted, carries⟩ := VideoReceiver.step_turned taken
  refine { faithful with
    carried := ?_, latest := ?_, given := ?_, unique := ?_, apart := ?_, spent := ?_ }
  · intro p here
    rcases carries p here with before | ⟨slot, bytes, rfl⟩
    · exact UInt64.le_trans (faithful.carried p before) later
    · cases clock
      exact UInt64.le_refl _
  · intro i latest here
    cases turned i with
    | kept same =>
      obtain ⟨stamped, positive, bounded⟩ := faithful.latest i latest (same ▸ here)
      exact ⟨UInt64.le_trans stamped later, positive, bounded.trans counted⟩
    | emptied none => exact absurd (here.symm.trans none) nofun
    | shown picture p same serial grown held slot timestamp =>
      cases here.symm.trans same
      refine ⟨?_, by omega, by simp only; omega⟩
      rw [timestamp]
      exact UInt64.le_trans (faithful.carried p (.inr held)) later
  · intro e member
    obtain ⟨old, bounds⟩ := faithful.given e member
    exact ⟨old, fun shown here => ⟨(bounds shown here).1, (bounds shown here).2.trans counted⟩⟩
  · intro i latest here e member shown found equal
    cases turned i with
    | kept same => exact faithful.unique i latest (same ▸ here) e member shown found equal
    | emptied none => exact absurd (here.symm.trans none) nofun
    | shown picture p same serial grown held slot timestamp =>
      cases here.symm.trans same
      have bound := ((faithful.given e member).2 shown found).2
      omega
  · intro i j first second here there equal
    have bound (k : Fin videoSlotCount) (latest : VideoSnapshot Picture)
        (old : (s.receiver.slots k).latest = some latest) : latest.serial ≤ s.receiver.serial :=
      (faithful.latest k latest old).2.2
    cases turned i with
    | emptied none => exact absurd (here.symm.trans none) nofun
    | kept same =>
      cases turned j with
      | emptied none => exact absurd (there.symm.trans none) nofun
      | kept same' => exact faithful.apart i j first second (same ▸ here) (same' ▸ there) equal
      | shown picture p same' serial grown held slot timestamp =>
        cases there.symm.trans same'
        have old := bound i first (same ▸ here)
        omega
    | shown picture p same serial grown held slot timestamp =>
      cases here.symm.trans same
      cases turned j with
      | emptied none => exact absurd (there.symm.trans none) nofun
      | kept same' =>
        have old := bound j second (same' ▸ there)
        omega
      | shown picture' p' same' serial' grown' held' slot' timestamp' =>
        -- One step publishes for one slot.
        cases there.symm.trans same'
        cases held.symm.trans held'
        obtain rfl := slot.symm.trans slot'
        exact Option.some.inj (here.symm.trans there)
  · intro e member current shown found i chosen latest here
    cases turned i with
    | kept same enabled =>
      refine (faithful.spent e member current shown found i chosen latest
        (same ▸ here)).imp_right ?_
      rintro ⟨equal, shows | disabled | stale⟩
      · exact ⟨equal, .inl shows⟩
      · exact ⟨equal, .inr (.inl (enabled.trans disabled))⟩
      · have stamped := (faithful.latest i latest (same ▸ here)).1
        exact ⟨equal, .inr (.inr (stale_later stamped later stale))⟩
    | emptied none => exact absurd (here.symm.trans none) nofun
    | shown picture p same serial grown held slot timestamp =>
      cases here.symm.trans same
      have bound := ((faithful.given e member).2 shown found).2
      exact .inl (by omega)

theorem Faithful.update (faithful : Faithful size s) (setting : Int) :
    Faithful size { s with
      source := s.source.update setting
      selection := s.selection + if s.source.slot ≠ videoSelected setting then 1 else 0 } := by
  by_cases changes : s.source.slot ≠ videoSelected setting
  · simp only [VideoSource.update, if_pos changes]
    refine { faithful with given := ?_, black := nofun, blackened := ?_, shows := ?_, spent := ?_ }
    · intro e member
      obtain ⟨old, bounds⟩ := faithful.given e member
      exact ⟨old.trans (Nat.le_succ _), bounds⟩
    · intro frame last
      have old := (faithful.given _ (List.mem_of_getLast? last)).1
      simp only at old
      omega
    · intro unset
      exact absurd rfl unset
    · intro e member current
      have old := (faithful.given e member).1
      simp only at current
      omega
  · simp only [VideoSource.update, if_neg changes, Nat.add_zero]
    exact faithful

theorem Faithful.wait (faithful : Faithful size s) {now : UInt64} (later : s.clock ≤ now) :
    Faithful size { s with clock := now } := by
  refine { faithful with carried := ?_, latest := ?_, spent := ?_ }
  · exact fun p here => UInt64.le_trans (faithful.carried p here) later
  · intro i latest here
    obtain ⟨stamped, bounds⟩ := faithful.latest i latest here
    exact ⟨UInt64.le_trans stamped later, bounds⟩
  · intro e member current shown found i slot latest here
    refine (faithful.spent e member current shown found i slot latest here).imp_right ?_
    rintro ⟨equal, shows | disabled | stale⟩
    · exact ⟨equal, .inl shows⟩
    · exact ⟨equal, .inr (.inl disabled)⟩
    · have stamped := (faithful.latest i latest here).1
      exact ⟨equal, .inr (.inr (stale_later stamped later stale))⟩

theorem snapshot_none_iff {i : Fin videoSlotCount} (chosen : s.source.slot = i)
    {latest : VideoSnapshot Picture} (here : (s.receiver.slots i).latest = some latest) :
    s.receiver.snapshot s.source.slot s.clock = none ↔ s.Refused i latest := by
  have inside : 0 ≤ s.source.slot ∧ s.source.slot < videoSlotCount := by
    rw [chosen]
    exact ⟨Int.natCast_nonneg _, by exact_mod_cast i.isLt⟩
  have same : (⟨s.source.slot.toNat, by omega⟩ : Fin videoSlotCount) = i := by
    simp only [chosen, Int.toNat_natCast]
  rw [VideoReceiver.snapshot, dif_pos inside]
  simp only [same, here]
  by_cases disabled : (s.receiver.slots i).config.enabled = false
  · simp [Refused, disabled]
  · rw [if_neg disabled, Option.filter_some]
    simp [Refused, disabled]

theorem lastSize_black (size : Picture → Int × Int) (frames : List (Nat × VideoFrame Picture))
    {e : Nat × VideoFrame Picture} (black : e.2.picture = none) :
    lastSize size (frames ++ [e]) = lastSize size frames := by
  simp [lastSize, black]

theorem lastSize_shown (size : Picture → Int × Int) (frames : List (Nat × VideoFrame Picture))
    {e : Nat × VideoFrame Picture} {shown : VideoSnapshot Picture}
    (picture : e.2.picture = some shown) :
    lastSize size (frames ++ [e]) = size shown.picture := by
  simp [lastSize, picture]

/-- The black picture, when the source was not black before. -/
theorem Faithful.blacken (faithful : Faithful size s)
    (absent : s.receiver.snapshot s.source.slot s.clock = none)
    (before : s.source.showingBlack = false) {frame : VideoFrame Picture}
    (black : frame.picture = none)
    (dimensions : (frame.width, frame.height) = (s.source.width, s.source.height)) :
    Faithful size { s with
      source := { s.source with serial := 0, showingBlack := true }
      frames := s.frames ++ [(s.selection, frame)] } := by
  have none_shown {shown : VideoSnapshot Picture} : frame.picture ≠ some shown := by
    rw [black]
    exact nofun
  refine { faithful with
    given := ?_, unique := ?_, black := ?_, blackened := fun _ _ _ => rfl,
    shows := fun unset => absurd rfl unset, spent := ?_, scaled := ?_, sized := ?_,
    newer := ?_, varied := ?_ }
  · intro e member
    rcases List.mem_append.mp member with old | new
    · exact faithful.given e old
    · cases List.mem_singleton.mp new
      exact ⟨le_rfl, fun shown here => absurd here none_shown⟩
  · intro i latest here e member shown found
    rcases List.mem_append.mp member with old | new
    · exact faithful.unique i latest here e old shown found
    · cases List.mem_singleton.mp new
      exact absurd found none_shown
  · intro _
    exact ⟨frame, List.getLast?_concat, black⟩
  · intro e member current shown found i chosen latest here
    rcases List.mem_append.mp member with old | new
    · -- The same picture comes again only if it is refused now.
      refine (faithful.spent e old current shown found i chosen latest here).imp_right ?_
      exact fun again => ⟨again.1, .inr ((snapshot_none_iff chosen here).mp absent)⟩
    · cases List.mem_singleton.mp new
      exact absurd found none_shown
  · rw [lastSize_black size s.frames black]
    exact faithful.scaled
  · intro e last
    cases Option.some.inj (last.symm.trans List.getLast?_concat)
    rw [lastSize_black size s.frames black, dimensions]
    exact faithful.scaled
  · refine List.pairwise_append.mpr ⟨faithful.newer, List.pairwise_singleton _ _, ?_⟩
    intro a _ b new _ first second _ found
    cases List.mem_singleton.mp new
    exact absurd found none_shown
  · refine List.IsChain.append faithful.varied (List.isChain_singleton _) ?_
    intro a last b first same dark
    cases Option.some.inj first
    obtain ⟨number, given⟩ := a
    obtain rfl : number = s.selection := same
    have showing := faithful.blackened given last dark
    exact absurd showing (by simp [before])

/-- A picture that the source has not given last. -/
theorem Faithful.show (faithful : Faithful size s) {shown : VideoSnapshot Picture}
    (seen : s.receiver.snapshot s.source.slot s.clock = some shown)
    (fresh : shown.serial ≠ s.source.serial) {frame : VideoFrame Picture}
    (picture : frame.picture = some shown)
    (dimensions : (frame.width, frame.height) = size shown.picture) :
    Faithful size { s with
      source := { s.source with
        serial := shown.serial, showingBlack := false
        width := (size shown.picture).1, height := (size shown.picture).2 }
      frames := s.frames ++ [(s.selection, frame)] } := by
  obtain ⟨i, chosen, here⟩ := VideoReceiver.snapshot_latest seen
  have visible : ¬ s.Refused i shown := by
    intro refused
    rw [(snapshot_none_iff chosen here).mpr refused] at seen
    cases seen
  have only {j : Fin videoSlotCount} (other : s.source.slot = j) : j = i := by
    have same := other.symm.trans chosen
    exact Fin.ext (by exact_mod_cast same)
  refine { faithful with
    given := ?_, unique := ?_, black := nofun, blackened := ?_, shows := ?_, spent := ?_,
    scaled := ?_, sized := ?_, newer := ?_, varied := ?_ }
  · intro e member
    rcases List.mem_append.mp member with old | new
    · exact faithful.given e old
    · cases List.mem_singleton.mp new
      refine ⟨le_rfl, fun found given => ?_⟩
      cases picture.symm.trans given
      exact (faithful.latest i shown here).2
  · intro j latest there e member found given equal
    rcases List.mem_append.mp member with old | new
    · exact faithful.unique j latest there e old found given equal
    · cases List.mem_singleton.mp new
      cases picture.symm.trans given
      exact faithful.apart i j shown latest here there equal
  · intro other last dark
    cases Option.some.inj (List.getLast?_concat.symm.trans last)
    exact absurd (picture.symm.trans dark) nofun
  · intro _
    exact ⟨frame, shown, List.getLast?_concat, picture, rfl⟩
  · intro e member current found given j other latest there
    obtain rfl := only other
    cases here.symm.trans there
    rcases List.mem_append.mp member with old | new
    · exact (faithful.spent e old current found given j chosen shown here).imp_right
        fun again => ⟨again.1, .inl rfl⟩
    · cases List.mem_singleton.mp new
      cases picture.symm.trans given
      exact .inr ⟨rfl, .inl rfl⟩
  · exact (lastSize_shown size s.frames (e := (s.selection, frame)) picture).symm
  · intro e last
    cases Option.some.inj (last.symm.trans List.getLast?_concat)
    rw [lastSize_shown size s.frames picture, dimensions]
  · refine List.pairwise_append.mpr ⟨faithful.newer, List.pairwise_singleton _ _, ?_⟩
    intro a member b new same first second given found
    cases List.mem_singleton.mp new
    cases picture.symm.trans found
    rcases faithful.spent a member same first given i chosen shown here with
      older | ⟨_, last | refused⟩
    · exact older
    · exact absurd last.symm fresh
    · exact absurd refused visible
  · refine List.IsChain.append faithful.varied (List.isChain_singleton _) ?_
    intro a _ b first _ _
    cases Option.some.inj first
    rw [picture]
    rfl

/-- What a tick shows, and that the source stays faithful. -/
theorem Faithful.tick (faithful : Faithful size s) {now : UInt64} {allocated : Bool}
    {next : VideoScreen Picture} (taken : s.step size (.tick now allocated) = some next) :
    Faithful size next ∧
      (allocated = true → ∃ frame, next.frames.getLast? = some (s.selection, frame) ∧
        frame.picture = s.receiver.snapshot s.source.slot now) := by
  rw [step] at taken
  split at taken
  · rename_i ready
    have waited := faithful.wait ready.1
    cases taken
    cases seen : s.receiver.snapshot s.source.slot now with
    | none =>
      cases before : s.source.showingBlack with
      | true =>
        obtain ⟨frame, last, black⟩ := faithful.black before
        simp only [if_true, Option.toList_none, List.map_nil, List.append_nil]
        exact ⟨waited, fun _ => ⟨frame, last, black⟩⟩
      | false =>
        cases allocated with
        | false =>
          simp only [Bool.false_eq_true, if_false, if_true, Option.toList_none, List.map_nil,
            List.append_nil]
          exact ⟨waited, nofun⟩
        | true =>
          simp only [Bool.false_eq_true, Bool.true_eq_false, if_false, Option.toList_some,
            List.map_cons, List.map_nil]
          exact ⟨waited.blacken seen before rfl rfl,
            fun _ => ⟨_, List.getLast?_concat, rfl⟩⟩
    | some shown =>
      by_cases same : shown.serial = s.source.serial
      · obtain ⟨i, _, here⟩ := VideoReceiver.snapshot_latest seen
        have positive := (faithful.latest i shown here).2.1
        obtain ⟨frame, given, last, picture, serial⟩ := faithful.shows (by omega)
        have equal := faithful.unique i shown here _ (List.mem_of_getLast? last) given picture
          (serial.trans same.symm)
        simp only [if_pos same, Option.toList_none, List.map_nil, List.append_nil]
        exact ⟨waited, fun _ => ⟨frame, last, by rw [picture, equal]⟩⟩
      · simp only [if_neg same, Option.toList_some, List.map_cons, List.map_nil]
        exact ⟨waited.show seen same rfl rfl, fun _ => ⟨_, List.getLast?_concat, rfl⟩⟩
  · cases taken

theorem Faithful.step (faithful : Faithful size s) {label : Label Picture}
    {next : VideoScreen Picture} (taken : s.step size label = some next) : Faithful size next := by
  cases label with
  | receiver label =>
    simp only [VideoScreen.step] at taken
    split at taken
    · rename_i later
      obtain ⟨receiver, received, rfl⟩ := Option.map_eq_some_iff.mp taken
      exact faithful.receive received rfl later
    · cases taken
  | update setting =>
    cases taken
    exact faithful.update setting
  | tick now allocated => exact (faithful.tick taken).1

end Steps

/-- In every run of a receiver and a source, whatever slots are selected: after a tick, if the
black picture could be allocated, the last frame that OBS was given under this selection is the
receiver's picture of the slot, or a black one, in the size of the last picture. While a slot
stays selected no picture is given twice or after a newer one, and no two black frames follow each
other. -/
theorem video_source_faithful (size : Picture → Int × Int) (slot : Int)
    {labels : List (Label Picture)} {final : VideoScreen Picture}
    (success : run (step size) { source := { slot } } labels = some final) :
    (∀ state now, Performs (step size) { source := { slot } } labels state (.tick now true) →
      ∀ next, step size state (.tick now true) = some next →
        ∃ frame, next.frames.getLast? = some (state.selection, frame) ∧
          frame.picture = state.receiver.snapshot state.source.slot now ∧
          (frame.width, frame.height) = lastSize size next.frames) ∧
      final.frames.Pairwise Newer ∧ final.frames.IsChain Varied := by
  have always {front : List (Label Picture)} {state : VideoScreen Picture}
      (reached : run (step size) { source := { slot } } front = some state) :
      Faithful size state :=
    run_invariant (fun _ _ _ faithful taken => faithful.step taken) (.initial size slot) reached
  refine ⟨?_, (always success).newer, (always success).varied⟩
  rintro state now ⟨front, back, _, reached⟩ next taken
  obtain ⟨faithful, shows⟩ := (always reached).tick taken
  obtain ⟨frame, last, picture⟩ := shows rfl
  exact ⟨frame, last, picture, faithful.sized _ last⟩

/-- Select slot 0 before and see its picture after it has come in. -/
def watchedRun : List (Label Nat) :=
  .update 0 :: .tick 50 true :: VideoReceiver.shownRun.map .receiver ++ [.tick 300 true]

theorem video_source_faithful_watchedRun :
    ∃ final, run (step fun _ => (640, 480)) {} watchedRun = some final ∧
      (final.frames.map fun e => (e.1, e.2.picture.map VideoSnapshot.picture)) =
        [(1, none), (1, some 7)] ∧
      final.frames.Pairwise Newer ∧ final.frames.IsChain Varied := by
  obtain ⟨final, success⟩ := Option.isSome_iff_exists.mp
    (show (run (step fun _ => (640, 480)) ({} : VideoScreen Nat) watchedRun).isSome = true by
      decide +kernel)
  have given : (run (step fun _ => (640, 480)) ({} : VideoScreen Nat) watchedRun).map
      (fun s => s.frames.map fun e => (e.1, e.2.picture.map VideoSnapshot.picture)) =
        some [(1, none), (1, some 7)] := by
    decide +kernel
  rw [success, Option.map_some] at given
  exact ⟨final, success, Option.some.inj given,
    (video_source_faithful (fun _ => (640, 480)) (-1) success).2⟩

end VideoScreen

end VbanStream
