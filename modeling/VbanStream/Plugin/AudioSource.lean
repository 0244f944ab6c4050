import VbanStream.Buffer.Bounds
import VbanStream.Buffer.Schedule
import VbanStream.Receiver.Reconfigure

/-! The OBS audio sources: `subscribe`, `update` and `unsubscribe` beside `audio_loop`, which
gives each block to the consumers that it has copied. -/

namespace VbanStream

open Library StreamBuffer

/-- `speaker_layout` of OBS. -/
inductive SpeakerLayout where
  | unknown | mono | stereo | twoPointOne | fourPointZero | fourPointOne | fivePointOne
  | sevenPointOne
deriving DecidableEq, Repr

/-- The channels that OBS takes from audio in a layout. -/
def SpeakerLayout.channels : SpeakerLayout → Nat
  | .unknown => 0
  | .mono => 1
  | .stereo => 2
  | .twoPointOne => 3
  | .fourPointZero => 4
  | .fourPointOne => 5
  | .fivePointOne => 6
  | .sevenPointOne => 8

def layout (channels : UInt8) : SpeakerLayout :=
  if channels = 1 then .mono
  else if channels = 2 then .stereo
  else if channels = 3 then .twoPointOne
  else if channels = 4 then .fourPointZero
  else if channels = 5 then .fourPointOne
  else if channels = 6 then .fivePointOne
  else if channels = 7 ∨ channels = 8 then .sevenPointOne
  else .unknown

/-- `obs_source_audio`, in interleaved floats. -/
structure SourceAudio where
  samples : List ℚ
  frames : Nat
  speakers : SpeakerLayout
  rate : UInt32
  timestamp : UInt64
deriving DecidableEq

namespace SourceAudio

/-- The output of a source for a block, at a timestamp. -/
def ofBlock (block : AudioBlock) (timestamp : UInt64) : SourceAudio where
  samples := block.samples
  frames := block.frames
  speakers := layout block.format.channels
  rate := block.format.rate
  timestamp := timestamp

/-- The block as it left the buffer. -/
def plain (block : AudioBlock) : SourceAudio := ofBlock block block.timestamp

/-- Complete frames for the layout that OBS is told. -/
def Complete (audio : SourceAudio) : Prop :=
  audio.samples.length = audio.frames * audio.speakers.channels

end SourceAudio

def SourceAudio.end (audio : SourceAudio) : Nat :=
  audio.timestamp.toNat + duration audio.frames audio.rate

/-- How far `audio_loop` is with the consumers that it has copied. -/
inductive Handover where
  | idle
  | asking (remaining : List Nat)
  | giving (source : Nat) (remaining : List Nat)
deriving DecidableEq

def Handover.waiting : Handover → List Nat
  | .idle => []
  | .asking remaining => remaining
  | .giving source remaining => source :: remaining

namespace Audio

/-- The block that `audio_loop` has pulled and not finished with. -/
def pulled : Audio → Option (Fin slotCount × AudioBlock)
  | .idle | .running _ _ _ => none
  | .holding _ _ i block _ _ | .playing _ _ i block _ _ => some (i, block)

/-- The block that `audio_loop` gives to the consumers. -/
def played : Audio → Option (Fin slotCount × AudioBlock)
  | .idle | .running _ _ _ | .holding _ _ _ _ _ _ => none
  | .playing _ _ i block _ _ => some (i, block)

end Audio

/-- The sources, by their numbers, and the receiver they subscribe to. On record are what OBS was
given from each source and the blocks that came to the consumers. -/
structure AudioSources where
  receiver : Receiver := {}
  created : Nat := 0
  consumers : List Nat := []
  slot : Nat → Int := fun _ => -1
  lastEnd : Nat → UInt64 := fun _ => 0
  handover : Handover := .idle
  outputs : Nat → List SourceAudio := fun _ => []
  played : List (Fin slotCount × AudioBlock) := []

namespace AudioSources

/-- `selected` of the slot in the settings. -/
def selected (setting : Int) : Int :=
  if 0 ≤ setting ∧ setting < slotCount then setting else -1

inductive Label where
  | receiver (label : Receiver.Label)
  | create (setting : Int)
  | update (source : Nat) (setting : Int)
  | unselect (source : Nat)
  | unsubscribe (source : Nat)
  | copy
  | ask
  | give (source : Nat) (alive : Bool)
  | finish

/-- `update`, and `unsubscribe` in its two parts. -/
def membershipStep (s : AudioSources) : Label → Option AudioSources
  | .create setting =>
    some { s with
      created := s.created + 1
      consumers := s.consumers ++ [s.created]
      slot := Function.update s.slot s.created (selected setting) }
  | .update source setting =>
    if source ∈ s.consumers then
      some { s with slot := Function.update s.slot source (selected setting) }
    else none
  | .unselect source => some { s with slot := Function.update s.slot source (-1) }
  | .unsubscribe source => some { s with consumers := s.consumers.erase source }
  | _ => none

/-- The output that `create` subscribes with. -/
def output (s : AudioSources) (source : Nat) (block : AudioBlock) : AudioSources :=
  let audio := SourceAudio.ofBlock block (max block.timestamp (s.lastEnd source))
  { s with
    lastEnd := Function.update s.lastEnd source
      (audio.timestamp + framesToNs (UInt64.ofNat block.frames) block.format.rate)
    outputs := Function.update s.outputs source (s.outputs source ++ [audio]) }

/-- `audio_loop` with one block. -/
def handoverStep (s : AudioSources) (i : Fin slotCount) (block : AudioBlock) :
    Label → Handover → Option AudioSources
  | .copy, .idle =>
    some { s with handover := .asking s.consumers, played := s.played ++ [(i, block)] }
  | .ask, .asking (source :: remaining) =>
    some { s with
      handover := if s.slot source = i then .giving source remaining else .asking remaining }
  | .give source alive, .giving asked remaining =>
    if source = asked then
      -- Without a strong reference to the OBS source nothing is output.
      some { (if alive then s.output source block else s) with handover := .asking remaining }
    else none
  | _, _ => none

def step (parse : Parse) (s : AudioSources) (label : Label) : Option AudioSources :=
  match label with
  | .receiver .output => none
  | .receiver label => (s.receiver.step parse label).map fun receiver => { s with receiver }
  | .create _ | .update _ _ | .unselect _ | .unsubscribe _ => s.membershipStep label
  | .copy | .ask | .give _ _ =>
    s.receiver.audio.played.bind fun block => s.handoverStep block.1 block.2 label s.handover
  | .finish =>
    match s.handover with
    | .asking [] =>
      (s.receiver.step parse .output).map fun receiver => { s with receiver, handover := .idle }
    | _ => none

/-- Clocks in the lower half of the 64-bit range. -/
def Label.Timely : Label → Prop
  | .receiver (.wake now) => now.toNat < 2 ^ 63
  | _ => True

/-- Labels that leave a source alone. -/
def Label.Spares (source : Nat) : Label → Prop
  | .update other _ | .unselect other | .unsubscribe other => other ≠ source
  | .give other alive => other = source → alive = true
  | _ => True

end AudioSources

/-- The blocks of an open session can be scheduled and have a layout. -/
structure Scheduled (b : StreamBuffer) : Prop where
  schedule : ∃ count, ScheduleInvariant b count
  channels : b.initialized = true → 1 ≤ b.format.channels.toNat ∧ b.format.channels.toNat ≤ 8

/-- A block that a scheduled buffer emits. -/
structure AudioBlock.Whole (block : AudioBlock) : Prop where
  listed : block.format.rate ∈ sampleRates
  channels : 1 ≤ block.format.channels.toNat ∧ block.format.channels.toNat ≤ 8
  samples : block.samples.length = block.frames * block.format.outputChannels
  short : nanoseconds block.frames block.format.rate.toNat ≤ 10000000
  within : block.end ≤ horizon

theorem Scheduled.push {b : StreamBuffer} (sound : Scheduled b) {packet : Packet}
    (decoded : packet.WellFormed) (listed : packet.format.rate ∈ sampleRates) (now : UInt64) :
    Scheduled (b.push packet now) := by
  obtain ⟨count, schedule⟩ := sound.schedule
  refine ⟨⟨count, scheduleInvariant_push schedule listed now⟩, fun _ => ?_⟩
  obtain ⟨_, _, _, _, _, ⟨format, _⟩ | ⟨running, format, _⟩⟩ := b.push_schedule packet now
  · rw [format]
    exact decoded.channels
  · rw [format]
    exact sound.channels running

theorem Scheduled.pull {b after : StreamBuffer} {now : UInt64} {block : Option AudioBlock}
    (sound : Scheduled b) (early : now.toNat < 2 ^ 63) (pulled : b.pull now = (after, block)) :
    Scheduled after ∧ b.lastEnd.toNat ≤ after.lastEnd.toNat ∧ ∀ made, block = some made →
      made.Whole ∧ b.lastEnd.toNat ≤ made.timestamp.toNat ∧ made.end ≤ after.lastEnd.toNat := by
  obtain ⟨count, schedule⟩ := sound.schedule
  have closed (other : StreamBuffer) {count : Nat} (schedule : ScheduleInvariant other count) :
      Scheduled other.clear :=
    ⟨⟨0, scheduleInvariant_clear schedule 0⟩, fun running => (Bool.false_ne_true running).elim⟩
  cases pull_cases pulled with
  | idle | waiting => exact ⟨sound, le_rfl, nofun⟩
  | inactive => exact ⟨closed b schedule, le_rfl, nofun⟩
  | early active ready =>
    have started := scheduleInvariant_start schedule active.running early ready
    have same := start_fields ready
    refine ⟨⟨⟨_, started⟩, fun _ => ?_⟩, by rw [same.2.2.2.1], nofun⟩
    rw [same.1]
    exact sound.channels active.running
  | suspended active ready =>
    have started := scheduleInvariant_start schedule active.running early ready
    have same := start_fields ready
    refine ⟨closed _ (scheduleInvariant_count started _), ?_, nofun⟩
    rw [← same.2.2.2.1]
    exact le_rfl
  | emitted active ready due fresh =>
    have started := scheduleInvariant_start schedule active.running early ready
    obtain ⟨format, _, _, lastEnd, running, playing, _⟩ := start_fields ready
    obtain ⟨_, _, within, reaches⟩ := emit_advance started playing early due
    have next := scheduleInvariant_emit started playing early due
    have listed := started.listed (started.session playing)
    have channels := sound.channels active.running
    rw [← format] at channels
    have ahead := started.ahead playing
    rw [← due_toNat started playing, lastEnd] at ahead
    refine ⟨⟨⟨_, next⟩, fun _ => ?_⟩, by omega, ?_⟩
    · rw [(emit_schedule _).2.1]
      exact channels
    · intro made emitted
      cases emitted
      exact ⟨⟨listed, channels, length_block_samples _, nanoseconds_blockFrames listed,
        reaches.trans within⟩, ahead, reaches⟩

theorem layout_channels {format : Format}
    (channels : 1 ≤ format.channels.toNat ∧ format.channels.toNat ≤ 8) :
    (layout format.channels).channels = format.outputChannels := by
  obtain ⟨rate, count, kind⟩ := format
  obtain ⟨low, high⟩ := channels
  have named : count = UInt8.ofNat count.toNat := by simp
  simp only at low high
  rw [named]
  interval_cases count.toNat <;> rfl

namespace Receiver

/-- What the block in the hands of `audio_loop` satisfies. -/
def AudioWhole (s : Receiver) : Audio → Prop
  | .idle => True
  | .running now _ _ => now.toNat < 2 ^ 63
  | .holding now _ i block _ _ | .playing now _ i block _ _ =>
    now.toNat < 2 ^ 63 ∧ block.Whole ∧ block.end ≤ (s.slots i).buffer.lastEnd.toNat

/-- All slots are scheduled and the block in hand came from its slot. -/
structure Playable (s : Receiver) : Prop where
  scheduled : ∀ i, Scheduled (s.slots i).buffer
  audio : s.AudioWhole s.audio

/-- The output clocks of the slots do not go back. -/
def Onward (s next : Receiver) : Prop :=
  ∀ i, (s.slots i).buffer.lastEnd.toNat ≤ (next.slots i).buffer.lastEnd.toNat

variable {parse : Parse} {s next : Receiver} {label : Label}

theorem AudioWhole.onward {audio : Audio} (whole : s.AudioWhole audio) (onward : s.Onward next) :
    next.AudioWhole audio := by
  cases audio with
  | idle | running => exact whole
  | holding _ _ i | playing _ _ i => exact ⟨whole.1, whole.2.1, whole.2.2.trans (onward i)⟩

theorem scheduled_received {slot : Slot} (sound : Scheduled slot.buffer) (d : Datagram)
    (now : UInt64) : Scheduled (slot.receive d.decoded now).buffer ∧
      (slot.receive d.decoded now).buffer.lastEnd = slot.buffer.lastEnd := by
  cases decoded : d.decoded with
  | error error =>
    obtain ⟨count, schedule⟩ := sound.schedule
    exact ⟨⟨⟨count, scheduleInvariant_count schedule fun _ => _⟩, sound.channels⟩, rfl⟩
  | ok packet =>
    obtain ⟨wellFormed, listed⟩ := decode_wellFormed decoded
    exact ⟨sound.push wellFormed listed now, (slot.buffer.push_schedule packet now).1⟩

/-- One slot is tended and the others stay as they are. -/
theorem scheduled_update (sound : ∀ i, Scheduled (s.slots i).buffer) {i : Fin slotCount}
    {slot : Slot} (tended : Scheduled slot.buffer)
    (onward : (s.slots i).buffer.lastEnd.toNat ≤ slot.buffer.lastEnd.toNat)
    (slots : next.slots = Function.update s.slots i slot) :
    (∀ j, Scheduled (next.slots j).buffer) ∧ s.Onward next := by
  refine ⟨fun j => ?_, fun j => ?_⟩
  · rw [slots]
    by_cases here : j = i
    · subst here
      rwa [Function.update_self]
    · rw [Function.update_of_ne here]
      exact sound j
  · rw [slots]
    by_cases here : j = i
    · subst here
      rwa [Function.update_self]
    · rw [Function.update_of_ne here]

theorem scheduled_effect (sound : ∀ i, Scheduled (s.slots i).buffer)
    (effect : Effect parse s label next) (other : label ≠ .service) :
    (∀ i, Scheduled (next.slots i).buffer) ∧ s.Onward next := by
  cases effect with
  | prepared | bumped | skipped | published | listened | played =>
    exact ⟨sound, fun i => le_rfl⟩
  | reset =>
    rename_i i _ _
    obtain ⟨count, schedule⟩ := (sound i).schedule
    refine scheduled_update sound (i := i) ?_ ?_ rfl
    · exact ⟨⟨count, scheduleInvariant_reset schedule count⟩,
        fun running => (Bool.false_ne_true running).elim⟩
    · exact le_rfl
  | visited =>
    rename_i i _ _ _ _ _
    obtain ⟨tended, same⟩ := scheduled_received (sound i) _ _
    exact scheduled_update sound tended (by rw [same]) rfl
  | serviced => exact absurd rfl other

theorem configureStep_audio (taken : s.configureStep parse label s.edit = some next) :
    next.audio = s.audio := by
  rw [configureStep.eq_def] at taken
  split at taken
  · split at taken <;> cases taken
    rfl
  · cases taken
    rfl
  · cases taken
    split <;> rfl
  · cases taken
    rfl
  · cases taken

theorem networkStep_audio (taken : s.networkStep label s.network = some next) :
    next.audio = s.audio := by
  rw [networkStep.eq_def] at taken
  split at taken
  · split at taken <;> cases taken
    rfl
  · cases taken
    rfl
  · obtain ⟨socket, _, rfl⟩ := Option.map_eq_some_iff.mp taken
    rfl
  · split at taken
    · cases taken
    · split at taken
      · cases taken
        rfl
      · split at taken <;> cases taken <;> rfl
  · split at taken
    · split at taken <;> cases taken <;> rfl
    · cases taken
      rfl
  · cases taken
    rfl
  · cases taken

/-- A step other than an output: the slots stay scheduled, and a block that comes into the hands
of `audio_loop` starts at the earliest where its slot stood. -/
structure Advances (s next : Receiver) : Prop where
  playable : next.Playable
  onward : s.Onward next
  played : ∀ entry, s.audio.played = some entry → next.audio = s.audio
  fresh : ∀ i block, next.audio.pulled = some (i, block) → s.audio.pulled = some (i, block) ∨
    (s.slots i).buffer.lastEnd.toNat ≤ block.timestamp.toNat

theorem Playable.same_audio (playable : s.Playable) (audio : next.audio = s.audio)
    (tended : (∀ i, Scheduled (next.slots i).buffer) ∧ s.Onward next) : s.Advances next := by
  refine ⟨⟨tended.1, ?_⟩, tended.2, fun _ _ => audio, fun _ _ inHand => .inl ?_⟩
  · rw [audio]
    exact playable.audio.onward tended.2
  · rwa [audio] at inHand

theorem Playable.service (playable : s.Playable) (taken : s.step parse .service = some next) :
    s.Advances next := by
  have whole := playable.audio
  generalize place : s.audio = audio at whole
  change s.audioStep .service s.audio = some next at taken
  rw [place] at taken
  cases audio with
  | idle => cases taken
  | holding | playing => cases taken
  | running now generation remaining =>
    cases remaining with
    | nil =>
      cases taken
      exact ⟨⟨playable.scheduled, trivial⟩, fun i => le_rfl, by simp [place, Audio.played],
        by simp [Audio.pulled]⟩
    | cons i remaining =>
      cases taken
      obtain ⟨tended, onward, made⟩ := (playable.scheduled i).pull whole
        (show (s.slots i).buffer.pull now =
          (((s.slots i).buffer.pull now).1, ((s.slots i).buffer.pull now).2) from rfl)
      have slots : (s.touch i (.serviced now)).slots =
        Function.update s.slots i ((s.slots i).service now).1 := rfl
      have update := scheduled_update playable.scheduled tended onward slots
      have ended : ((s.touch i (.serviced now)).slots i).buffer.lastEnd =
          ((s.slots i).buffer.pull now).1.lastEnd := by
        simp [touch, Entry.apply, Slot.service]
      cases emitted : ((s.slots i).service now).2 with
      | none =>
        refine ⟨⟨update.1, ?_⟩, update.2, by simp [place, Audio.played], ?_⟩
        · exact whole
        · exact nofun
      | some block =>
        obtain ⟨complete, later, reaches⟩ := made block emitted
        refine ⟨⟨update.1, ?_⟩, update.2, by simp [place, Audio.played], ?_⟩
        · refine ⟨whole, complete, ?_⟩
          rw [← ended] at reaches
          exact reaches
        · simp only [Audio.pulled, Option.some.injEq, Prod.mk.injEq]
          rintro j other ⟨rfl, rfl⟩
          exact .inr later

theorem Playable.check (playable : s.Playable) (taken : s.step parse .check = some next) :
    s.Advances next := by
  have whole := playable.audio
  generalize place : s.audio = audio at whole
  change s.audioStep .check s.audio = some next at taken
  rw [place] at taken
  cases audio with
  | idle | running | playing => cases taken
  | holding now generation i block sources remaining =>
    rw [audioStep.eq_def] at taken
    dsimp only at taken
    split at taken <;> cases taken
    · exact ⟨⟨playable.scheduled, whole.1⟩, fun i => le_rfl, by simp [place, Audio.played],
        by simp [Audio.pulled]⟩
    · refine ⟨⟨playable.scheduled, whole⟩, fun i => le_rfl, by simp [place, Audio.played], ?_⟩
      simp only [place, Audio.pulled]
      exact fun _ _ same => .inl same

theorem Playable.advances (playable : s.Playable)
    (timely : (AudioSources.Label.receiver label).Timely) (silent : label ≠ .output)
    (taken : s.step parse label = some next) : s.Advances next := by
  cases label with
  | prepare | bump | reset | publish =>
    exact playable.same_audio (configureStep_audio taken)
      (scheduled_effect playable.scheduled (step_effect taken) nofun)
  | snapshot | arrive | retry | reroute | visit =>
    exact playable.same_audio (networkStep_audio taken)
      (scheduled_effect playable.scheduled (step_effect taken) nofun)
  | wake now =>
    generalize place : s.audio = audio
    change s.audioStep (.wake now) s.audio = some next at taken
    rw [place] at taken
    cases audio with
    | idle =>
      cases taken
      exact ⟨⟨playable.scheduled, timely⟩, fun i => le_rfl, by simp [place, Audio.played],
        by simp [Audio.pulled]⟩
    | running | holding | playing => cases taken
  | service => exact playable.service taken
  | check => exact playable.check taken
  | output => exact absurd rfl silent

theorem Playable.output (playable : s.Playable) (taken : s.step parse .output = some next) :
    next.Playable ∧ next.slots = s.slots ∧ next.audio.pulled = none := by
  have whole := playable.audio
  generalize place : s.audio = audio at whole
  change s.audioStep .output s.audio = some next at taken
  rw [place] at taken
  cases audio with
  | idle | holding => cases taken
  | running _ _ remaining => cases remaining <;> cases taken
  | playing =>
    cases taken
    exact ⟨⟨playable.scheduled, whole.1⟩, rfl, rfl⟩

theorem Playable.whole (playable : s.Playable) {i : Fin slotCount} {block : AudioBlock}
    (inHand : s.audio.played = some (i, block)) :
    block.Whole ∧ block.end ≤ (s.slots i).buffer.lastEnd.toNat := by
  have audio := playable.audio
  generalize s.audio = place at audio inHand
  cases place with
  | idle | running | holding => cases inHand
  | playing =>
    cases inHand
    exact audio.2

end Receiver

theorem AudioBlock.Whole.duration {block : AudioBlock} (whole : block.Whole) :
    duration block.frames block.format.rate = nanoseconds block.frames block.format.rate.toNat :=
  duration_eq whole.listed (whole.short.trans (by norm_num [horizon]))

namespace AudioSources

/-- What a source outputs of a block, at the time of the block or later. -/
def Given (audio : SourceAudio) (entry : Fin slotCount × AudioBlock) : Prop :=
  audio = .ofBlock entry.2 audio.timestamp ∧ entry.2.timestamp ≤ audio.timestamp

/-- The outputs of a source, if they are not too many for its clock. -/
def InOrder (outputs : List SourceAudio) (lastEnd : UInt64) : Prop :=
  outputs.length ≤ 2 ^ 39 →
    outputs.Pairwise (fun audio later => audio.end ≤ later.timestamp.toNat) ∧
    (∀ audio ∈ outputs, audio.end ≤ lastEnd.toNat) ∧
    lastEnd.toNat ≤ horizon + outputs.length * 10000000

theorem InOrder.output {outputs : List SourceAudio} {lastEnd : UInt64} {block : AudioBlock}
    (ordered : InOrder outputs lastEnd) (whole : block.Whole) :
    InOrder (outputs ++ [.ofBlock block (max block.timestamp lastEnd)])
      (max block.timestamp lastEnd +
        framesToNs (UInt64.ofNat block.frames) block.format.rate) := by
  intro few
  rw [List.length_append, List.length_singleton] at few ⊢
  obtain ⟨apart, ended, bound⟩ := ordered (by omega)
  have long := whole.duration
  have short := whole.short
  have within := whole.within
  have start := toNat_max block.timestamp lastEnd
  rw [AudioBlock.end] at within
  rw [duration] at long
  have total : (max block.timestamp lastEnd +
      framesToNs (UInt64.ofNat block.frames) block.format.rate).toNat =
        (max block.timestamp lastEnd).toNat + duration block.frames block.format.rate := by
    rw [UInt64.toNat_add, duration, Nat.mod_eq_of_lt]
    simp only [horizon] at within bound
    omega
  refine ⟨List.pairwise_append.mpr ⟨apart, List.pairwise_singleton _ _, ?_⟩, ?_, ?_⟩
  · intro audio member later new
    rw [List.mem_singleton.mp new]
    have before := ended audio member
    change audio.end ≤ (max block.timestamp lastEnd).toNat
    omega
  · intro audio member
    rw [total]
    rcases List.mem_append.mp member with old | new
    · have before := ended audio old
      omega
    · rw [List.mem_singleton.mp new]
      exact le_rfl
  · rw [total, duration, long]
    omega

/-- The outputs of one source match blocks that came to the consumers, each at most once. -/
def Once (outputs : List SourceAudio) (played : List (Fin slotCount × AudioBlock)) : Prop :=
  List.SublistForall₂ Given outputs played

theorem Once.skip {outputs : List SourceAudio} {played : List (Fin slotCount × AudioBlock)}
    (once : Once outputs played) (entry : Fin slotCount × AudioBlock) :
    Once outputs (played ++ [entry]) := by
  obtain ⟨chosen, given, inside⟩ := List.sublistForall₂_iff.mp once
  exact List.sublistForall₂_iff.mpr
    ⟨chosen, given, inside.trans (List.sublist_append_left played [entry])⟩

theorem Once.give {outputs : List SourceAudio} {played : List (Fin slotCount × AudioBlock)}
    (once : Once outputs played) {audio : SourceAudio} {entry : Fin slotCount × AudioBlock}
    (given : Given audio entry) : Once (outputs ++ [audio]) (played ++ [entry]) := by
  obtain ⟨chosen, all, inside⟩ := List.sublistForall₂_iff.mp once
  exact List.sublistForall₂_iff.mpr ⟨chosen ++ [entry], List.rel_append all (.cons given .nil),
    inside.append (List.Sublist.refl [entry])⟩

structure Sound (s : AudioSources) : Prop where
  playable : s.receiver.Playable
  playing : s.handover ≠ .idle → ∃ earlier entry,
    s.receiver.audio.played = some entry ∧ s.played = earlier ++ [entry] ∧
      ∀ source ∈ s.handover.waiting, Once (s.outputs source) earlier
  members : s.consumers.Nodup ∧ ∀ source ∈ s.consumers, source < s.created
  waiting : s.handover.waiting.Nodup ∧ ∀ source ∈ s.handover.waiting, source < s.created
  unborn : ∀ source, s.created ≤ source → s.outputs source = [] ∧ s.lastEnd source = 0
  once : ∀ source, Once (s.outputs source) s.played
  ordered : ∀ source, InOrder (s.outputs source) (s.lastEnd source)
  complete : ∀ source, ∀ audio ∈ s.outputs source, audio.Complete

variable {parse : Parse} {s next : AudioSources}

theorem Sound.initial : Sound {} where
  playable := {
    scheduled := fun _ => ⟨⟨0, by constructor <;> simp [horizon]⟩, nofun⟩
    audio := trivial }
  playing := fun busy => absurd rfl busy
  members := ⟨.nil, nofun⟩
  waiting := ⟨.nil, nofun⟩
  unborn := fun _ _ => ⟨rfl, rfl⟩
  once := fun _ => .nil
  ordered := fun _ _ => ⟨.nil, nofun, Nat.zero_le _⟩
  complete := nofun

theorem Sound.receive (sound : Sound s) {label : Receiver.Label}
    (timely : (Label.receiver label).Timely) (silent : label ≠ .output)
    {receiver : Receiver} (taken : s.receiver.step parse label = some receiver) :
    Sound { s with receiver } := by
  have advances := sound.playable.advances timely silent taken
  refine { sound with playable := advances.playable, playing := fun busy => ?_ }
  obtain ⟨earlier, entry, playing, rest⟩ := sound.playing busy
  refine ⟨earlier, entry, ?_, rest⟩
  rw [advances.played entry playing]
  exact playing

theorem Sound.membership (sound : Sound s) {label : Label}
    (taken : s.membershipStep label = some next) : Sound next := by
  obtain ⟨distinct, below⟩ := sound.members
  cases label with
  | create setting =>
    cases taken
    refine { sound with members := ⟨?_, ?_⟩, waiting := ⟨sound.waiting.1, ?_⟩, unborn := ?_ }
    · refine distinct.append (List.nodup_singleton _) ?_
      rw [List.disjoint_singleton]
      exact fun member => absurd (below _ member) (Nat.lt_irrefl _)
    · intro source member
      rcases List.mem_append.mp member with old | new
      · exact Nat.lt_succ_of_lt (below source old)
      · rw [List.mem_singleton.mp new]
        exact Nat.lt_succ_self _
    · exact fun source member => Nat.lt_succ_of_lt (sound.waiting.2 source member)
    · exact fun source later => sound.unborn source ((Nat.le_succ _).trans later)
  | update source setting =>
    rw [membershipStep] at taken
    split at taken <;> cases taken
    exact { sound with }
  | unselect source =>
    cases taken
    exact { sound with }
  | unsubscribe source =>
    cases taken
    exact { sound with
      members := ⟨distinct.erase source,
        fun other member => below other (List.mem_of_mem_erase member)⟩ }
  | receiver _ | copy | ask | give _ _ | finish => cases taken

/-- One source has its turn and has left the queue. -/
theorem Sound.output (sound : Sound s) {source : Nat} {remaining : List Nat}
    (asked : s.handover = .giving source remaining) {i : Fin slotCount} {block : AudioBlock}
    (inHand : s.receiver.audio.played = some (i, block)) :
    Sound { s.output source block with handover := .asking remaining } := by
  obtain ⟨earlier, entry, playing, recorded, before⟩ := sound.playing (by rw [asked]; exact nofun)
  cases inHand.symm.trans playing
  obtain ⟨distinct, below⟩ := sound.waiting
  rw [asked] at before distinct below
  obtain ⟨absent, distinct'⟩ := List.nodup_cons.mp distinct
  have whole := (sound.playable.whole inHand).1
  have given : Given (.ofBlock block (max block.timestamp (s.lastEnd source))) (i, block) := by
    refine ⟨rfl, ?_⟩
    rw [UInt64.le_iff_toNat_le]
    change _ ≤ (max block.timestamp (s.lastEnd source)).toNat
    rw [toNat_max]
    exact le_max_left _ _
  -- The other sources keep what they have.
  have elsewhere (property : Nat → List SourceAudio → UInt64 → Prop)
      (others : ∀ other, property other (s.outputs other) (s.lastEnd other))
      (own : property source
        (s.outputs source ++ [.ofBlock block (max block.timestamp (s.lastEnd source))])
        (max block.timestamp (s.lastEnd source) +
          framesToNs (UInt64.ofNat block.frames) block.format.rate)) (other : Nat) :
      property other ((s.output source block).outputs other)
        ((s.output source block).lastEnd other) := by
    by_cases here : other = source
    · subst here
      simp only [AudioSources.output, Function.update_self]
      exact own
    · simp only [AudioSources.output, Function.update_of_ne here]
      exact others other
  refine { sound with
    playing := fun _ => ⟨earlier, (i, block), inHand, recorded, ?_⟩
    waiting := ⟨distinct', fun other member => below other (List.mem_cons_of_mem _ member)⟩
    unborn := ?_, once := ?_, ordered := ?_, complete := ?_ }
  · intro other member
    have apart : other ≠ source := fun same => absent (same ▸ member)
    simp only [AudioSources.output, Function.update_of_ne apart]
    exact before other (List.mem_cons_of_mem _ member)
  · intro other later
    have born := below source List.mem_cons_self
    have apart : other ≠ source := by
      rintro rfl
      exact absurd born (Nat.not_lt.mpr later)
    simp only [AudioSources.output, Function.update_of_ne apart]
    exact sound.unborn other later
  · refine elsewhere (fun _ outputs _ => Once outputs s.played) sound.once ?_
    rw [recorded]
    exact (before source List.mem_cons_self).give given
  · exact elsewhere (fun _ outputs lastEnd => InOrder outputs lastEnd) sound.ordered
      ((sound.ordered source).output whole)
  · refine elsewhere (fun _ outputs _ => ∀ audio ∈ outputs, audio.Complete) sound.complete ?_
    intro audio member
    rcases List.mem_append.mp member with old | new
    · exact sound.complete source audio old
    · rw [List.mem_singleton.mp new, SourceAudio.Complete]
      simp only [SourceAudio.ofBlock]
      rw [layout_channels whole.channels, whole.samples]

theorem Sound.hand (sound : Sound s) {label : Label} {i : Fin slotCount} {block : AudioBlock}
    (inHand : s.receiver.audio.played = some (i, block))
    (taken : s.handoverStep i block label s.handover = some next) : Sound next := by
  generalize place : s.handover = handover at taken
  rw [handoverStep.eq_def] at taken
  split at taken
  · cases taken
    exact { sound with
      playing := fun _ => ⟨s.played, (i, block), inHand, rfl, fun source _ => sound.once source⟩
      waiting := sound.members
      once := fun source => (sound.once source).skip _ }
  · rename_i source remaining
    cases taken
    obtain ⟨earlier, entry, playing, recorded, before⟩ := sound.playing (by rw [place]; exact nofun)
    obtain ⟨distinct, below⟩ := sound.waiting
    rw [place] at before distinct below
    split
    · exact { sound with
        playing := fun _ => ⟨earlier, entry, playing, recorded, before⟩
        waiting := ⟨distinct, below⟩ }
    · exact { sound with
        playing := fun _ => ⟨earlier, entry, playing, recorded,
          fun other member => before other (List.mem_cons_of_mem _ member)⟩
        waiting := ⟨(List.nodup_cons.mp distinct).2,
          fun other member => below other (List.mem_cons_of_mem _ member)⟩ }
  · rename_i source alive asked remaining
    split at taken
    · rename_i same
      cases taken
      subst same
      cases alive with
      | true => exact sound.output place inHand
      | false =>
        obtain ⟨earlier, entry, playing, recorded, before⟩ :=
          sound.playing (by rw [place]; exact nofun)
        obtain ⟨distinct, below⟩ := sound.waiting
        rw [place] at before distinct below
        exact { sound with
          playing := fun _ => ⟨earlier, entry, playing, recorded,
            fun other member => before other (List.mem_cons_of_mem _ member)⟩
          waiting := ⟨(List.nodup_cons.mp distinct).2,
            fun other member => below other (List.mem_cons_of_mem _ member)⟩ }
    · cases taken
  · cases taken

theorem Sound.finish (sound : Sound s) {receiver : Receiver}
    (taken : s.receiver.step parse .output = some receiver) :
    Sound { s with receiver, handover := .idle } := by
  obtain ⟨playable, _, _⟩ := sound.playable.output taken
  exact { sound with
    playable, playing := fun busy => absurd rfl busy, waiting := ⟨.nil, nofun⟩ }

theorem receiver_cases {label : Receiver.Label}
    (taken : s.step parse (.receiver label) = some next) :
    label ≠ .output ∧ ∃ receiver, s.receiver.step parse label = some receiver ∧
      next = { s with receiver } := by
  cases label with
  | output => cases taken
  | prepare | bump | reset | publish | snapshot | arrive | retry | reroute | visit | wake | service
    | check =>
    obtain ⟨receiver, received, rfl⟩ := Option.map_eq_some_iff.mp taken
    exact ⟨nofun, receiver, received, rfl⟩

theorem finish_cases (taken : s.step parse .finish = some next) :
    s.handover = .asking [] ∧ ∃ receiver, s.receiver.step parse .output = some receiver ∧
      next = { s with receiver, handover := .idle } := by
  simp only [step] at taken
  split at taken
  · rename_i done
    obtain ⟨receiver, received, rfl⟩ := Option.map_eq_some_iff.mp taken
    exact ⟨done, receiver, received, rfl⟩
  · cases taken

theorem Sound.step (sound : Sound s) {label : Label} (timely : label.Timely)
    (taken : s.step parse label = some next) : Sound next := by
  cases label with
  | receiver label =>
    obtain ⟨silent, receiver, received, rfl⟩ := receiver_cases taken
    exact sound.receive timely silent received
  | create | update | unselect | unsubscribe =>
    simp only [AudioSources.step] at taken
    exact sound.membership taken
  | copy | ask | give =>
    obtain ⟨⟨i, block⟩, inHand, handed⟩ := Option.bind_eq_some_iff.mp taken
    exact sound.hand inHand handed
  | finish =>
    obtain ⟨_, receiver, received, rfl⟩ := finish_cases taken
    exact sound.finish received

theorem Sound.run (sound : Sound s) {labels : List Label} (timely : ∀ label ∈ labels, label.Timely)
    {final : AudioSources} (success : Library.run (AudioSources.step parse) s labels = some final) :
    Sound final :=
  run_invariant_of (fun _ _ _ sound early taken => Sound.step sound early taken) timely sound
    success

/-- Whatever the sources select, whenever they come and go and however the three threads
interleave: what OBS is given from one source never goes back or overlaps, has all the samples of
the layout that it is announced with, and is made of blocks that came to the consumers, in their
order, each at most once and never before its time. -/
theorem audio_sources_ordered {labels : List Label} (timely : ∀ label ∈ labels, label.Timely)
    {final : AudioSources} (success : Library.run (step parse) {} labels = some final)
    (source : Nat) :
    ((final.outputs source).length ≤ 2 ^ 39 → (final.outputs source).Pairwise
      fun audio later => audio.end ≤ later.timestamp.toNat) ∧
    (∀ audio ∈ final.outputs source, audio.Complete) ∧
    Once (final.outputs source) final.played := by
  have sound := Sound.initial.run timely success
  exact ⟨fun few => (sound.ordered source few).1, sound.complete source, sound.once source⟩

/-- What the consumers of slot `i` get of a block. -/
def heardOn (i : Fin slotCount) (entry : Fin slotCount × AudioBlock) : Option SourceAudio :=
  if entry.1 = i then some (.plain entry.2) else none

/-- What a source has still to get of the block in hand. -/
def owed (s : AudioSources) (source : Nat) (i : Fin slotCount) : List SourceAudio :=
  if source ∈ s.handover.waiting then s.receiver.audio.played.toList.filterMap (heardOn i) else []

/-- A step that gives the source nothing and leaves it its place. -/
theorem owed_still {source : Nat} {i : Fin slotCount} {heard : List SourceAudio}
    (given : s.outputs source ++ s.owed source i = heard)
    (outputs : next.outputs source = s.outputs source)
    (waiting : source ∈ next.handover.waiting ↔ source ∈ s.handover.waiting)
    (audio : source ∈ s.handover.waiting → next.receiver.audio = s.receiver.audio) :
    next.outputs source ++ next.owed source i = heard := by
  rw [← given, outputs, owed, owed]
  by_cases waits : source ∈ s.handover.waiting
  · rw [if_pos (waiting.mpr waits), if_pos waits, audio waits]
  · rw [if_neg (mt waiting.mp waits), if_neg waits]

/-- A source that has been on slot `i` since it was created, when `base` had been played. -/
structure Steady (source : Nat) (i : Fin slotCount) (base : List (Fin slotCount × AudioBlock))
    (s : AudioSources) : Prop where
  member : source ∈ s.consumers
  chosen : s.slot source = i
  asked : ∀ remaining, s.handover = .giving source remaining →
    ∃ block, s.receiver.audio.played = some (i, block)
  reached : (s.lastEnd source).toNat ≤ (s.receiver.slots i).buffer.lastEnd.toNat
  before : ∀ block, s.receiver.audio.pulled = some (i, block) →
    s.handover = .idle ∨ source ∈ s.handover.waiting →
    (s.lastEnd source).toNat ≤ block.timestamp.toNat
  given : ∃ played, s.played = base ++ played ∧
    s.outputs source ++ s.owed source i = played.filterMap (heardOn i)

variable {source : Nat} {i : Fin slotCount} {base : List (Fin slotCount × AudioBlock)}

theorem pulled_of_played {audio : Audio} {entry : Fin slotCount × AudioBlock}
    (played : audio.played = some entry) : audio.pulled = some entry := by
  cases audio with
  | idle | running | holding => cases played
  | playing => exact played

theorem Steady.receive (steady : Steady source i base s) (sound : Sound s)
    {label : Receiver.Label} (timely : (Label.receiver label).Timely) (silent : label ≠ .output)
    {receiver : Receiver} (taken : s.receiver.step parse label = some receiver) :
    Steady source i base { s with receiver } := by
  have advances := sound.playable.advances timely silent taken
  have same : s.handover ≠ .idle → receiver.audio = s.receiver.audio := by
    intro busy
    obtain ⟨_, entry, playing, _⟩ := sound.playing busy
    exact advances.played entry playing
  refine { steady with asked := ?_, reached := ?_, before := ?_, given := ?_ }
  · intro remaining asked
    rw [same (by rw [asked]; exact nofun)]
    exact steady.asked remaining asked
  · exact steady.reached.trans (advances.onward i)
  · intro block pulled waits
    rcases advances.fresh i block pulled with old | new
    · exact steady.before block old waits
    · exact steady.reached.trans new
  · obtain ⟨played, extended, given⟩ := steady.given
    refine ⟨played, extended, owed_still given rfl .rfl fun waits => same fun idle => ?_⟩
    rw [idle] at waits
    cases waits

theorem Steady.membership (steady : Steady source i base s) (sound : Sound s) {label : Label}
    (spares : label.Spares source) (taken : s.membershipStep label = some next) :
    Steady source i base next := by
  have born := sound.members.2 source steady.member
  cases label with
  | create setting =>
    cases taken
    refine { steady with member := List.mem_append_left _ steady.member, chosen := ?_ }
    simp only
    rw [Function.update_of_ne (Nat.ne_of_lt born)]
    exact steady.chosen
  | update other setting =>
    rw [membershipStep] at taken
    split at taken <;> cases taken
    refine { steady with chosen := ?_ }
    simp only
    rw [Function.update_of_ne (Ne.symm spares)]
    exact steady.chosen
  | unselect other =>
    cases taken
    refine { steady with chosen := ?_ }
    simp only
    rw [Function.update_of_ne (Ne.symm spares)]
    exact steady.chosen
  | unsubscribe other =>
    cases taken
    exact { steady with member := (List.mem_erase_of_ne (Ne.symm spares)).mpr steady.member }
  | receiver _ | copy | ask | give _ _ | finish => cases taken

theorem Steady.copy (steady : Steady source i base s) (idle : s.handover = .idle)
    {entry : Fin slotCount × AudioBlock} (inHand : s.receiver.audio.played = some entry) :
    Steady source i base
      { s with handover := .asking s.consumers, played := s.played ++ [entry] } := by
  obtain ⟨played, extended, given⟩ := steady.given
  refine { steady with asked := nofun, before := ?_, given := ⟨played ++ [entry], ?_, ?_⟩ }
  · exact fun block pulled _ => steady.before block pulled (.inl idle)
  · rw [extended, List.append_assoc]
  · rw [owed, idle] at given
    simp only [owed, Handover.waiting, if_pos steady.member, inHand]
    rw [List.filterMap_append, ← given]
    simp [Handover.waiting]

theorem Steady.ask (steady : Steady source i base s) (sound : Sound s) {other : Nat}
    {remaining : List Nat} (place : s.handover = .asking (other :: remaining))
    {j : Fin slotCount} {block : AudioBlock} (inHand : s.receiver.audio.played = some (j, block)) :
    Steady source i base { s with
      handover := if s.slot other = j then .giving other remaining else .asking remaining } := by
  obtain ⟨distinct, _⟩ := sound.waiting
  rw [place] at distinct
  obtain ⟨absent, _⟩ := List.nodup_cons.mp distinct
  obtain ⟨played, extended, given⟩ := steady.given
  split
  · rename_i selects
    refine { steady with asked := ?_, before := ?_, given := ⟨played, extended, ?_⟩ }
    · rintro _ asked
      cases asked
      have same : i = j := Fin.ext (by exact_mod_cast steady.chosen.symm.trans selects)
      exact ⟨block, same ▸ inHand⟩
    · rintro block pulled (⟨⟨⟩⟩ | waits)
      exact steady.before block pulled (.inr (place ▸ waits))
    · exact owed_still given rfl (by rw [place]; rfl) fun _ => rfl
  · rename_i passes
    refine { steady with asked := nofun, before := ?_, given := ⟨played, extended, ?_⟩ }
    · rintro block pulled (⟨⟨⟩⟩ | waits)
      exact steady.before block pulled (.inr (place ▸ List.mem_cons_of_mem _ waits))
    · by_cases here : source = other
      · -- The source selects another slot than the block's.
        subst here
        have apart : j ≠ i := by
          rintro rfl
          exact passes steady.chosen
        rw [← given]
        simp [owed, place, Handover.waiting, absent, inHand, heardOn, apart]
      · exact owed_still given rfl (by simp [place, Handover.waiting, here]) fun _ => rfl

theorem Steady.skip (steady : Steady source i base s) {other : Nat} {remaining : List Nat}
    (apart : other ≠ source) (place : s.handover = .giving other remaining) :
    Steady source i base { s with handover := .asking remaining } := by
  obtain ⟨played, extended, given⟩ := steady.given
  refine { steady with asked := nofun, before := ?_, given := ⟨played, extended, ?_⟩ }
  · rintro block pulled (⟨⟨⟩⟩ | waits)
    exact steady.before block pulled (.inr (place ▸ List.mem_cons_of_mem _ waits))
  · exact owed_still given rfl (by simp [place, Handover.waiting, apart.symm]) fun _ => rfl

theorem Steady.output (steady : Steady source i base s) (sound : Sound s) {remaining : List Nat}
    (place : s.handover = .giving source remaining) {j : Fin slotCount} {block : AudioBlock}
    (inHand : s.receiver.audio.played = some (j, block)) :
    Steady source i base { s.output source block with handover := .asking remaining } := by
  obtain ⟨_, asked⟩ := steady.asked remaining place
  cases inHand.symm.trans asked
  obtain ⟨played, extended, given⟩ := steady.given
  obtain ⟨distinct, _⟩ := sound.waiting
  rw [place] at distinct
  obtain ⟨absent, _⟩ := List.nodup_cons.mp distinct
  have waits : source ∈ s.handover.waiting := by
    rw [place]
    exact List.mem_cons_self
  have early := steady.before block (pulled_of_played inHand) (.inr waits)
  have onTime : max block.timestamp (s.lastEnd source) = block.timestamp := by
    rw [← UInt64.toNat_inj, toNat_max]
    omega
  obtain ⟨whole, reaches⟩ := sound.playable.whole inHand
  have exactEnd : (block.timestamp +
      framesToNs (UInt64.ofNat block.frames) block.format.rate).toNat = block.end := by
    have within := whole.within
    have long := whole.duration
    rw [AudioBlock.end] at within ⊢
    rw [← long] at within ⊢
    rw [UInt64.toNat_add, ← duration, Nat.mod_eq_of_lt]
    simp only [horizon] at within
    omega
  refine { steady with
    asked := (by simp), reached := ?_, before := ?_, given := ⟨played, extended, ?_⟩ }
  · simp only [AudioSources.output, Function.update_self, SourceAudio.ofBlock, onTime]
    rw [exactEnd]
    exact reaches
  · rintro other pulled (⟨⟨⟩⟩ | again)
    exact absurd again absent
  · rw [owed, if_pos waits, inHand] at given
    rw [← given]
    simp [owed, Handover.waiting, absent, AudioSources.output, onTime, heardOn, SourceAudio.plain]

theorem Steady.hand (steady : Steady source i base s) (sound : Sound s) {label : Label}
    (spares : label.Spares source) {j : Fin slotCount} {block : AudioBlock}
    (inHand : s.receiver.audio.played = some (j, block))
    (taken : s.handoverStep j block label s.handover = some next) : Steady source i base next := by
  generalize place : s.handover = handover at taken
  rw [handoverStep.eq_def] at taken
  split at taken
  · cases taken
    exact steady.copy place inHand
  · cases taken
    exact steady.ask sound place inHand
  · rename_i other alive asked remaining
    split at taken
    · rename_i same
      cases taken
      subst same
      by_cases here : other = source
      · subst here
        rw [if_pos (spares rfl)]
        exact steady.output sound place inHand
      · have skipped := steady.skip here place
        cases alive with
        | false => exact skipped
        | true =>
          refine { skipped with reached := ?_, before := ?_, given := ?_ }
          · simp only [if_true, AudioSources.output, Function.update_of_ne (Ne.symm here)]
            exact skipped.reached
          · simp only [if_true, AudioSources.output, Function.update_of_ne (Ne.symm here)]
            exact skipped.before
          · simp only [if_true, AudioSources.output, Function.update_of_ne (Ne.symm here)]
            exact skipped.given
    · cases taken
  · cases taken

theorem Steady.finish (steady : Steady source i base s) (sound : Sound s) {receiver : Receiver}
    (done : s.handover = .asking []) (taken : s.receiver.step parse .output = some receiver) :
    Steady source i base { s with receiver, handover := .idle } := by
  obtain ⟨_, slots, none⟩ := sound.playable.output taken
  refine { steady with asked := nofun, reached := ?_, before := ?_, given := ?_ }
  · simp only [slots]
    exact steady.reached
  · intro block pulled
    exact absurd (none.symm.trans pulled) nofun
  · obtain ⟨played, extended, given⟩ := steady.given
    refine ⟨played, extended, ?_⟩
    rw [← given, owed, owed, done]
    rfl

theorem Steady.step (steady : Steady source i base s) (sound : Sound s) {label : Label}
    (timely : label.Timely) (spares : label.Spares source)
    (taken : s.step parse label = some next) : Steady source i base next := by
  cases label with
  | receiver label =>
    obtain ⟨silent, receiver, received, rfl⟩ := receiver_cases taken
    exact steady.receive sound timely silent received
  | create | update | unselect | unsubscribe =>
    simp only [AudioSources.step] at taken
    exact steady.membership sound spares taken
  | copy | ask | give =>
    obtain ⟨⟨j, block⟩, inHand, handed⟩ := Option.bind_eq_some_iff.mp taken
    exact steady.hand sound spares inHand handed
  | finish =>
    obtain ⟨done, receiver, received, rfl⟩ := finish_cases taken
    exact steady.finish sound done received

theorem Steady.created (sound : Sound s) {setting : Int} (selects : selected setting = i)
    (taken : s.step parse (.create setting) = some next) :
    Steady s.created i s.played next := by
  cases taken
  obtain ⟨outputs, lastEnd⟩ := sound.unborn s.created le_rfl
  have apart : s.created ∉ s.handover.waiting :=
    fun member => absurd (sound.waiting.2 _ member) (Nat.lt_irrefl _)
  constructor
  · exact List.mem_append_right _ List.mem_cons_self
  · simp only [Function.update_self]
    exact selects
  · rintro remaining asked
    have asked : s.handover = .giving s.created remaining := asked
    rw [asked] at apart
    exact absurd List.mem_cons_self apart
  · simp [lastEnd]
  · simp [lastEnd]
  · refine ⟨[], (List.append_nil _).symm, ?_⟩
    rw [owed, if_neg apart]
    simp [outputs]

/-- A source that stays on slot `i` from its creation on gives OBS every block of the slot that
`audio_loop` has taken to the consumers since, exactly as it left the buffer and in its order; only
the one in hand may still be owed. -/
theorem audio_source_delivers {front back : List Label}
    (timely : ∀ label ∈ front ++ back, label.Timely) {before : AudioSources}
    (reached : Library.run (step parse) {} front = some before) {setting : Int} {i : Fin slotCount}
    (selects : selected setting = i) {final : AudioSources}
    (success : Library.run (step parse) before (.create setting :: back) = some final)
    (spares : ∀ label ∈ back, label.Spares before.created) :
    ∃ played owed, final.played = before.played ++ played ∧
      final.outputs before.created ++ owed = played.filterMap (heardOn i) ∧
      owed.length ≤ 1 ∧ (final.handover = .idle → owed = []) := by
  obtain ⟨first, others⟩ := List.forall_mem_append.mp timely
  have sound := Sound.initial.run first reached
  obtain ⟨next, taken, later⟩ := run_cons.mp success
  have steady := Steady.created sound selects taken
  have timely' : (Label.create setting).Timely := trivial
  have sound' := sound.step timely' taken
  have preserved (s : AudioSources) (label : Label) (next : AudioSources)
      (held : Sound s ∧ Steady before.created i before.played s)
      (allowed : label.Timely ∧ label.Spares before.created)
      (taken : s.step parse label = some next) :
      Sound next ∧ Steady before.created i before.played next :=
    ⟨held.1.step allowed.1 taken, held.2.step held.1 allowed.1 allowed.2 taken⟩
  have kept := run_invariant_of preserved
    (fun label member => ⟨others label member, spares label member⟩) ⟨sound', steady⟩ later
  obtain ⟨played, extended, given⟩ := kept.2.given
  refine ⟨played, final.owed before.created i, extended, given, ?_, ?_⟩
  · rw [owed]
    split
    · refine (List.length_filterMap_le _ _).trans ?_
      cases final.receiver.audio.played <;> simp
    · exact Nat.zero_le _
  · intro idle
    rw [owed, idle]
    exact if_neg List.not_mem_nil

/-- A packet comes in, and the only source is on its slot. -/
def listenedRun : List Label :=
  (applied (listening "10.0.0.1") ++ VbanStream.received ++
    [Receiver.Label.wake 30001000, .service, .check]).map .receiver ++
    [.copy, .ask, .give 0 true, .finish]

theorem listenedRun_timely : ∀ label ∈ .create 0 :: listenedRun, label.Timely := by
  simp [listenedRun, applied, VbanStream.received, Label.Timely]

theorem audio_sources_ordered_listenedRun :
    ∃ final, Library.run (step twoSenders) {} (.create 0 :: listenedRun) = some final ∧
      (final.outputs 0).length = 1 ∧ ∀ audio ∈ final.outputs 0, audio.Complete := by
  obtain ⟨final, success, one⟩ : ∃ final : AudioSources,
      Library.run (step twoSenders) {} (.create 0 :: listenedRun) = some final ∧
        (final.outputs 0).length == 1 := by
    refine (Option.any_eq_true _ _).mp (?_ : (Library.run (step twoSenders) {}
      (.create 0 :: listenedRun)).any (fun final => (final.outputs 0).length == 1) = true)
    decide +kernel
  exact ⟨final, success, beq_iff_eq.mp one,
    (audio_sources_ordered (fun label member => listenedRun_timely label member) success 0).2.1⟩

theorem audio_source_delivers_listenedRun :
    ∃ final, Library.run (step twoSenders) {} (.create 0 :: listenedRun) = some final ∧
      (final.outputs 0).length = 1 ∧
      final.outputs 0 = final.played.filterMap (heardOn 0) := by
  obtain ⟨final, success, seen⟩ : ∃ final : AudioSources,
      Library.run (step twoSenders) {} (.create 0 :: listenedRun) = some final ∧
        ((final.outputs 0).length == 1 && final.handover == .idle) = true := by
    refine (Option.any_eq_true _ _).mp (?_ : (Library.run (step twoSenders) {}
      (.create 0 :: listenedRun)).any (fun final =>
        (final.outputs 0).length == 1 && final.handover == .idle) = true)
    decide +kernel
  obtain ⟨one, idle⟩ := Bool.and_eq_true_iff.mp seen
  have spares : ∀ label ∈ listenedRun, label.Spares 0 := by
    simp [listenedRun, applied, VbanStream.received, Label.Spares]
  have start : Library.run (step twoSenders) {} [] = some {} := rfl
  have timely : ∀ label ∈ [] ++ listenedRun, label.Timely := by
    rw [List.nil_append]
    exact (List.forall_mem_cons.mp listenedRun_timely).2
  obtain ⟨played, owed, extended, given, _, settled⟩ := audio_source_delivers timely start
    (show selected 0 = (0 : Fin slotCount) from rfl) success spares
  rw [settled (beq_iff_eq.mp idle), List.append_nil] at given
  have whole : final.played = played := extended
  exact ⟨final, success, beq_iff_eq.mp one, whole ▸ given⟩

end AudioSources

end VbanStream
