import VbanStream.Library.Run
import VbanStream.Settings.Config
import VbanStream.Video.FrameAssembler

/-! The video slots: `configure` and `enqueue` on the callers' side, the worker
that reassembles and publishes, and `snapshot`, interleaved between their locks.
The decoder is outside; any result it may give is allowed. -/

namespace VbanStream

open Library

def videoStaleNs : UInt64 := 3000000000

/-- A queued datagram with the slot's generation at the time of `enqueue`. -/
structure VideoDatagram where
  slot : Fin videoSlotCount
  bytes : List UInt8
  generation : Nat
  timestamp : UInt64
deriving DecidableEq

structure VideoSnapshot (Picture : Type*) where
  picture : Picture
  serial : Nat
  timestamp : UInt64

structure VideoStatus where
  enabled : Bool := false
  width : Int := 0
  height : Int := 0
  decoded : Nat := 0
  decodeErrors : Nat := 0
  packets : FrameCounters := {}
  format : String := ""
  error : String := ""

/-- A slot; `latest` is missing while its image is null. -/
structure VideoSlot (Picture : Type*) where
  config : VideoConfig := {}
  generation : Nat := 0
  latest : Option (VideoSnapshot Picture) := none
  status : VideoStatus := {}

/-- What the decoder makes of a completed image. -/
structure Decoding (Picture : Type*) where
  picture : Option Picture
  format : String
  error : String
  width : Int
  height : Int

/-- What an assembler was given since it was created. -/
inductive Feed where
  | pushed (p : VideoDatagram)
  | expired (now : UInt64)

namespace Feed

def apply (a : FrameAssembler) : Feed → FrameAssembler
  | .pushed p => (a.push (Memory.ofBytes p.bytes) p.bytes.length p.timestamp).1
  | .expired now => a.expire now

/-- The log's last datagram completes an image with these bytes. -/
def Completes (log : List Feed) (encoded : List UInt8) : Prop :=
  ∃ front p, log = front ++ [.pushed p] ∧
    ((front.foldl apply {}).push (Memory.ofBytes p.bytes) p.bytes.length p.timestamp).2 =
      some encoded

end Feed

/-- The worker between two waits for the queue. -/
inductive Worker (Picture : Type*) where
  | idle
  | holding (p : VideoDatagram)
  | publishing (p : VideoDatagram) (counters : FrameCounters) (log : List Feed)
      (completed : Option (List UInt8 × Decoding Picture))
  | failing (p : VideoDatagram) (message : String)

/-- What a slot's image was made from, and the serials the slot has published. -/
structure VideoHistory where
  sources : List Feed := []
  encoded : List UInt8 := []
  serials : List Nat := []

/-- Generations, drops and serials are `uint64_t`, which agree with numbers below `2 ^ 64`. -/
structure VideoReceiver (Picture : Type*) where
  slots : Fin videoSlotCount → VideoSlot Picture := fun _ => {}
  generations : Fin videoSlotCount → Nat := fun _ => 0
  drops : Fin videoSlotCount → Nat := fun _ => 0
  port : UInt16 := 0
  serial : Nat := 0
  queue : List VideoDatagram := []
  stopped : Bool := false
  /-- `configure` holds the state mutex. -/
  edit : Option ((Fin videoSlotCount → VideoConfig) × UInt16 × List (Fin videoSlotCount)) := none
  worker : Worker Picture := .idle
  assemblers : Fin videoSlotCount → FrameAssembler := fun _ => {}
  adopted : Fin videoSlotCount → Nat := fun _ => 0
  feeds : Fin videoSlotCount → List Feed := fun _ => []
  history : Fin videoSlotCount → VideoHistory := fun _ => {}

namespace VideoReceiver

variable {Picture : Type*}

inductive Label (Picture : Type*) where
  | configure (config : Fin videoSlotCount → VideoConfig) (port : UInt16)
  | change
  | configured
  | enqueue (slot : Nat) (bytes : List UInt8) (now : UInt64)
  | dequeue
  | expire (now : UInt64)
  | assemble (now : UInt64) (decoding : Decoding Picture)
  | raise (now : UInt64) (message : String)
  | publish
  | stop

/-- `configure` for one slot: a change empties it under a new generation. -/
def changeSlot (s : VideoReceiver Picture) (config : VideoConfig) (port : UInt16)
    (i : Fin videoSlotCount) : VideoReceiver Picture :=
  if (s.slots i).config.same config = false ∨ s.port ≠ port then
    { s with
      slots := Function.update s.slots i {
        config
        generation := s.generations i + 1
        latest := none
        status := { enabled := config.enabled } }
      generations := Function.update s.generations i (s.generations i + 1)
      drops := Function.update s.drops i 0 }
  else { s with slots := Function.update s.slots i { s.slots i with config } }

def drop (s : VideoReceiver Picture) (i : Fin videoSlotCount) : VideoReceiver Picture :=
  { s with drops := Function.update s.drops i (s.drops i + 1) }

/-- The caller holds the receiver's configuration mutex. -/
def enqueue (s : VideoReceiver Picture) (slot : Nat) (bytes : List UInt8) (now : UInt64) :
    VideoReceiver Picture :=
  if inside : slot < videoSlotCount then
    let i : Fin videoSlotCount := ⟨slot, inside⟩
    if s.stopped then s
    else if bytes.length > maxDatagram ∨ bytes.length < headerSize then s.drop i
    else if s.queue.length ≥ 4096 then s.drop i
    else
      let p : VideoDatagram :=
        { slot := i, bytes, generation := s.generations i, timestamp := now }
      { s with queue := s.queue ++ [p] }
  else s

/-- A datagram of an older generation, or too old, is skipped. -/
def skips (s : VideoReceiver Picture) (p : VideoDatagram) (now : UInt64) : Bool :=
  p.generation != s.generations p.slot || now - p.timestamp ≥ videoStaleNs

/-- The worker's assembler for this datagram, new for a new generation. -/
def adopt (s : VideoReceiver Picture) (p : VideoDatagram) : VideoReceiver Picture :=
  if s.adopted p.slot ≠ p.generation then
    { s with
      assemblers := Function.update s.assemblers p.slot {}
      adopted := Function.update s.adopted p.slot p.generation
      feeds := Function.update s.feeds p.slot [] }
  else s

/-- Push the datagram and, if it completes an image, decode it. -/
def assemble (s : VideoReceiver Picture) (p : VideoDatagram) (decoding : Decoding Picture) :
    VideoReceiver Picture :=
  let (assembler, completed) :=
    (s.assemblers p.slot).push (Memory.ofBytes p.bytes) p.bytes.length p.timestamp
  let log := s.feeds p.slot ++ [.pushed p]
  { s with
    assemblers := Function.update s.assemblers p.slot assembler
    feeds := Function.update s.feeds p.slot log
    worker := .publishing p assembler.counters log (completed.map fun bytes => (bytes, decoding)) }

/-- The status of a slot after a datagram; a completed image is counted. -/
def report (status : VideoStatus) (counters : FrameCounters) :
    Option (List UInt8 × Decoding Picture) → VideoStatus
  | none => { status with packets := counters }
  | some (_, decoding) =>
    if decoding.error ≠ "" ∨ decoding.picture.isNone then
      { status with
        packets := counters
        decodeErrors := status.decodeErrors + 1
        error := if decoding.error = "" then "Image conversion failed." else decoding.error }
    else
      { status with
        packets := counters
        decoded := status.decoded + 1
        error := ""
        format := decoding.format
        width := decoding.width
        height := decoding.height }

/-- The image to show, if the decoder gave one. -/
def shows : Option (List UInt8 × Decoding Picture) → Option (List UInt8 × Picture)
  | none => none
  | some (encoded, decoding) =>
    if decoding.error = "" then decoding.picture.map fun picture => (encoded, picture) else none

/-- Under the state mutex, in the generation of the datagram. -/
def publish (s : VideoReceiver Picture) (p : VideoDatagram) (counters : FrameCounters)
    (log : List Feed) (completed : Option (List UInt8 × Decoding Picture)) :
    VideoReceiver Picture :=
  let slot := s.slots p.slot
  let slot := { slot with status := report slot.status counters completed }
  match shows completed with
  | none => { s with slots := Function.update s.slots p.slot slot }
  | some (encoded, picture) =>
    { s with
      serial := s.serial + 1
      slots := Function.update s.slots p.slot { slot with
        latest := some { picture, serial := s.serial + 1, timestamp := p.timestamp } }
      history := Function.update s.history p.slot { s.history p.slot with
        sources := log, encoded, serials := (s.history p.slot).serials ++ [s.serial + 1] } }

/-- An exception is reported in the generation of the datagram. -/
def reportFailure (s : VideoReceiver Picture) (p : VideoDatagram) (message : String) :
    VideoReceiver Picture :=
  let slot := s.slots p.slot
  { s with slots := Function.update s.slots p.slot { slot with
      status := { slot.status with
        decodeErrors := slot.status.decodeErrors + 1
        error := "Video frame rejected: " ++ message } } }

def configureStep (s : VideoReceiver Picture) :
    Label Picture →
    Option ((Fin videoSlotCount → VideoConfig) × UInt16 × List (Fin videoSlotCount)) →
    Option (VideoReceiver Picture)
  | .configure config port, none =>
    some { s with edit := some (config, port, List.finRange videoSlotCount) }
  | .change, some (config, port, i :: remaining) =>
    some { s.changeSlot (config i) port i with edit := some (config, port, remaining) }
  | .configured, some (_, port, []) => some { s with port := port, edit := none }
  | .enqueue slot bytes now, none => some (s.enqueue slot bytes now)
  | .stop, _ => some { s with stopped := true }
  | _, _ => none

/-- The worker's loop. Publishing waits for the state mutex. -/
def workerStep (s : VideoReceiver Picture) :
    Label Picture → Worker Picture → Option (VideoReceiver Picture)
  | .dequeue, .idle =>
    if s.stopped then none
    else
      match s.queue with
      | [] => none
      | p :: rest => some { s with queue := rest, worker := .holding p }
  | .expire now, .idle =>
    if s.stopped ∨ s.queue ≠ [] then none
    else some { s with
      assemblers := fun i => (s.assemblers i).expire now
      feeds := fun i => s.feeds i ++ [.expired now] }
  | .assemble now decoding, .holding p =>
    if s.skips p now then some { s with worker := .idle }
    else some ((s.adopt p).assemble p decoding)
  | .raise now message, .holding p =>
    -- Pushing or decoding throws: the assembler is replaced.
    if s.skips p now then some { s with worker := .idle }
    else
      let s := s.adopt p
      some { s with
        assemblers := Function.update s.assemblers p.slot {}
        feeds := Function.update s.feeds p.slot []
        worker := .failing p message }
  | .publish, .publishing p counters log completed =>
    if s.edit.isSome then none
    else if (s.slots p.slot).generation ≠ p.generation then some { s with worker := .idle }
    else some { s.publish p counters log completed with worker := .idle }
  | .publish, .failing p message =>
    if s.edit.isSome then none
    else if (s.slots p.slot).generation ≠ p.generation then some { s with worker := .idle }
    else some { s.reportFailure p message with worker := .idle }
  | _, _ => none

def step (s : VideoReceiver Picture) (label : Label Picture) : Option (VideoReceiver Picture) :=
  match label with
  | .configure _ _ | .change | .configured | .enqueue _ _ _ | .stop => s.configureStep label s.edit
  | .dequeue | .expire _ | .assemble _ _ | .raise _ _ | .publish => s.workerStep label s.worker

/-- `configure` without anything in between. -/
def configure (s : VideoReceiver Picture) (config : Fin videoSlotCount → VideoConfig)
    (port : UInt16) : VideoReceiver Picture :=
  { (List.finRange videoSlotCount).foldl (fun s i => s.changeSlot (config i) port i) s with port }

/-- What a source shows of a slot. -/
def snapshot (s : VideoReceiver Picture) (slot : Int) (now : UInt64) :
    Option (VideoSnapshot Picture) :=
  if inside : 0 ≤ slot ∧ slot < videoSlotCount then
    let i : Fin videoSlotCount := ⟨slot.toNat, by omega⟩
    if (s.slots i).config.enabled = false then none
    else (s.slots i).latest.filter fun shown => now - shown.timestamp < videoStaleNs
  else none

theorem changeSlot_config (s : VideoReceiver Picture) (config : VideoConfig) (port : UInt16)
    (i j : Fin videoSlotCount) :
    ((s.changeSlot config port i).slots j).config = if j = i then config else (s.slots j).config := by
  rw [changeSlot]
  rcases eq_or_ne j i with rfl | other
  · split <;> simp
  · split <;> simp [other]

theorem configure_config (s : VideoReceiver Picture) (config : Fin videoSlotCount → VideoConfig)
    (port : UInt16) (i : Fin videoSlotCount) :
    ((s.configure config port).slots i).config = config i := by
  have changed (slots : List (Fin videoSlotCount)) : ∀ s : VideoReceiver Picture,
      ((slots.foldl (fun s i => s.changeSlot (config i) port i) s).slots i).config =
        if i ∈ slots then config i else (s.slots i).config := by
    induction slots with
    | nil => exact fun s => rfl
    | cons j rest ih =>
      intro s
      rw [List.foldl_cons, ih, changeSlot_config]
      by_cases later : i ∈ rest
      · simp [later]
      · by_cases same : i = j
        · simp [same]
        · simp [later, same]
  exact (changed _ s).trans (if_pos (List.mem_finRange i))

/-- The steps of a `configure` that nothing interrupts. -/
theorem configure_steps {s : VideoReceiver Picture} (free : s.edit = none)
    (config : Fin videoSlotCount → VideoConfig) (port : UInt16) :
    run step s (.configure config port :: List.replicate videoSlotCount .change ++ [.configured]) =
      some (s.configure config port) := by
  have changed (slots : List (Fin videoSlotCount)) : ∀ s : VideoReceiver Picture,
      run step { s with edit := some (config, port, slots) }
          (List.replicate slots.length .change ++ [.configured]) =
        some { slots.foldl (fun s i => s.changeSlot (config i) port i) s with
          port, edit := none } := by
    induction slots with
    | nil => exact fun s => rfl
    | cons i rest ih =>
      intro s
      have moved : (({ s with edit := some (config, port, i :: rest) } :
          VideoReceiver Picture).changeSlot (config i) port i) =
          { s.changeSlot (config i) port i with edit := some (config, port, i :: rest) } := by
        unfold changeSlot
        split <;> rfl
      rw [List.length_cons, List.replicate_succ, List.cons_append, run]
      change run step { (({ s with edit := some (config, port, i :: rest) } :
        VideoReceiver Picture).changeSlot (config i) port i) with
          edit := some (config, port, rest) } _ = _
      rw [moved]
      exact ih (s.changeSlot (config i) port i)
  have still (slots : List (Fin videoSlotCount)) : ∀ s : VideoReceiver Picture,
      (slots.foldl (fun s i => s.changeSlot (config i) port i) s).edit = s.edit := by
    induction slots with
    | nil => exact fun s => rfl
    | cons i rest ih =>
      intro s
      rw [List.foldl_cons, ih, changeSlot]
      split <;> rfl
  have started : run step s (.configure config port ::
      List.replicate videoSlotCount .change ++ [.configured]) =
      run step { s with edit := some (config, port, List.finRange videoSlotCount) }
        (List.replicate videoSlotCount .change ++ [.configured]) := by
    simp only [List.cons_append, run, step, free, configureStep, Option.bind_some]
  have finished := changed (List.finRange videoSlotCount) s
  rw [List.length_finRange] at finished
  rw [started, finished, configure]
  congr 2
  rw [still, free]

end VideoReceiver

end VbanStream
