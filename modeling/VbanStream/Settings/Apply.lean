import VbanStream.Library.Stage
import VbanStream.Mouse.MouseReturn
import VbanStream.Receiver.Reconfigure
import VbanStream.Return.Transmitter
import VbanStream.Settings.Document
import VbanStream.Video.ProgramOutput
import VbanStream.Video.VideoReceiver

namespace VbanStream

open Library

/-- Both configurations have a slot listen to the same sender, name and port. -/
structure Config.Agree (old new : Config) (i : Fin slotCount) : Prop where
  enabled : (old.slots i).enabled = (new.slots i).enabled
  name : (old.slots i).streamName = (new.slots i).streamName
  sender : old.ip i = new.ip i
  port : old.port = new.port

theorem changes_eq_false {old : Routing} {config : Config} {i : Fin slotCount} :
    old.changes config i = false ↔ old.config.Agree config i := by
  simp only [Routing.changes, Bool.or_eq_false_iff, bne_eq_false_iff_eq]
  constructor
  · rintro ⟨⟨⟨enabled, name⟩, sender⟩, port⟩
    exact ⟨enabled, name, sender, port⟩
  · rintro ⟨enabled, name, sender, port⟩
    exact ⟨⟨⟨enabled, name⟩, sender⟩, port⟩

/-- What `configure` reads and writes of the receiver. -/
structure Listener where
  routing : Routing := {}
  generation : Nat := 0
  slots : Fin slotCount → Slot := fun _ => {}
  fatalError : String := ""
  stopped : Bool := false

structure Plugin (Picture : Type*) where
  receiver : Listener := {}
  videos : VideoReceiver Picture := {}
  output : ProgramOutput := {}
  mouse : MouseReturn := {}
  drag : ProgramDrag := {}
  returns : MonitorReturn := {}
  /-- The settings file, where there is one. -/
  file : Option Json := none
  desired : Config := {}
  startupError : String := ""

/-- The system's answers while the receiver opens its socket. -/
structure ReceiveAnswers where
  created : Option Nat
  receiveSize : Int
  binds : Bool
  nonblocking : Bool
  error : Int

/-- The answers of the file system; a failure comes with Qt's text for it. -/
structure SaveAnswers where
  path : String
  directory : Bool
  opens : Option String
  commits : Option String

/-- Everything outside that one Apply asks. -/
structure ApplyAnswers where
  parse : Parse
  qt : Qt
  scaled : FrameOutputConfig → UInt32 → UInt32 → Nat × Nat
  video : Option ObsVideoInfo
  outputAdapters : Adapters
  mouseAdapters : Adapters
  returnAdapters : Adapters
  output : SocketAnswers
  mice : Fin videoSlotCount → SocketAnswers
  returns : Fin returnCount → SocketAnswers
  receive : ReceiveAnswers
  save : SaveAnswers
  mouseFailure : Nat → Option Int

/-- The socket of the next routing: none, the old one, or a new one. -/
def openSocket (answers : ReceiveAnswers) (old : Routing) (config : Config) :
    Except String (Option Nat) :=
  let code := toString answers.error
  if Routing.listens config = false then .ok none
  else if Routing.keepsSocket old config then .ok old.socket
  else
    match answers.created with
    | none => .error ("Cannot create UDP socket (Socket " ++ code ++ ").")
    | some socket =>
      if answers.receiveSize < 128 * 1024 then
        .error "Cannot reserve at least 128 KiB for UDP reception."
      else if answers.binds = false then
        .error ("Cannot bind UDP port " ++ toString config.port ++ " (Socket " ++ code ++
          "). Another receiver may already use this port.")
      else if answers.nonblocking = false then
        .error "Could not set UDP socket to nonblocking mode."
      else .ok (some socket)

/-- The part of `configure` under the configuration mutex. -/
def Listener.commit (r : Listener) (next : Routing) : Listener :=
  { r with
    generation := r.generation + 1
    slots := fun i => if r.routing.changes next.config i then (r.slots i).reset else r.slots i
    routing := { next with generation := r.generation + 1 }
    fatalError := "" }

/-- Qt as it is for ASCII texts. -/
def asciiQt : Qt where
  fromStdString bytes := bytes.map UInt8.toUInt16
  toStdString text := String.ofList (text.map fun unit => Char.ofNat unit.toNat)
  trimmed text :=
    let blank (unit : UInt16) : Bool := unit == 32 || (9 ≤ unit && unit ≤ 13)
    ((text.dropWhile blank).reverse.dropWhile blank).reverse
  value members key := (members.find? fun member => member.1 == key).map Prod.snd
  toBool value default :=
    match value with
    | some (.boolean value) => value
    | _ => default
  toInt value default :=
    match value with
    | some (.number value) => if -2 ^ 31 ≤ value ∧ value < 2 ^ 31 then value else default
    | _ => default
  toText value default :=
    match value with
    | some (.text value) => value
    | _ => default
  toArray value :=
    match value with
    | some (.array items) => items
    | _ => []
  toObject value :=
    match value with
    | some (.object members) => members
    | _ => []

namespace Plugin

variable {Picture : Type*}

/-- `QSaveFile` replaces the file at once or not at all. -/
def writeConfig (a : ApplyAnswers) (config : Config) : Stage (Plugin Picture) String Unit :=
  fun s =>
    if a.save.path = "" ∨ a.save.directory = false then
      (.error "Cannot create the OBS module settings directory.", s)
    else
      match a.save.opens with
      | some text => (.error text, s)
      | none =>
        match a.save.commits with
        | some text => (.error ("Could not save settings: " ++ text), s)
        | none => (.ok (), { s with file := some (config.document a.qt) })

/-- `Receiver::configure`. -/
def configure (a : ApplyAnswers) (config : Config) (save : Stage (Plugin Picture) String Unit) :
    Stage (Plugin Picture) String Unit :=
  (Stage.check fun _ =>
    match validate a.parse config with
    | some message => .error message
    | none => .ok ()).andThen fun _ =>
  (Stage.check fun s =>
    if s.receiver.stopped then .error "Receiver worker stopped. Restart OBS."
    else .ok ()).andThen fun _ =>
  (Stage.check fun s => openSocket a.receive s.receiver.routing config).andThen fun socket =>
  save.andThen fun _ =>
  Stage.change fun s =>
    { s with
      receiver := s.receiver.commit
        { Routing.prepare a.parse s.receiver.routing config 0 with socket }
      videos := s.videos.configure config.videos config.port }

/-- What follows a successful `configure`. -/
def activate (a : ApplyAnswers) (config : Config) (output : OutputSession) (mice : MouseRouting)
    (returns : ReturnRouting) (s : Plugin Picture) : Plugin Picture :=
  let s := { s with output := s.output.activate output }
  let (mouse, drag) := cancelDrag a.mouseFailure (s.mouse, s.drag)
  let s := { s with mouse := mouse.activate a.mouseFailure (some mice), drag }
  let s := { s with returns := s.returns.activate (some returns) config.returnBufferMs }
  { s with desired := config, startupError := "" }

/-- The callback of the settings dialog. -/
def apply (a : ApplyAnswers) (config : Config) : Stage (Plugin Picture) String Unit :=
  (Stage.check fun _ => ProgramOutput.prepare a.parse a.outputAdapters a.output a.scaled a.video
    config.frameOutput).andThen fun output =>
  (Stage.check fun _ => MouseReturn.prepare a.parse a.mouseAdapters a.mice config.mice
    config.mouseLocalIp).andThen fun mice =>
  (Stage.check fun s => s.returns.prepare a.parse a.returnAdapters a.returns config.returns
    config.returnLocalIp config.returnBufferMs).andThen fun returns =>
  (configure a config (writeConfig a config)).andThen fun _ =>
  Stage.change (activate a config output mice returns)

/-- A new socket is there exactly where something listens. -/
theorem openSocket_meets (answers : ReceiveAnswers) (old : Routing) (config : Config) :
    Meets (· ≠ "") (fun socket => socket.isSome = Routing.listens config)
      (openSocket answers old config) := by
  unfold openSocket
  split
  · rename_i silent
    exact silent.symm
  · rename_i listening
    have listens : Routing.listens config = true := by simpa using listening
    split
    · rename_i keeps
      rw [Routing.keepsSocket, Bool.and_eq_true, Bool.and_eq_true] at keeps
      exact keeps.1.2.trans listens.symm
    · split
      · simp [Meets]
      · refine meets_ite (by simp [Meets]) ?_
        refine meets_ite (by simp [Meets]) ?_
        exact meets_ite (by simp [Meets]) listens.symm

theorem writeConfig_atomic {a : ApplyAnswers}
    (explained : ∀ text, a.save.opens = some text → text ≠ "") (config : Config) :
    Stage.Atomic (· ≠ "") (writeConfig a config : Stage (Plugin Picture) String Unit) := by
  intro s message after failure
  unfold writeConfig at failure
  split at failure
  · cases failure
    exact ⟨rfl, by simp⟩
  · split at failure
    · rename_i text failed
      cases failure
      exact ⟨rfl, explained _ failed⟩
    · split at failure
      · cases failure
        exact ⟨rfl, by simp⟩
      · cases failure

theorem configure_atomic {a : ApplyAnswers} {config : Config}
    {save : Stage (Plugin Picture) String Unit} (atomic : Stage.Atomic (· ≠ "") save) :
    Stage.Atomic (· ≠ "") (configure a config save) := by
  have valid : ∀ s : Plugin Picture, Meets (· ≠ "") (fun _ => True)
      (match validate a.parse config with
      | some message => .error message
      | none => .ok () : Except String Unit) := by
    intro s
    cases invalid : validate a.parse config with
    | none => trivial
    | some message => exact validate_explains invalid
  have running : ∀ s : Plugin Picture, Meets (· ≠ "") (fun _ => True)
      (if s.receiver.stopped then .error "Receiver worker stopped. Restart OBS."
        else .ok () : Except String Unit) :=
    fun s => meets_ite (by simp [Meets]) trivial
  refine (Stage.reads_check valid).andThen fun _ => ?_
  refine (Stage.reads_check running).andThen fun _ => ?_
  refine (Stage.reads_check fun s => openSocket_meets _ _ _).andThen fun socket => ?_
  exact atomic.andThen_change _

theorem apply_atomic {a : ApplyAnswers}
    (explained : ∀ text, a.save.opens = some text → text ≠ "") (config : Config) :
    Stage.Atomic (· ≠ "") (apply a config : Stage (Plugin Picture) String Unit) := by
  refine (Stage.reads_check fun s => ProgramOutput.prepare_meets ..).andThen fun output => ?_
  refine (Stage.reads_check fun s => MouseReturn.prepare_meets ..).andThen fun mice => ?_
  refine (Stage.reads_check fun s => MonitorReturn.prepare_meets ..).andThen fun returns => ?_
  exact (configure_atomic (writeConfig_atomic explained config)).andThen_change _

/-- The receiver follows the new configuration; `before` is what it did before. -/
structure Follows (parse : Parse) (config : Config) (before after : Listener) : Prop where
  current : after.routing.config = config
  addressed : after.routing.Addressed parse
  videoAddressed : ∀ i, (config.videos i).enabled = true →
    parse (config.videos i).senderIp = some (after.routing.videoAddresses i)
  listens : after.routing.socket.isSome = Routing.listens config
  generation : after.generation = before.generation + 1 ∧
    after.routing.generation = after.generation
  cleared : after.fatalError = ""
  kept : ∀ i, before.routing.config.Agree config i → after.slots i = before.slots i
  reset : ∀ i, ¬ before.routing.config.Agree config i → after.slots i = (before.slots i).reset

theorem commit_follows {parse : Parse} {config : Config} (valid : validate parse config = none)
    (r : Listener) {socket : Option Nat} (listens : socket.isSome = Routing.listens config) :
    Follows parse config r (r.commit { Routing.prepare parse r.routing config 0 with socket }) where
  current := rfl
  addressed := prepare_addressed valid r.routing 0
  videoAddressed i enabled := by
    obtain ⟨address, parsed⟩ := Option.isSome_iff_exists.mp (validate_videos valid i enabled)
    change _ = some (if (config.videos i).enabled then _ else _)
    rw [parsed, if_pos enabled, Option.getD_some]
  listens := listens
  generation := ⟨rfl, rfl⟩
  cleared := rfl
  kept i agree := by
    have unchanged : r.routing.changes config i = false := changes_eq_false.mpr agree
    change (if r.routing.changes config i then _ else _) = _
    rw [unchanged]
    rfl
  reset i differ := by
    have changed : r.routing.changes config i = true := by
      rw [← Bool.not_eq_false]
      exact mt changes_eq_false.mp differ
    change (if r.routing.changes config i then _ else _) = _
    rw [if_pos changed]

/-- The receiver between its threads, as Apply sees it. -/
def Listener.of (r : Receiver) : Listener :=
  { routing := r.routing, generation := r.generation, slots := r.slots }

/-- The opened socket is the one that `configure` of the threads prepares. -/
theorem openSocket_prepare {answers : ReceiveAnswers} {old : Routing} {config : Config}
    {fresh : Nat} {socket : Option Nat} (created : answers.created = some fresh)
    (opened : openSocket answers old config = .ok socket) (parse : Parse) :
    { old.prepare parse config 0 with socket } = old.prepare parse config fresh := by
  have same : socket = (old.prepare parse config fresh).socket := by
    unfold openSocket at opened
    unfold Routing.prepare
    rw [created] at opened
    split at opened
    · rename_i silent
      cases opened
      simp [Routing.keepsSocket, silent]
    · rename_i listening
      split at opened
      · rename_i keeps
        cases opened
        simp [keeps]
      · rename_i leaves
        split_ifs at opened
        cases opened
        simpa [leaves] using listening
  rw [same]
  rfl

theorem resets_run (parse : Parse) {next : Routing} (slots : List (Fin slotCount))
    (r : Receiver) (committing : r.edit = .committing next slots) :
    ∃ after, run (Receiver.step parse) r (List.replicate slots.length .reset) = some after ∧
      after.edit = .committing next [] ∧ after.routing = r.routing ∧
      after.generation = r.generation ∧
      ∀ i, after.slots i =
        if i ∈ slots ∧ r.routing.changes next.config i then (r.slots i).reset else r.slots i := by
  induction slots generalizing r with
  | nil => exact ⟨r, rfl, committing, rfl, rfl, fun i => by simp⟩
  | cons head rest ih =>
    let middle : Receiver :=
      { (if r.routing.changes next.config head then r.resetSlot head else r) with
        edit := .committing next rest }
    have taken : Receiver.step parse r .reset = some middle := by
      simp only [Receiver.step, committing, Receiver.configureStep, middle]
    have routing : middle.routing = r.routing := by
      simp only [middle]
      split <;> rfl
    have generation : middle.generation = r.generation := by
      simp only [middle]
      split <;> rfl
    have first (i : Fin slotCount) : middle.slots i =
        if i = head ∧ r.routing.changes next.config i then (r.slots i).reset else r.slots i := by
      simp only [middle]
      by_cases changed : r.routing.changes next.config head = true
      · rcases eq_or_ne i head with rfl | other
        · simp [changed, Receiver.resetSlot]
        · simp [changed, Receiver.resetSlot, other]
      · rcases eq_or_ne i head with rfl | other
        · simp [changed]
        · simp [changed, other]
    obtain ⟨after, later, edit, sameRouting, sameGeneration, rested⟩ := ih middle rfl
    refine ⟨after, run_cons.mpr ⟨middle, taken, later⟩, edit, sameRouting.trans routing,
      sameGeneration.trans generation, fun i => ?_⟩
    rw [rested, routing, first]
    by_cases here : i = head
    · subst here
      by_cases changed : r.routing.changes next.config i = true
      · simp [changed]
      · simp [changed]
    · simp only [here, false_and, if_false, List.mem_cons, false_or]

/-- With nothing in between, the steps of `configure` add up to its commit. -/
theorem commit_steps {parse : Parse} {config : Config} (valid : validate parse config = none)
    {r : Receiver} (idle : r.edit = .idle) :
    ∃ after, run (Receiver.step parse) r
        (.prepare config :: .bump :: (List.replicate slotCount .reset ++ [.publish])) =
          some after ∧
      Listener.of after = (Listener.of r).commit (r.routing.prepare parse config r.sockets) := by
  let next := r.routing.prepare parse config r.sockets
  let bumped : Receiver :=
    { r with
      sockets := r.sockets + 1
      generation := r.generation + 1
      edit := .committing { next with generation := r.generation + 1 } (List.finRange slotCount) }
  obtain ⟨middle, reset, edit, routing, generation, slots⟩ :=
    resets_run parse (List.finRange slotCount) bumped rfl
  rw [List.length_finRange] at reset
  have begun : run (Receiver.step parse) r [.prepare config, .bump] = some bumped := by
    simp only [run, Receiver.step, idle, Receiver.configureStep, valid, if_true,
      Option.bind_some, bumped, next]
  obtain ⟨after, published, sameRouting, sameGeneration, sameSlots⟩ :
      ∃ after, Receiver.step parse middle .publish = some after ∧
        after.routing = { next with generation := r.generation + 1 } ∧
        after.generation = middle.generation ∧ after.slots = middle.slots := by
    simp only [Receiver.step, edit, Receiver.configureStep]
    exact ⟨_, rfl, rfl, rfl, rfl⟩
  refine ⟨after, run_append.mpr ⟨bumped, begun, run_append.mpr ⟨middle, reset, ?_⟩⟩, ?_⟩
  · rw [run, published]
    rfl
  · rw [Listener.of, Listener.commit, sameRouting, sameGeneration, sameSlots, generation]
    congr
    funext i
    rw [slots]
    simp only [List.mem_finRange, true_and]
    rfl

/-- What a successful Apply leaves behind: every part describes the new settings. -/
structure Applied (a : ApplyAnswers) (config : Config) (before after : Plugin Picture) : Prop where
  receiver : Follows a.parse config before.receiver after.receiver
  videos : ∀ i, (after.videos.slots i).config = config.videos i
  output : ∃ session, after.output.active = some session ∧ session.config = config.frameOutput
  mouse : ∃ routing, after.mouse.routing = some routing ∧
    ∀ i, (routing i).val.config = config.mice i
  returns : ∃ routing, after.returns.transmitter.routing = some routing ∧
    ∀ i, (routing i).val.config = config.returns i
  buffer : after.returns.bufferMs = config.returnBufferMs
  file : after.file = some (config.document a.qt)
  desired : after.desired = config
  explained : after.startupError = ""

theorem writeConfig_ok {a : ApplyAnswers} {config : Config} {s after : Plugin Picture}
    (success : writeConfig a config s = (.ok (), after)) :
    after = { s with file := some (config.document a.qt) } := by
  unfold writeConfig at success
  split at success
  · cases success
  · split at success
    · cases success
    · split at success
      · cases success
      · cases success
        rfl

theorem configure_ok {a : ApplyAnswers} {config : Config}
    {save : Stage (Plugin Picture) String Unit} {s after : Plugin Picture}
    (success : configure a config save s = (.ok (), after)) :
    validate a.parse config = none ∧ ∃ middle socket, save s = (.ok (), middle) ∧
      socket.isSome = Routing.listens config ∧
      after = { middle with
        receiver := middle.receiver.commit
          { Routing.prepare a.parse middle.receiver.routing config 0 with socket }
        videos := middle.videos.configure config.videos config.port } := by
  obtain ⟨_, state, checked, later⟩ := Stage.andThen_ok success
  obtain ⟨valid, rfl⟩ := Prod.mk.inj checked
  obtain ⟨_, state, checked, later⟩ := Stage.andThen_ok later
  obtain ⟨_, rfl⟩ := Prod.mk.inj checked
  obtain ⟨socket, state, checked, later⟩ := Stage.andThen_ok later
  obtain ⟨opened, rfl⟩ := Prod.mk.inj checked
  obtain ⟨_, middle, saved, later⟩ := Stage.andThen_ok later
  obtain ⟨_, rfl⟩ := Prod.mk.inj later
  refine ⟨?_, middle, socket, saved, (openSocket_meets _ _ _).ok opened, rfl⟩
  cases complaint : validate a.parse config with
  | none => rfl
  | some message => simp [complaint] at valid

theorem apply_applied {a : ApplyAnswers} {config : Config} {s after : Plugin Picture}
    (success : apply a config s = (.ok (), after)) : Applied a config s after := by
  obtain ⟨output, state, checked, later⟩ := Stage.andThen_ok success
  obtain ⟨outputReady, rfl⟩ := Prod.mk.inj checked
  obtain ⟨mice, state, checked, later⟩ := Stage.andThen_ok later
  obtain ⟨miceReady, rfl⟩ := Prod.mk.inj checked
  obtain ⟨returns, state, checked, later⟩ := Stage.andThen_ok later
  obtain ⟨returnsReady, rfl⟩ := Prod.mk.inj checked
  obtain ⟨_, configured, committed, later⟩ := Stage.andThen_ok later
  obtain ⟨_, rfl⟩ := Prod.mk.inj later
  obtain ⟨valid, middle, socket, saved, listens, rfl⟩ := configure_ok committed
  obtain rfl := writeConfig_ok saved
  have inRange := ((MonitorReturn.prepare_meets ..).ok returnsReady).1
  exact {
    receiver := commit_follows valid s.receiver listens
    videos := VideoReceiver.configure_config s.videos config.videos config.port
    output := ⟨output, rfl, (ProgramOutput.prepare_meets ..).ok outputReady⟩
    mouse := ⟨mice, rfl, (MouseReturn.prepare_meets ..).ok miceReady⟩
    returns := ⟨returns, rfl, ((MonitorReturn.prepare_meets ..).ok returnsReady).2⟩
    buffer := by
      obtain ⟨low, high⟩ := not_or.mp inRange
      change clamp config.returnBufferMs minReturnBufferMs maxReturnBufferMs = _
      rw [clamp, if_neg low, if_neg high]
    file := rfl
    desired := rfl
    explained := rfl }

/-- Apply changes every part or none, and a failure says why: the file system has a
text for every open that fails. -/
theorem apply_all_or_nothing (a : ApplyAnswers) (config : Config) (s : Plugin Picture)
    (explained : ∀ text, a.save.opens = some text → text ≠ "") :
    (∀ message after, apply a config s = (.error message, after) → after = s ∧ message ≠ "") ∧
      ∀ after, apply a config s = (.ok (), after) → Applied a config s after :=
  ⟨apply_atomic explained config s, fun _ => apply_applied⟩

def shownSocket : SocketAnswers where
  created := some 3
  selects _ := true
  binds := true
  connects := true
  endpoint := some ("192.168.1.2", 50000)
  quiet := true
  error := 0

/-- Everything succeeds, but for the opening of the settings file in question. -/
def shownAnswers (opens : Option String) : ApplyAnswers where
  parse text := if text = "192.168.1.9" then some 0x0901a8c0 else none
  qt := asciiQt
  scaled _ width height := (width.toNat, height.toNat)
  video := none
  outputAdapters := .ok []
  mouseAdapters := .ok []
  returnAdapters := .ok []
  output := shownSocket
  mice _ := shownSocket
  returns _ := shownSocket
  receive :=
    { created := some 4, receiveSize := 262144, binds := true, nonblocking := true, error := 0 }
  save := { path := "config.json", directory := true, opens, commits := none }
  mouseFailure _ := none

def shownConfig : Config :=
  { senderIp := "192.168.1.9"
    slots := fun i => { enabled := i.val == 2, streamName := ascii "Stream1" }
    mice := fun i => { enabled := i.val == 1, destinationIp := "192.168.1.9" } }

/-- A settings file that cannot be opened, and one that can. -/
theorem apply_all_or_nothing_shown :
    (apply (shownAnswers (some "Permission denied")) shownConfig ({} : Plugin Unit)).2 = {} ∧
      Applied (shownAnswers none) shownConfig ({} : Plugin Unit)
        (apply (shownAnswers none) shownConfig {}).2 := by
  constructor
  · have result := apply_all_or_nothing (shownAnswers (some "Permission denied")) shownConfig
      ({} : Plugin Unit) (by simp [shownAnswers])
    exact (result.1 "Permission denied" _ rfl).1
  · have result := apply_all_or_nothing (shownAnswers none) shownConfig ({} : Plugin Unit)
      (by simp [shownAnswers])
    exact result.2 _ rfl

end Plugin

end VbanStream
