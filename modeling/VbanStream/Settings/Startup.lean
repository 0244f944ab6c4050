import VbanStream.Settings.Normalize

/-! Loading the plugin: the saved settings are read, and every part takes them up on its own. A part
that cannot is left as it was made, and a warning says so. -/

namespace VbanStream

open Library

namespace Plugin

variable {Picture : Type*}

/-- A plugin while it is loading, with the warnings it has logged. -/
structure Loading (Picture : Type*) where
  plugin : Plugin Picture
  warnings : List String := []

/-- A part that could be prepared takes over; otherwise the error is logged. -/
def Loading.part {α : Type*} (title : String) (prepared : Except String α)
    (activate : α → Plugin Picture → Plugin Picture) (l : Loading Picture) : Loading Picture :=
  match prepared with
  | .ok next => { l with plugin := activate next l.plugin }
  | .error message => { l with warnings := l.warnings ++ [title ++ message] }

/-- The receiver's part of `obs_module_load`: it is left alone if the settings were not read. -/
def loadReceiver (a : ApplyAnswers) (noError path : String) (read : SavedFile)
    (file : Option Json) : Loading Picture :=
  let (config, error) := readConfig a.qt noError path read ""
  let s : Plugin Picture := { file, desired := config, startupError := error }
  let s :=
    if error = "" then
      match configure a config (Stage.change id) s with
      | (.ok (), after) => after
      | (.error message, after) => { after with startupError := message }
    else s
  { plugin := s, warnings := if s.startupError = "" then [] else [s.startupError] }

/-- `obs_module_load`, up to the parts that take up the settings. -/
def load (a : ApplyAnswers) (noError path : String) (read : SavedFile) (file : Option Json) :
    Loading Picture :=
  let l := loadReceiver a noError path read file
  let config := l.plugin.desired
  let l := l.part "Program output: "
    (ProgramOutput.prepare a.parse a.outputAdapters a.output a.scaled a.video config.frameOutput)
    fun session s => { s with output := s.output.activate session }
  let l := l.part "Mouse return: "
    (MouseReturn.prepare a.parse a.mouseAdapters a.mice config.mice config.mouseLocalIp)
    fun routing s => { s with mouse := s.mouse.activate a.mouseFailure (some routing) }
  l.part "Returns: "
    (l.plugin.returns.prepare a.parse a.returnAdapters a.returns config.returns
      config.returnLocalIp config.returnBufferMs)
    fun routing s =>
      { s with returns := s.returns.activate (some routing) config.returnBufferMs }

/-- What loading leaves: every part describes the settings or is as it was made, and then there is
a warning. -/
structure Loading.Settled (a : ApplyAnswers) (config : Config) (file : Option Json)
    (l : Loading Picture) : Prop where
  receiver :
    (Follows a.parse config {} l.plugin.receiver ∧
      (∀ i, (l.plugin.videos.slots i).config = config.videos i) ∧ l.plugin.startupError = "") ∨
    l.plugin.receiver = {} ∧ l.plugin.videos = {} ∧ l.plugin.startupError ≠ "" ∧
      l.plugin.startupError ∈ l.warnings
  output :
    (∃ session, l.plugin.output.active = some session ∧ session.config = config.frameOutput) ∨
    l.plugin.output = {} ∧ ∃ message, message ≠ "" ∧ "Program output: " ++ message ∈ l.warnings
  mouse :
    (∃ routing, l.plugin.mouse.routing = some routing ∧
      ∀ i, (routing i).val.config = config.mice i) ∨
    l.plugin.mouse = {} ∧ ∃ message, message ≠ "" ∧ "Mouse return: " ++ message ∈ l.warnings
  returns :
    (∃ routing, l.plugin.returns.transmitter.routing = some routing ∧
      (∀ i, (routing i).val.config = config.returns i) ∧
      l.plugin.returns.bufferMs = config.returnBufferMs) ∨
    l.plugin.returns = {} ∧ ∃ message, message ≠ "" ∧ "Returns: " ++ message ∈ l.warnings
  desired : l.plugin.desired = config
  file : l.plugin.file = file

section Part

variable {α β : Type*} {title : String} {prepared : Except String α}
  {activate : α → Plugin Picture → Plugin Picture} {l after : Loading Picture}

theorem part_frame (made : l.part title prepared activate = after) (field : Plugin Picture → β)
    (frame : ∀ next s, field (activate next s) = field s) :
    field after.plugin = field l.plugin := by
  subst made
  cases prepared with
  | ok next => exact frame next l.plugin
  | error message => rfl

theorem part_keeps (made : l.part title prepared activate = after) :
    ∀ text ∈ l.warnings, text ∈ after.warnings := by
  subst made
  intro text logged
  cases prepared with
  | ok next => exact logged
  | error message => exact List.mem_append_left _ logged

/-- A part takes over as it was prepared, or it stays as it was, with a warning. -/
theorem part_settles (made : l.part title prepared activate = after) {good : α → Prop}
    (meets : Meets (· ≠ "") good prepared) (field : Plugin Picture → β) :
    (∃ next, good next ∧ field after.plugin = field (activate next l.plugin)) ∨
    field after.plugin = field l.plugin ∧
      ∃ message, message ≠ "" ∧ title ++ message ∈ after.warnings := by
  subst made
  cases outcome : prepared with
  | ok next => exact .inl ⟨next, meets.ok outcome, rfl⟩
  | error message =>
    exact .inr ⟨rfl, message, meets.error outcome, List.mem_append_right _ (by simp)⟩

end Part

/-- The receiver is configured from the settings or left alone, and then the reason is kept. -/
theorem loadReceiver_settles (a : ApplyAnswers) (noError path : String) (read : SavedFile)
    (file : Option Json) :
    let l : Loading Picture := loadReceiver a noError path read file
    let config := (readConfig a.qt noError path read "").1
    ((Follows a.parse config {} l.plugin.receiver ∧
      (∀ i, (l.plugin.videos.slots i).config = config.videos i) ∧ l.plugin.startupError = "") ∨
    l.plugin.receiver = {} ∧ l.plugin.videos = {} ∧ l.plugin.startupError ≠ "" ∧
      l.plugin.startupError ∈ l.warnings) ∧
    l.plugin.output = {} ∧ l.plugin.mouse = {} ∧ l.plugin.returns = {} ∧
      l.plugin.desired = config ∧ l.plugin.file = file := by
  dsimp only
  rw [loadReceiver]
  generalize readConfig a.qt noError path read "" = answer
  obtain ⟨config, error⟩ := answer
  dsimp only
  split
  · rename_i fine
    subst fine
    split
    · rename_i after success
      obtain ⟨valid, middle, socket, same, listens, rfl⟩ := configure_ok success
      obtain ⟨_, rfl⟩ := Prod.mk.inj same
      exact ⟨.inl ⟨commit_follows valid _ listens,
        VideoReceiver.configure_config _ config.videos config.port, rfl⟩,
        rfl, rfl, rfl, rfl, rfl⟩
    · rename_i message after failure
      have atomic : Stage.Atomic (· ≠ "")
          (Stage.change id : Stage (Plugin Picture) String Unit) :=
        fun _ _ _ never => by cases never
      obtain ⟨rfl, explained⟩ := configure_atomic atomic _ _ _ failure
      exact ⟨.inr ⟨rfl, rfl, explained, by simp [explained]⟩, rfl, rfl, rfl, rfl, rfl⟩
  · rename_i refused
    exact ⟨.inr ⟨rfl, rfl, refused, by simp⟩, rfl, rfl, rfl, rfl, rfl⟩

/-- Whatever the settings file holds and whatever the system answers, each part ends up either
with the settings that were read or as it was made, and then a warning has been logged for it: no
part is left between the two, and none stops another. -/
theorem load_settles (a : ApplyAnswers) (noError path : String) (read : SavedFile)
    (file : Option Json) :
    (load a noError path read file : Loading Picture).Settled a
      (readConfig a.qt noError path read "").1 file := by
  have start := @loadReceiver_settles Picture a noError path read file
  rw [load]
  dsimp only at start ⊢
  obtain ⟨receiver, noOutput, noMouse, noReturns, desired, sameFile⟩ := start
  rw [desired]
  generalize (readConfig a.qt noError path read "").1 = config at *
  generalize (loadReceiver a noError path read file : Loading Picture) = l at *
  generalize first : l.part "Program output: " _ _ = afterOutput
  generalize second : afterOutput.part "Mouse return: " _ _ = afterMouse
  generalize third : afterMouse.part "Returns: " _ _ = loaded
  have kept (text : String) (logged : text ∈ afterOutput.warnings) : text ∈ loaded.warnings :=
    part_keeps third _ (part_keeps second _ logged)
  let others (s : Plugin Picture) := (s.receiver, s.videos, s.startupError, s.desired, s.file)
  have frame : others loaded.plugin = others l.plugin :=
    (part_frame third others fun _ _ => rfl).trans
      ((part_frame second others fun _ _ => rfl).trans (part_frame first others fun _ _ => rfl))
  simp only [others, Prod.mk.injEq] at frame
  obtain ⟨sameReceiver, sameVideos, sameError, sameDesired, keptFile⟩ := frame
  refine ⟨?_, ?_, ?_, ?_, sameDesired.trans desired, keptFile.trans sameFile⟩
  · rw [sameReceiver, sameVideos, sameError]
    obtain follows | ⟨idle, dark, explained, logged⟩ := receiver
    · exact .inl follows
    · exact .inr ⟨idle, dark, explained, kept _ (part_keeps first _ logged)⟩
  · rw [(part_frame third Plugin.output fun _ _ => rfl).trans
      (part_frame second Plugin.output fun _ _ => rfl)]
    obtain ⟨session, same, takes⟩ | ⟨stays, message, explained, logged⟩ :=
      part_settles first (ProgramOutput.prepare_meets ..) Plugin.output
    · exact .inl ⟨session, by rw [takes]; rfl, same⟩
    · exact .inr ⟨stays.trans noOutput, message, explained, kept _ logged⟩
  · rw [part_frame third Plugin.mouse fun _ _ => rfl]
    obtain ⟨routing, same, takes⟩ | ⟨stays, message, explained, logged⟩ :=
      part_settles second (MouseReturn.prepare_meets ..) Plugin.mouse
    · exact .inl ⟨routing, by rw [takes]; rfl, same⟩
    · exact .inr ⟨(stays.trans (part_frame first Plugin.mouse fun _ _ => rfl)).trans noMouse,
        message, explained, part_keeps third _ logged⟩
  · obtain ⟨routing, ⟨inRange, same⟩, takes⟩ | ⟨stays, message, explained, logged⟩ :=
      part_settles third (MonitorReturn.prepare_meets ..) Plugin.returns
    · refine .inl ⟨routing, by rw [takes]; rfl, same, ?_⟩
      obtain ⟨low, high⟩ := not_or.mp inRange
      rw [takes]
      change clamp config.returnBufferMs minReturnBufferMs maxReturnBufferMs = _
      rw [clamp, if_neg low, if_neg high]
    · exact .inr ⟨((stays.trans (part_frame second Plugin.returns fun _ _ => rfl)).trans
        (part_frame first Plugin.returns fun _ _ => rfl)).trans noReturns,
        message, explained, logged⟩

end Plugin

end VbanStream
