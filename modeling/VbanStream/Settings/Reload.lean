import VbanStream.Settings.Apply

/-! Reading the settings file: `read_config` gives back what `write_config` saved,
key by key, as far as Qt gives back what it is given. -/

namespace VbanStream

open Library

/-- A saved port; zero is refused later, by `prepare`. -/
def savedPort (port : Int) : UInt16 :=
  if port > 0 ∧ port ≤ 65535 then UInt16.ofNat port.toNat else 0

namespace Qt

variable (qt : Qt)

/-- `toString().toStdString()`, with a null string for another type. -/
def text (value : Option Json) : String := qt.toStdString (qt.toText value [])

/-- The same of a stream name, with its default. -/
def name (value : Option Json) (default : StreamName := []) : StreamName :=
  utf8 (qt.toStdString (qt.toText value (qt.fromStdString default)))

def readSlot (members : Json.Members) : SlotConfig where
  enabled := qt.toBool (qt.value members "enabled") false
  label := qt.text (qt.value members "label")
  senderIp := qt.text (qt.value members "sender_ip")
  streamName := utf8 (qt.text (qt.value members "stream_name"))

def readVideo (members : Json.Members) : VideoConfig where
  enabled := qt.toBool (qt.value members "enabled") false
  label := qt.text (qt.value members "label")
  senderIp := qt.text (qt.value members "sender_ip")
  streamName := utf8 (qt.text (qt.value members "stream_name"))

def readFrameOutput (members : Json.Members) : FrameOutputConfig where
  enabled := qt.toBool (qt.value members "enabled") false
  destinationIp := qt.text (qt.value members "destination_ip")
  localIp := qt.text (qt.value members "local_ip")
  streamName := qt.name (qt.value members "stream_name") (ascii "OBS-PROGRAM")
  format := qt.toStdString
    (qt.toText (qt.value members "format") (qt.fromStdString (ascii "JPEG")))
  adaptiveJpeg := qt.toBool (qt.value members "adaptive_jpeg") true
  port := savedPort (qt.toInt (qt.value members "port") 6980)
  maxWidth := qt.toInt (qt.value members "max_width") 1280
  maxHeight := qt.toInt (qt.value members "max_height") 720
  fps := qt.toInt (qt.value members "fps") 15
  quality := qt.toInt (qt.value members "quality") 80
  mbps := qt.toInt (qt.value members "mbps") 24

def readMouse (members : Json.Members) : MouseConfig where
  enabled := qt.toBool (qt.value members "enabled") false
  destinationIp := qt.text (qt.value members "destination_ip")
  port := savedPort (qt.toInt (qt.value members "port") 6980)
  streamName := qt.name (qt.value members "stream_name") (ascii "Command1")

/-- A return keeps its own default name. -/
def readReturn (old : ReturnConfig) (members : Json.Members) : ReturnConfig where
  enabled := qt.toBool (qt.value members "enabled") false
  destinationIp := qt.text (qt.value members "destination_ip")
  destinationPort := savedPort (qt.toInt (qt.value members "destination_port") 6980)
  streamName := qt.name (qt.value members "stream_name") old.streamName
  pcmBits := qt.toInt (qt.value members "pcm_bits") 24

/-- The loops of `read_config`: the items that are there, as far as there is room. -/
def readItems {n : Nat} {α : Type*} (items : Option Json) (old : Fin n → α)
    (read : α → Json.Members → α) : Fin n → α := fun i =>
  match (qt.toArray items)[i.val]? with
  | some item => read (old i) (qt.toObject (some item))
  | none => old i

/-- `read_config`, once the file has been parsed as an object. -/
def readDocument (root : Json.Members) (error : String) : Config × String :=
  let config : Config := {}
  if qt.toInt (qt.value root "version") 0 ≠ 1 then
    (config, "Unsupported VBAN settings version.")
  else
    let config := { config with
      commonIp := qt.toBool (qt.value root "common_ip") true
      senderIp := qt.text (qt.value root "sender_ip") }
    let port := qt.toInt (qt.value root "port") 6980
    if port < 1 ∨ port > 65535 then (config, "Saved UDP port is invalid.")
    else
      let buffer := qt.toInt (qt.value root "return_buffer_ms") defaultReturnBufferMs.toNat
      ({ config with
        port := UInt16.ofNat port.toNat
        slots := qt.readItems (qt.value root "slots") config.slots fun _ => qt.readSlot
        videos := qt.readItems (qt.value root "videos") config.videos fun _ => qt.readVideo
        frameOutput := qt.readFrameOutput (qt.toObject (qt.value root "frame_output"))
        mouseLocalIp := qt.text (qt.value root "mouse_local_ip")
        mice := qt.readItems (qt.value root "mouse_returns") config.mice fun _ => qt.readMouse
        returnBufferMs :=
          if minReturnBufferMs.toNat ≤ buffer ∧ buffer ≤ maxReturnBufferMs.toNat then
            UInt32.ofNat buffer.toNat
          else 0
        returnLocalIp :=
          qt.toStdString (qt.trimmed (qt.toText (qt.value root "return_local_ip") []))
        returns := qt.readItems (qt.value root "returns") config.returns qt.readReturn }, error)

end Qt

/-- What Qt makes of the settings file. -/
inductive SavedFile where
  | absent
  | unreadable (error : String)
  | malformed (error : String)
  | parsed (document : Json)

/-- `read_config`; `error` is what the caller's text was before, and `noError` is
Qt's text for a document without a mistake. -/
def readConfig (qt : Qt) (noError path : String) (file : SavedFile) (error : String) :
    Config × String :=
  if path = "" then ({}, "OBS module configuration path is unavailable.")
  else
    match file with
    | .absent => ({}, error)
    | .unreadable text => ({}, text)
    | .malformed text => ({}, "Could not read VBAN settings: " ++ text)
    | .parsed (.object root) => qt.readDocument root error
    | .parsed _ => ({}, "Could not read VBAN settings: " ++ noError)

/-- The bytes are well-formed UTF-8. -/
def ValidUtf8 (bytes : List UInt8) : Prop := ByteArray.IsValidUTF8 ⟨bytes.toArray⟩

theorem validUtf8_utf8 (text : String) : ValidUtf8 (utf8 text) := by
  rw [ValidUtf8, utf8, Array.toArray_toList]
  exact text.isValidUTF8

theorem utf8_injective {text other : String} (same : utf8 text = utf8 other) : text = other := by
  have bytes : text.toUTF8 = other.toUTF8 := ByteArray.ext (Array.toList_inj.mp same)
  exact String.toByteArray_inj.mp bytes

theorem savedPort_toNat (port : UInt16) : savedPort port.toNat = port := by
  have small := port.toNat_lt
  unfold savedPort
  by_cases zero : port = 0
  · simp [zero]
  · have positive : 0 < port.toNat := by
      rw [Nat.pos_iff_ne_zero]
      exact fun same => zero (UInt16.toNat_inj.mp same)
    rw [if_pos (by omega), Int.toNat_natCast, UInt16.ofNat_toNat]

/-- The value of a 32-bit `int`. -/
def IsInt (value : Int) : Prop := -2 ^ 31 ≤ value ∧ value < 2 ^ 31

instance : DecidablePred IsInt := fun value =>
  inferInstanceAs (Decidable (-2 ^ 31 ≤ value ∧ value < 2 ^ 31))

/-- What Qt's documentation says of its values: what is put in is found again, and a number
is an `int`. -/
structure Qt.Documented (qt : Qt) : Prop where
  value : ∀ (members : Json.Members) (key : String), (members.map Prod.fst).Nodup →
    qt.value members key = (members.find? fun member => member.1 == key).map Prod.snd
  toBool : ∀ value default, qt.toBool (some (.boolean value)) default = value
  toInt : ∀ value default, IsInt value → qt.toInt (some (.number value)) default = value
  isInt : ∀ value default, IsInt default → IsInt (qt.toInt value default)
  toText : ∀ text default, qt.toText (some (.text text)) default = text
  toArray : ∀ items, qt.toArray (some (.array items)) = items
  toObject : ∀ members, qt.toObject (some (.object members)) = members

/-- The string is the same after `QString::fromStdString` and `QString::toStdString`. -/
def Qt.Keeps (qt : Qt) (bytes : List UInt8) : Prop :=
  utf8 (qt.toStdString (qt.fromStdString bytes)) = bytes

/-- `QString::trimmed` finds no whitespace around the text. -/
def Qt.Bare (qt : Qt) (text : String) : Prop :=
  qt.trimmed (qt.fromStdString (utf8 text)) = qt.fromStdString (utf8 text)

instance (qt : Qt) : DecidablePred qt.Keeps := fun bytes =>
  inferInstanceAs (Decidable (utf8 (qt.toStdString (qt.fromStdString bytes)) = bytes))

instance (qt : Qt) : DecidablePred qt.Bare := fun text =>
  inferInstanceAs (Decidable (qt.trimmed (qt.fromStdString (utf8 text)) =
    qt.fromStdString (utf8 text)))

def SlotConfig.texts (slot : SlotConfig) : List (List UInt8) :=
  [utf8 slot.label, utf8 slot.senderIp, slot.streamName]

def VideoConfig.texts (video : VideoConfig) : List (List UInt8) :=
  [utf8 video.label, utf8 video.senderIp, video.streamName]

def FrameOutputConfig.texts (output : FrameOutputConfig) : List (List UInt8) :=
  [utf8 output.destinationIp, utf8 output.localIp, output.streamName, utf8 output.format]

def MouseConfig.texts (mouse : MouseConfig) : List (List UInt8) :=
  [utf8 mouse.destinationIp, mouse.streamName]

def ReturnConfig.texts (config : ReturnConfig) : List (List UInt8) :=
  [utf8 config.destinationIp, config.streamName]

/-- Every string of a configuration. -/
def Config.texts (config : Config) : List (List UInt8) :=
  [utf8 config.senderIp, utf8 config.mouseLocalIp, utf8 config.returnLocalIp] ++
    config.frameOutput.texts ++
    (List.finRange slotCount).flatMap (fun i => (config.slots i).texts) ++
    (List.finRange videoSlotCount).flatMap (fun i => (config.videos i).texts) ++
    (List.finRange videoSlotCount).flatMap (fun i => (config.mice i).texts) ++
    (List.finRange returnCount).flatMap (fun i => (config.returns i).texts)

/-- The numbers are of their types, and the port is one. -/
structure Config.Numbered (config : Config) : Prop where
  port : 1 ≤ config.port
  outputNumbers : IsInt config.frameOutput.maxWidth ∧ IsInt config.frameOutput.maxHeight ∧
    IsInt config.frameOutput.fps ∧ IsInt config.frameOutput.quality ∧
    IsInt config.frameOutput.mbps
  returnNumbers : ∀ i, IsInt (config.returns i).pcmBits

/-- The configurations that a file can hold: strings that are text, numbers of
their types, and the limits that `read_config` checks. -/
structure Config.Storable (config : Config) : Prop extends config.Numbered where
  buffer : 20 ≤ config.returnBufferMs ∧ config.returnBufferMs ≤ 200
  texts : ∀ bytes ∈ config.texts, ValidUtf8 bytes

/-- What `read_config` answers: the buffer is zero where the file has an unusable one. -/
structure Config.Readable (config : Config) : Prop extends config.Numbered where
  buffer : config.returnBufferMs = 0 ∨ 20 ≤ config.returnBufferMs ∧ config.returnBufferMs ≤ 200

theorem Config.Storable.readable {config : Config} (storable : config.Storable) :
    config.Readable :=
  ⟨storable.toNumbered, .inr storable.buffer⟩

/-- What holds of every string of a configuration holds of those of its parts. -/
theorem Config.forall_texts {config : Config} {property : List UInt8 → Prop}
    (holds : ∀ bytes ∈ config.texts, property bytes) :
    property (utf8 config.senderIp) ∧ property (utf8 config.mouseLocalIp) ∧
      property (utf8 config.returnLocalIp) ∧
      (∀ bytes ∈ config.frameOutput.texts, property bytes) ∧
      (∀ i, ∀ bytes ∈ (config.slots i).texts, property bytes) ∧
      (∀ i, ∀ bytes ∈ (config.videos i).texts, property bytes) ∧
      (∀ i, ∀ bytes ∈ (config.mice i).texts, property bytes) ∧
      ∀ i, ∀ bytes ∈ (config.returns i).texts, property bytes := by
  simp only [Config.texts, List.forall_mem_append, List.forall_mem_cons, List.mem_flatMap,
    List.mem_finRange, true_and, forall_exists_index] at holds
  obtain ⟨⟨⟨⟨⟨⟨sender, mouseLocal, returnLocal, _⟩, output⟩, slots⟩, videos⟩, mice⟩, returns⟩ :=
    holds
  exact ⟨sender, mouseLocal, returnLocal, output, fun i bytes member => slots bytes i member,
    fun i bytes member => videos bytes i member, fun i bytes member => mice bytes i member,
    fun i bytes member => returns bytes i member⟩

namespace Qt

variable {qt : Qt}

theorem name_saved (documented : qt.Documented) {bytes : List UInt8} (kept : qt.Keeps bytes)
    (default : StreamName) : qt.name (some (Config.saved qt bytes)) default = bytes := by
  rw [name, Config.saved, documented.toText]
  exact kept

theorem text_saved (documented : qt.Documented) {text : String} (kept : qt.Keeps (utf8 text)) :
    qt.text (some (Config.saved qt (utf8 text))) = text := by
  rw [Qt.text, Config.saved, documented.toText]
  exact utf8_injective kept

theorem streamName_saved (documented : qt.Documented) {bytes : List UInt8}
    (kept : qt.Keeps bytes) : utf8 (qt.text (some (Config.saved qt bytes))) = bytes := by
  rw [Qt.text, Config.saved, documented.toText]
  exact kept

theorem readSlot_document (documented : qt.Documented) {slot : SlotConfig}
    (kept : ∀ bytes ∈ slot.texts, qt.Keeps bytes) :
    qt.readSlot (qt.toObject (some (Config.slotDocument qt slot))) = slot := by
  simp only [SlotConfig.texts, List.forall_mem_cons] at kept
  obtain ⟨label, sender, name, _⟩ := kept
  rw [Config.slotDocument, documented.toObject]
  simp [readSlot, documented.value, documented.toBool, text_saved documented label,
    text_saved documented sender, streamName_saved documented name]

theorem readVideo_document (documented : qt.Documented) {video : VideoConfig}
    (kept : ∀ bytes ∈ video.texts, qt.Keeps bytes) :
    qt.readVideo (qt.toObject (some (Config.videoDocument qt video))) = video := by
  simp only [VideoConfig.texts, List.forall_mem_cons] at kept
  obtain ⟨label, sender, name, _⟩ := kept
  rw [Config.videoDocument, documented.toObject]
  simp [readVideo, documented.value, documented.toBool, text_saved documented label,
    text_saved documented sender, streamName_saved documented name]

theorem savedPort_document (documented : qt.Documented) (port : UInt16) (default : Int) :
    savedPort (qt.toInt (some (.number port.toNat)) default) = port := by
  have small := port.toNat_lt
  rw [documented.toInt _ _ ⟨by omega, by omega⟩, savedPort_toNat]

theorem readMouse_document (documented : qt.Documented) {mouse : MouseConfig}
    (kept : ∀ bytes ∈ mouse.texts, qt.Keeps bytes) :
    qt.readMouse (qt.toObject (some (Config.mouseDocument qt mouse))) = mouse := by
  simp only [MouseConfig.texts, List.forall_mem_cons] at kept
  obtain ⟨destination, name, _⟩ := kept
  rw [Config.mouseDocument, documented.toObject]
  simp [readMouse, documented.value, documented.toBool, text_saved documented destination,
    name_saved documented name, savedPort_document documented]

theorem readReturn_document (documented : qt.Documented) {config : ReturnConfig}
    (old : ReturnConfig) (kept : ∀ bytes ∈ config.texts, qt.Keeps bytes)
    (bits : IsInt config.pcmBits) :
    qt.readReturn old (qt.toObject (some (Config.returnDocument qt config))) = config := by
  simp only [ReturnConfig.texts, List.forall_mem_cons] at kept
  obtain ⟨destination, name, _⟩ := kept
  rw [Config.returnDocument, documented.toObject]
  simp [readReturn, documented.value, documented.toBool, text_saved documented destination,
    name_saved documented name, savedPort_document documented, documented.toInt _ _ bits]

theorem format_saved (documented : qt.Documented) {text : String} (kept : qt.Keeps (utf8 text))
    (default : QString) :
    qt.toStdString (qt.toText (some (Config.saved qt (utf8 text))) default) = text := by
  rw [Config.saved, documented.toText]
  exact utf8_injective kept

theorem readFrameOutput_document (documented : qt.Documented) {output : FrameOutputConfig}
    (kept : ∀ bytes ∈ output.texts, qt.Keeps bytes)
    (numbers : IsInt output.maxWidth ∧ IsInt output.maxHeight ∧ IsInt output.fps ∧
      IsInt output.quality ∧ IsInt output.mbps) :
    qt.readFrameOutput (qt.toObject (some (Config.frameOutputDocument qt output))) = output := by
  obtain ⟨width, height, fps, quality, mbps⟩ := numbers
  simp only [FrameOutputConfig.texts, List.forall_mem_cons] at kept
  obtain ⟨destination, sender, name, format, _⟩ := kept
  rw [Config.frameOutputDocument, documented.toObject]
  simp [readFrameOutput, documented.value, documented.toBool, text_saved documented destination,
    text_saved documented sender, name_saved documented name, format_saved documented format,
    savedPort_document documented, documented.toInt _ _ width, documented.toInt _ _ height,
    documented.toInt _ _ fps, documented.toInt _ _ quality, documented.toInt _ _ mbps]

theorem readItems_document (documented : qt.Documented) {n : Nat} {α : Type*} {values : Fin n → α}
    {document : α → Json} {read : α → Json.Members → α} {old : Fin n → α}
    (inverse : ∀ i, read (old i) (qt.toObject (some (document (values i)))) = values i) :
    qt.readItems (some (.array ((List.finRange n).map fun i => document (values i)))) old read =
      values := by
  funext i
  simp [readItems, documented.toArray, inverse]

/-- Every key that `read_config` looks up has been written. -/
theorem found_members (documented : qt.Documented) (config : Config) {key : String} {found : Json}
    (written : ((config.members qt).find? fun member => member.1 == key).map Prod.snd =
      some found) : qt.value (config.members qt) key = some found := by
  have keys : (config.members qt).map Prod.fst =
      ["version", "common_ip", "sender_ip", "port", "slots", "returns", "videos", "frame_output",
        "mouse_returns", "mouse_local_ip", "return_local_ip", "return_buffer_ms"] := rfl
  rw [documented.value _ _ (keys ▸ by decide), written]

end Qt

theorem toInt32_toInt {value : UInt32} (small : value.toNat < 2 ^ 31) :
    value.toInt32.toInt = value.toNat := by
  simp only [Int32.toInt, UInt32.toBitVec_toInt32, BitVec.toInt, UInt32.toNat_toBitVec]
  omega

/-- A zero buffer is saved as it is, and read as the unusable value it stands for. -/
theorem savedBuffer_document {qt : Qt} (documented : qt.Documented) {buffer : UInt32}
    (usable : buffer = 0 ∨ 20 ≤ buffer ∧ buffer ≤ 200) :
    (if minReturnBufferMs.toNat ≤
          qt.toInt (some (.number buffer.toInt32.toInt)) defaultReturnBufferMs.toNat ∧
        qt.toInt (some (.number buffer.toInt32.toInt)) defaultReturnBufferMs.toNat ≤
          maxReturnBufferMs.toNat then
      UInt32.ofNat
        (qt.toInt (some (.number buffer.toInt32.toInt)) defaultReturnBufferMs.toNat).toNat
    else 0) = buffer := by
  have small : buffer.toNat ≤ 200 := by
    obtain rfl | ⟨_, high⟩ := usable
    · decide
    · exact UInt32.le_iff_toNat_le.mp high
  rw [toInt32_toInt (by omega), documented.toInt _ _ ⟨by omega, by omega⟩]
  obtain rfl | ⟨low, high⟩ := usable
  · decide
  · have low := UInt32.le_iff_toNat_le.mp low
    have high := UInt32.le_iff_toNat_le.mp high
    rw [if_pos ⟨by exact_mod_cast low, by exact_mod_cast high⟩, Int.toNat_natCast,
      UInt32.ofNat_toNat]

/-- Reading the document of a configuration, key by key. -/
theorem readConfig_document {qt : Qt} (documented : qt.Documented) (noError : String)
    {path : String} (available : path ≠ "") (error : String) {config : Config}
    (readable : config.Readable) (kept : ∀ bytes ∈ config.texts, qt.Keeps bytes)
    (bare : qt.Bare config.returnLocalIp) :
    readConfig qt noError path (.parsed (config.document qt)) error = (config, error) := by
  obtain ⟨sender, mouseLocal, returnLocal, output, slots, videos, mice, returns⟩ :=
    Config.forall_texts kept
  have small := config.port.toNat_lt
  have positive := UInt16.le_iff_toNat_le.mp readable.port
  simp only [UInt16.reduceToNat] at positive
  have portRead : qt.toInt (some (.number config.port.toNat)) 6980 = config.port.toNat :=
    documented.toInt _ _ ⟨by omega, by omega⟩
  have versionRead : qt.toInt (some (.number 1)) 0 = 1 := documented.toInt _ _ (by decide)
  have localRead : qt.toStdString (qt.trimmed (qt.fromStdString (utf8 config.returnLocalIp))) =
      config.returnLocalIp := by
    rw [bare]
    exact utf8_injective returnLocal
  have look {key : String} {found : Json} := @Qt.found_members qt documented config key found
  simp only [readConfig, if_neg available, Config.document, Qt.readDocument, @look "version" _ rfl,
    @look "common_ip" _ rfl, @look "sender_ip" _ rfl, @look "port" _ rfl, @look "slots" _ rfl,
    @look "videos" _ rfl, @look "frame_output" _ rfl, @look "mouse_local_ip" _ rfl,
    @look "mouse_returns" _ rfl, @look "return_buffer_ms" _ rfl, @look "return_local_ip" _ rfl,
    @look "returns" _ rfl, portRead, versionRead, savedBuffer_document documented readable.buffer]
  rw [if_neg (not_not.mpr rfl), if_neg (by omega), Int.toNat_natCast, UInt16.ofNat_toNat,
    Qt.readItems_document documented fun i => Qt.readSlot_document documented (slots i),
    Qt.readItems_document documented fun i => Qt.readVideo_document documented (videos i),
    Qt.readFrameOutput_document documented output readable.outputNumbers,
    Qt.readItems_document documented fun i => Qt.readMouse_document documented (mice i),
    Qt.readItems_document documented fun i =>
      Qt.readReturn_document documented _ (returns i) (readable.returnNumbers i)]
  rw [Qt.text_saved documented sender, Qt.text_saved documented mouseLocal]
  simp only [documented.toBool, Config.saved, documented.toText, localRead]

/-- What a successful save has written reads back as the same configuration, and
the caller's error text stays as it was. -/
theorem saved_settings_reload {Picture : Type*} {a : ApplyAnswers} {config : Config}
    (documented : a.qt.Documented) (storable : config.Storable)
    (lossless : ∀ bytes ∈ config.texts, ValidUtf8 bytes → a.qt.Keeps bytes)
    (bare : a.qt.Bare config.returnLocalIp) {s after : Plugin Picture}
    (saved : Plugin.writeConfig a config s = (.ok (), after)) (noError : String) {path : String}
    (available : path ≠ "") (error : String) :
    ∃ document, after.file = some document ∧
      readConfig a.qt noError path (.parsed document) error = (config, error) := by
  obtain rfl := Plugin.writeConfig_ok saved
  have kept : ∀ bytes ∈ config.texts, a.qt.Keeps bytes := fun bytes member =>
    lossless bytes member (storable.texts bytes member)
  exact ⟨_, rfl,
    readConfig_document documented noError available error storable.readable kept bare⟩

/-- Settings away from the defaults. -/
def keptConfig : Config :=
  { Plugin.shownConfig with
    port := 6981
    frameOutput := { format := "PNG", port := 0, fps := 30, quality := -1 }
    returns := fun i => { enabled := i.val == 1, streamName := ascii "Desk", pcmBits := 16 }
    returnBufferMs := 120
    returnLocalIp := "192.168.1.2" }

theorem asciiQt_documented : asciiQt.Documented where
  value _ _ _ := rfl
  toBool _ _ := rfl
  toInt _ _ narrow := if_pos narrow
  isInt value default narrow := by
    simp only [asciiQt]
    split
    · split
      · assumption
      · exact narrow
    · exact narrow
  toText _ _ := rfl
  toArray _ := rfl
  toObject _ := rfl

theorem keptConfig_kept : ∀ bytes ∈ keptConfig.texts, asciiQt.Keeps bytes := by decide +kernel

theorem keptConfig_storable : keptConfig.Storable where
  port := by decide
  outputNumbers := by decide
  returnNumbers := by decide
  buffer := by decide
  texts bytes member := keptConfig_kept bytes member ▸ validUtf8_utf8 _

theorem saved_settings_reload_kept :
    ∃ document, (Plugin.writeConfig (Plugin.shownAnswers none) keptConfig
        ({} : Plugin Unit)).2.file = some document ∧
      readConfig asciiQt "no error occurred" "settings.json" (.parsed document) "" =
        (keptConfig, "") :=
  saved_settings_reload asciiQt_documented keptConfig_storable
    (fun bytes member _ => keptConfig_kept bytes member)
    (by decide +kernel : asciiQt.Bare keptConfig.returnLocalIp)
    (show Plugin.writeConfig (Plugin.shownAnswers none) keptConfig ({} : Plugin Unit) =
      (.ok (), _) from rfl) "no error occurred" (by decide) ""

end VbanStream
