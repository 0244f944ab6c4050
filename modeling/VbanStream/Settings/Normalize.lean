import VbanStream.Settings.Reload

namespace VbanStream

open Library

/-- What holds of the old items and of everything read holds of the items. -/
theorem Qt.readItems_all {qt : Qt} {n : Nat} {α : Type*} {items : Option Json} {old : Fin n → α}
    {read : α → Json.Members → α} (property : α → Prop) (before : ∀ i, property (old i))
    (made : ∀ i members, property (read (old i) members)) (i : Fin n) :
    property (qt.readItems items old read i) := by
  unfold Qt.readItems
  split
  · exact made i _
  · exact before i

/-- The defaults are readable, whatever the common sender is. -/
theorem readable_defaults (commonIp : Bool) (senderIp : String) :
    ({ commonIp, senderIp } : Config).Readable where
  port := (by decide : (1 : UInt16) ≤ 6980)
  buffer := .inr (by decide : (20 : UInt32) ≤ 60 ∧ (60 : UInt32) ≤ 200)
  outputNumbers := (by decide : IsInt 1280 ∧ IsInt 720 ∧ IsInt 15 ∧ IsInt 80 ∧ IsInt 24)
  returnNumbers := fun i => by
    fin_cases i
    · exact (by decide : IsInt 24)
    · exact (by decide : IsInt 24)

theorem readDocument_readable {qt : Qt} (documented : qt.Documented) (root : Json.Members)
    (error : String) : (qt.readDocument root error).1.Readable := by
  have defaults : ({} : Config).Readable := readable_defaults true ""
  have narrow {default : Int} (small : IsInt default) (value : Option Json) :
      IsInt (qt.toInt value default) := documented.isInt value default small
  unfold Qt.readDocument
  dsimp only
  split
  · exact readable_defaults _ _
  · split
    · exact readable_defaults _ _
    · rename_i port
      refine ⟨⟨?_, ?_, ?_⟩, ?_⟩
      · rw [UInt16.le_iff_toNat_le,
          UInt16.toNat_ofNat_of_lt' (by simp only [UInt16.size]; omega)]
        simp only [UInt16.reduceToNat]
        omega
      · exact ⟨narrow (by decide) _, narrow (by decide) _, narrow (by decide) _,
          narrow (by decide) _, narrow (by decide) _⟩
      · exact Qt.readItems_all (fun config : ReturnConfig => IsInt config.pcmBits)
          defaults.returnNumbers fun _ _ => narrow (by decide) _
      · dsimp only
        split
        · rename_i usable
          right
          simp only [minReturnBufferMs, maxReturnBufferMs, UInt32.reduceToNat] at usable
          rw [UInt32.le_iff_toNat_le, UInt32.le_iff_toNat_le,
            UInt32.toNat_ofNat_of_lt' (by simp only [UInt32.size]; omega)]
          simp only [UInt32.reduceToNat]
          omega
        · exact .inl rfl

theorem readConfig_readable {qt : Qt} (documented : qt.Documented) (noError path : String)
    (file : SavedFile) (error : String) :
    (readConfig qt noError path file error).1.Readable := by
  have defaults : ({} : Config).Readable := readable_defaults true ""
  unfold readConfig
  split
  · exact defaults
  · cases file with
    | absent => exact defaults
    | unreadable text => exact defaults
    | malformed text => exact defaults
    | parsed document =>
      cases document with
      | object root => exact readDocument_readable documented root error
      | null | boolean | number | double | text | array => exact defaults

/-- A refused file leaves the defaults, but for what was read of the common sender. -/
theorem readConfig_refused {qt : Qt} {noError path : String} {file : SavedFile} {error : String}
    (refused : (readConfig qt noError path file error).2 ≠ error) :
    ∃ commonIp senderIp,
      (readConfig qt noError path file error).1 = { commonIp, senderIp } := by
  have defaults : ∃ commonIp senderIp, ({} : Config) = { commonIp, senderIp } :=
    ⟨true, "", rfl⟩
  revert refused
  unfold readConfig
  split
  · exact fun _ => defaults
  · cases file with
    | absent => exact fun _ => defaults
    | unreadable text => exact fun _ => defaults
    | malformed text => exact fun _ => defaults
    | parsed document =>
      cases document with
      | object root =>
        unfold Qt.readDocument
        dsimp only
        split
        · exact fun _ => defaults
        · split
          · exact fun _ => ⟨_, _, rfl⟩
          · exact fun refused => absurd rfl refused
      | null | boolean | number | double | text | array => exact fun _ => defaults

/-- Whatever stands in the file, what is read of it can be saved and reads back as it is, if its
strings survive Qt's conversions: one reading settles the settings. A file that is refused gives
no more than the defaults. -/
theorem read_settings_settle {Picture : Type*} {a : ApplyAnswers} (documented : a.qt.Documented)
    {noError path : String} {file : SavedFile} {error : String} {config : Config} {answer : String}
    (read : readConfig a.qt noError path file error = (config, answer))
    (kept : ∀ bytes ∈ config.texts, a.qt.Keeps bytes) (bare : a.qt.Bare config.returnLocalIp)
    {s after : Plugin Picture} (saved : Plugin.writeConfig a config s = (.ok (), after)) :
    (∃ document, after.file = some document ∧ ∀ again, again ≠ "" → ∀ text,
        readConfig a.qt noError again (.parsed document) text = (config, text)) ∧
      (answer ≠ error → ∃ commonIp senderIp, config = { commonIp, senderIp }) := by
  have readable : config.Readable := by
    have readable := readConfig_readable documented noError path file error
    rwa [read] at readable
  obtain rfl := Plugin.writeConfig_ok saved
  refine ⟨⟨_, rfl, fun again available text =>
    readConfig_document documented noError available text readable kept bare⟩, fun refused => ?_⟩
  have answered : (readConfig a.qt noError path file error).2 ≠ error := by rwa [read]
  have defaults := readConfig_refused answered
  rwa [read] at defaults

/-- A file that another program has edited: a port and a buffer out of range, a fraction, and
spaces around an address. -/
def editedFile : SavedFile :=
  .parsed (.object [("version", .number 1), ("port", .number 7000),
    ("mouse_returns", .array [.object [("port", .number 70000)]]),
    ("frame_output", .object [("fps", .double 0x401E000000000000)]),
    ("return_buffer_ms", .number 500),
    ("return_local_ip", .text (asciiQt.fromStdString (ascii " 10.0.0.1\t")))])

def editedConfig : Config :=
  (readConfig asciiQt "no error occurred" "settings.json" editedFile "").1

example : editedConfig.port = 7000 ∧ (editedConfig.mice 0).port = 0 ∧
    editedConfig.returnBufferMs = 0 ∧ editedConfig.returnLocalIp = "10.0.0.1" := by decide +kernel

theorem read_settings_settle_edited :
    (∃ document, (Plugin.writeConfig (Plugin.shownAnswers none) editedConfig
        ({} : Plugin Unit)).2.file = some document ∧ ∀ again, again ≠ "" → ∀ text,
        readConfig asciiQt "no error occurred" again (.parsed document) text =
          (editedConfig, text)) ∧
      ("" ≠ "" → ∃ commonIp senderIp, editedConfig = { commonIp, senderIp }) := by
  have read : readConfig (Plugin.shownAnswers none).qt "no error occurred" "settings.json"
    editedFile "" = (editedConfig, "") := rfl
  have saved : Plugin.writeConfig (Plugin.shownAnswers none) editedConfig ({} : Plugin Unit) =
    (.ok (), (Plugin.writeConfig (Plugin.shownAnswers none) editedConfig {}).2) := rfl
  have kept : ∀ bytes ∈ editedConfig.texts, asciiQt.Keeps bytes := by decide +kernel
  have bare : asciiQt.Bare editedConfig.returnLocalIp := by decide +kernel
  exact read_settings_settle asciiQt_documented read kept bare saved

end VbanStream
