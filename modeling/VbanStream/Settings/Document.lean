import VbanStream.Settings.Config

/-! The settings file: the document that `write_config` builds from a
configuration. Qt's own conversions are left open, and so is the text of the file. -/

namespace VbanStream

/-- The UTF-16 code units of a `QString`. -/
abbrev QString := List UInt16

/-- A `QJsonValue`; a number that is no integer is given by its bits. -/
inductive Json where
  | null
  | boolean (value : Bool)
  | number (value : Int)
  | double (bits : UInt64)
  | text (value : QString)
  | array (items : List Json)
  | object (members : List (String × Json))

/-- The members of a `QJsonObject`. -/
abbrev Json.Members := List (String × Json)

/-- What `read_config` and `write_config` use of Qt; an absent value is undefined, and each
conversion of a value is given the default for another type. -/
structure Qt where
  fromStdString : List UInt8 → QString
  toStdString : QString → String
  trimmed : QString → QString
  value : Json.Members → String → Option Json
  toBool : Option Json → Bool → Bool
  toInt : Option Json → Int → Int
  toText : Option Json → QString → QString
  toArray : Option Json → List Json
  toObject : Option Json → Json.Members

/-- The bytes of a `std::string`. -/
def utf8 (text : String) : List UInt8 := text.toUTF8.data.toList

namespace Config

variable (qt : Qt)

/-- The value of a `std::string`, put through `QString::fromStdString`. -/
def saved (bytes : List UInt8) : Json := .text (qt.fromStdString bytes)

def slotDocument (slot : SlotConfig) : Json :=
  .object [("enabled", .boolean slot.enabled), ("label", saved qt (utf8 slot.label)),
    ("sender_ip", saved qt (utf8 slot.senderIp)), ("stream_name", saved qt slot.streamName)]

def videoDocument (video : VideoConfig) : Json :=
  .object [("enabled", .boolean video.enabled), ("label", saved qt (utf8 video.label)),
    ("sender_ip", saved qt (utf8 video.senderIp)), ("stream_name", saved qt video.streamName)]

def mouseDocument (mouse : MouseConfig) : Json :=
  .object [("enabled", .boolean mouse.enabled),
    ("destination_ip", saved qt (utf8 mouse.destinationIp)), ("port", .number mouse.port.toNat),
    ("stream_name", saved qt mouse.streamName)]

def returnDocument (config : ReturnConfig) : Json :=
  .object [("enabled", .boolean config.enabled),
    ("destination_ip", saved qt (utf8 config.destinationIp)),
    ("destination_port", .number config.destinationPort.toNat),
    ("stream_name", saved qt config.streamName), ("pcm_bits", .number config.pcmBits)]

def frameOutputDocument (output : FrameOutputConfig) : Json :=
  .object [("enabled", .boolean output.enabled),
    ("destination_ip", saved qt (utf8 output.destinationIp)),
    ("local_ip", saved qt (utf8 output.localIp)), ("port", .number output.port.toNat),
    ("stream_name", saved qt output.streamName), ("format", saved qt (utf8 output.format)),
    ("adaptive_jpeg", .boolean output.adaptiveJpeg), ("max_width", .number output.maxWidth),
    ("max_height", .number output.maxHeight), ("fps", .number output.fps),
    ("quality", .number output.quality), ("mbps", .number output.mbps)]

/-- The members of the document of `write_config`. -/
def members (config : Config) : Json.Members :=
  [("version", .number 1), ("common_ip", .boolean config.commonIp),
    ("sender_ip", saved qt (utf8 config.senderIp)), ("port", .number config.port.toNat),
    ("slots", .array ((List.finRange slotCount).map fun i => slotDocument qt (config.slots i))),
    ("returns", .array ((List.finRange returnCount).map fun i =>
      returnDocument qt (config.returns i))),
    ("videos", .array ((List.finRange videoSlotCount).map fun i =>
      videoDocument qt (config.videos i))),
    ("frame_output", frameOutputDocument qt config.frameOutput),
    ("mouse_returns", .array ((List.finRange videoSlotCount).map fun i =>
      mouseDocument qt (config.mice i))),
    ("mouse_local_ip", saved qt (utf8 config.mouseLocalIp)),
    ("return_local_ip", saved qt (utf8 config.returnLocalIp)),
    ("return_buffer_ms", .number config.returnBufferMs.toInt32.toInt)]

def document (config : Config) : Json := .object (members qt config)

end Config

end VbanStream
