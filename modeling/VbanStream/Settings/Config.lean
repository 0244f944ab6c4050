import VbanStream.Protocol.Audio

/-! The settings, as the headers declare them, with their defaults. Stream names
are the bytes that travel on the wire; other texts stay strings. -/

namespace VbanStream

/-- The bytes of an ASCII text. -/
def ascii (text : String) : List UInt8 := text.toList.map fun c => UInt8.ofNat c.toNat

abbrev videoSlotCount : Nat := 2
abbrev returnCount : Nat := 2

structure SlotConfig where
  enabled : Bool := false
  label : String := ""
  senderIp : String := ""
  streamName : StreamName := []
deriving DecidableEq, Repr

structure VideoConfig where
  enabled : Bool := false
  label : String := ""
  senderIp : String := ""
  streamName : StreamName := []
deriving DecidableEq, Repr

/-- The comparison of `VideoConfig::operator==`: the label is not part of it. -/
def VideoConfig.same (config other : VideoConfig) : Bool :=
  config.enabled == other.enabled && config.senderIp == other.senderIp &&
    config.streamName == other.streamName

structure FrameOutputConfig where
  enabled : Bool := false
  adaptiveJpeg : Bool := true
  destinationIp : String := ""
  localIp : String := ""
  streamName : StreamName := ascii "OBS-PROGRAM"
  format : String := "JPEG"
  port : UInt16 := 6980
  maxWidth : Int := 1280
  maxHeight : Int := 720
  fps : Int := 15
  quality : Int := 80
  mbps : Int := 24
deriving DecidableEq, Repr

structure MouseConfig where
  enabled : Bool := false
  destinationIp : String := ""
  port : UInt16 := 6980
  streamName : StreamName := ascii "Command1"
deriving DecidableEq, Repr

structure ReturnConfig where
  enabled : Bool := false
  destinationIp : String := ""
  destinationPort : UInt16 := 6980
  streamName : StreamName := []
  pcmBits : Int := 24
deriving DecidableEq, Repr

def defaultReturns : Fin returnCount → ReturnConfig :=
  ![{ streamName := ascii "OBSRETURN1" }, { streamName := ascii "OBSRETURN2" }]

def defaultReturnBufferMs : UInt32 := 60
def minReturnBufferMs : UInt32 := 20
def maxReturnBufferMs : UInt32 := 200

structure Config where
  commonIp : Bool := true
  senderIp : String := ""
  port : UInt16 := 6980
  slots : Fin slotCount → SlotConfig := fun _ => {}
  videos : Fin videoSlotCount → VideoConfig := fun _ => {}
  frameOutput : FrameOutputConfig := {}
  mice : Fin videoSlotCount → MouseConfig := fun _ => {}
  mouseLocalIp : String := ""
  returns : Fin returnCount → ReturnConfig := defaultReturns
  returnBufferMs : UInt32 := defaultReturnBufferMs
  returnLocalIp : String := ""
deriving DecidableEq

/-- The sender that a slot listens to. -/
def Config.ip (config : Config) (slot : Fin slotCount) : String :=
  if config.commonIp then config.senderIp else (config.slots slot).senderIp

end VbanStream
