import VbanStream.Protocol.Network

/-! The program output: what `prepare` checks before a session may send OBS
pictures, and how a prepared session takes over. -/

namespace VbanStream

open Library

inductive ColourSpace where
  | sdr | pq2100 | hlg2100
deriving DecidableEq, Repr

structure ObsVideoInfo where
  colourSpace : ColourSpace
  outputWidth : UInt32
  outputHeight : UInt32

/-- A session of `FrameSender`, with its socket connected. -/
structure OutputSession where
  config : FrameOutputConfig
  socket : Option Nat := none
  width : Nat := 0
  height : Nat := 0
  localIp : String := ""

structure ProgramOutput where
  active : Option OutputSession := none
  connected : Bool := false

namespace FrameSender

/-- The settings of a session that can be sent. -/
def supported (config : FrameOutputConfig) : Bool :=
  validStreamName config.streamName && config.port != 0 &&
    (config.format == "JPEG" || config.format == "PNG") &&
    1 ≤ config.fps && config.fps ≤ 30 && 1 ≤ config.quality && config.quality ≤ 100 &&
    [6, 12, 24, 48, 84].contains config.mbps &&
    [(640, 360), (1280, 720), (1920, 1080)].contains (config.maxWidth, config.maxHeight)

/-- `scaled` is the picture size in the double arithmetic of the source. -/
def prepare (parse : Parse) (adapters : Adapters) (answers : SocketAnswers)
    (scaled : FrameOutputConfig → UInt32 → UInt32 → Nat × Nat) (config : FrameOutputConfig)
    (sourceWidth sourceHeight : UInt32) : Except String OutputSession :=
  if config.enabled = false then .ok { config }
  else if sourceWidth = 0 ∨ sourceHeight = 0 ∨ supported config = false then
    .error ("OBS to VBAN Frame: invalid stream, image format, resolution, rate or network " ++
      "limit.")
  else if ((parse config.destinationIp).any unicast) = false then
    .error "OBS to VBAN Frame: enter the receiving computer's unicast IPv4 address."
  else
    match answers.created, answers.quiet with
    | some socket, true =>
      match selectAdapter adapters config.localIp true
          "OBS to VBAN Frame: selected local adapter is unavailable." with
      | .error message => .error message
      | .ok interface =>
        if config.localIp ≠ "" ∧ answers.bindsTo parse config.localIp interface = false then
          .error "OBS to VBAN Frame: selected local adapter is unavailable."
        else if answers.connects = false then
          .error "OBS to VBAN Frame: cannot select destination route."
        else
          let (width, height) := scaled config sourceWidth sourceHeight
          .ok {
            config
            socket := some socket
            width := max 1 width
            height := max 1 height
            localIp := (answers.endpoint.map Prod.fst).getD "" }
    | _, _ => .error "OBS to VBAN Frame: cannot create UDP socket."

/-- Errors say something, and a session has the settings it was asked for. -/
theorem prepare_meets (parse : Parse) (adapters : Adapters) (answers : SocketAnswers)
    (scaled : FrameOutputConfig → UInt32 → UInt32 → Nat × Nat) (config : FrameOutputConfig)
    (width height : UInt32) :
    Meets (· ≠ "") (fun session => session.config = config)
      (prepare parse adapters answers scaled config width height) := by
  refine meets_ite rfl ?_
  refine meets_ite (by simp [Meets]) ?_
  refine meets_ite (by simp [Meets]) ?_
  split
  · split
    · rename_i message failed
      exact (selectAdapter_meets _ _ _ (by simp)).error failed
    · exact meets_ite (by simp [Meets]) (meets_ite (by simp [Meets]) rfl)
  · simp [Meets]

end FrameSender

namespace ProgramOutput

/-- A session for the pictures that OBS makes now. -/
def prepare (parse : Parse) (adapters : Adapters) (answers : SocketAnswers)
    (scaled : FrameOutputConfig → UInt32 → UInt32 → Nat × Nat) (video : Option ObsVideoInfo)
    (config : FrameOutputConfig) : Except String OutputSession :=
  if config.enabled then
    match video with
    | none => .error "OBS to VBAN Frame: OBS video is not ready."
    | some info =>
      if info.colourSpace ≠ .sdr then
        .error "OBS to VBAN Frame currently requires an SDR OBS video colour space."
      else
        FrameSender.prepare parse adapters answers scaled config info.outputWidth info.outputHeight
  else FrameSender.prepare parse adapters answers scaled config 0 0

/-- The callback is installed while there are pictures to send. -/
def activate (_ : ProgramOutput) (next : OutputSession) : ProgramOutput :=
  { active := some next, connected := next.width ≠ 0 && next.height ≠ 0 }

theorem prepare_meets (parse : Parse) (adapters : Adapters) (answers : SocketAnswers)
    (scaled : FrameOutputConfig → UInt32 → UInt32 → Nat × Nat) (video : Option ObsVideoInfo)
    (config : FrameOutputConfig) :
    Meets (· ≠ "") (fun session => session.config = config)
      (prepare parse adapters answers scaled video config) := by
  refine meets_ite ?_ (FrameSender.prepare_meets ..)
  cases video with
  | none => simp [Meets]
  | some info => exact meets_ite (by simp [Meets]) (FrameSender.prepare_meets ..)

end ProgramOutput

end VbanStream
