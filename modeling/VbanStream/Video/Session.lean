import VbanStream.Library.Run
import VbanStream.Video.FrameSender
import VbanStream.Video.ProgramOutput

/-! A session of the frame sender. The producer stores Program pictures, the encode worker
turns the newest one into an image, and the transmit worker sends the image that is ready.
The mutex is held over several steps only while a picture is copied. -/

namespace VbanStream

open Library

namespace FrameSender

/-- What one call of the image writer comes to. -/
inductive Written where
  | image (encoded : List UInt8)
  | refused (message : String)
  | threw (message : String)
deriving DecidableEq, Repr

structure EncodedFrame where
  bytes : List UInt8
  captured : UInt64
  quality : Int
deriving DecidableEq, Repr

/-- The picture the encode worker took: its buffer and the time of its capture. -/
structure Job where
  index : Fin 3
  captured : UInt64
deriving DecidableEq, Repr

/-- Where the producer is. It holds the mutex while it copies the rows of a picture. -/
inductive Producer where
  | outside
  | copying (index : Fin 3) (rgba : Memory) (stride : UInt32) (row : Nat)

/-- Where the encode worker is in `run`. Buffers are read row by row, without the mutex. -/
inductive Worker where
  | waiting
  | comparing (job : Job) (previous : Fin 3) (row : Nat)
  | unchanged (job : Job)
  | reading (job : Job) (quality : Int) (retry : Nat) (seen : List UInt8) (row : Nat)
  | judging (job : Job) (quality : Int) (retry : Nat) (encoded : List UInt8)
  | deciding (job : Job) (quality : Int) (encoded : List UInt8)
  | queueing (job : Job) (encoded : List UInt8) (quality : Int) (fresh : Bool)
  | settling (job : Job) (remember : Bool)
  | finished
deriving DecidableEq, Repr

/-- Where the transmit worker is in `send_loop`. -/
inductive Transmitter where
  | waiting
  | sending (frame : EncodedFrame)
  | finished
deriving DecidableEq, Repr

structure Session where
  output : OutputSession
  sequence : UInt32
  pixels : Fin 3 → Memory := fun _ _ => 0
  capturedAt : Fin 3 → UInt64 := fun _ => 0
  pending : Option (Fin 3) := none
  busy : Option (Fin 3) := none
  previous : Option (Fin 3) := none
  ready : Option EncodedFrame := none
  stop : Bool := false
  frames : Nat := 0
  dropped : Nat := 0
  errors : Nat := 0
  unchanged : Nat := 0
  error : String := ""
  jpegQuality : Int := 0
  previousEncoded : List UInt8 := []
  adaptiveQuality : Int
  previousQuality : Int := 0
  lastQueuedAt : UInt64 := 0
  nextTimestamp : UInt64 := 0
  previousTimestamp : UInt64 := 0
  producer : Producer := .outside
  worker : Worker := .waiting
  transmitter : Transmitter := .waiting

/-- What a step shows of the way of the pictures. -/
inductive Event where
  | replaced (index : Fin 3)
  | stored (index : Fin 3) (picture : List UInt8)
  | encoded (index : Fin 3) (pixels : List UInt8) (quality : Int) (bytes : List UInt8)
  | failed (index : Fin 3)
  | kept (index : Fin 3)
  | queued (index : Fin 3) (bytes : List UInt8)
  | picked (bytes : List UInt8)
  | handed (bytes : List UInt8)

/-- The pixels of a picture in the memory of the caller, as far as a row. -/
def picture (rgba : Memory) (stride : UInt32) (width rows : Nat) : List UInt8 :=
  (List.range rows).flatMap fun row => rgba.read (row * stride.toNat) (width * 4)

namespace Session

def start (output : OutputSession) (sequence : UInt32) : Session :=
  { output, sequence, adaptiveQuality := output.config.quality }

def rowBytes (s : Session) : Nat := s.output.width * 4

/-- One row of a buffer. -/
def row (s : Session) (index : Fin 3) (row : Nat) : List UInt8 :=
  (s.pixels index).read (row * s.rowBytes) s.rowBytes

/-- The rows of a buffer before `rows`. -/
def upTo (s : Session) (index : Fin 3) (rows : Nat) : List UInt8 :=
  (s.pixels index).read 0 (rows * s.rowBytes)

/-- All pixels of a buffer. -/
def whole (s : Session) (index : Fin 3) : List UInt8 := s.upTo index s.output.height

def locked (s : Session) : Bool :=
  match s.producer with
  | .outside => false
  | .copying .. => true

def fail (s : Session) (message : String) : Session :=
  { s with errors := s.errors + 1, error := message }

def drop (s : Session) : Session := { s with dropped := s.dropped + 1 }

/-- The frame rate limit of `capture`, and whether the picture is due. -/
def paced (s : Session) (timestamp : UInt64) : Session × Bool :=
  let period := UInt64.ofNat (1000000000 / s.output.config.fps.toNat)
  let next := if timestamp < s.previousTimestamp then 0 else s.nextTimestamp
  if next ≠ 0 ∧ timestamp < next then
    ({ s with previousTimestamp := timestamp, nextTimestamp := next }, false)
  else
    let later :=
      if next = 0 ∨ timestamp - next > period then timestamp + period else next + period
    ({ s with previousTimestamp := timestamp, nextTimestamp := later }, true)

/-- The pending buffer, or else one that the encode worker does not need. -/
def vacant (s : Session) : Option (Fin 3) :=
  s.pending <|> [0, 1, 2].find? fun index => some index ≠ s.busy ∧ some index ≠ s.previous

/-- The choice of a buffer for a new picture, with the mutex held. -/
def replaceStale (s : Session) (rgba : Memory) (stride : UInt32) : Session :=
  let s := if s.pending.isSome then s.drop else s
  match s.vacant with
  | none => s.drop
  | some index => { s with producer := .copying index rgba stride 0 }

/-- `capture` up to its copying loop; `owns` is the answer of `try_lock`. -/
def capture (s : Session) (rgba : Option Memory) (stride : UInt32) (timestamp : UInt64)
    (owns : Bool) : Session :=
  match rgba with
  | none => s
  | some rgba =>
    if s.output.config.enabled = false ∨ s.stop = true ∨
        stride < UInt32.ofNat s.output.width * 4 then s
    else
      let (s, due) := s.paced timestamp
      if due = false then s
      else if owns = false then s.drop
      else s.replaceStale rgba stride

/-- The next row of the picture, or the end of `capture` after the last one. -/
def produce (s : Session) (now : UInt64) : Option (Session × List Event) :=
  match s.producer with
  | .outside => none
  | .copying index rgba stride row =>
    if row < s.output.height then
      let line := rgba.read (row * stride.toNat) (s.output.width * 4)
      let pixels := (s.pixels index).write (row * s.rowBytes) line
      some ({ s with
        pixels := Function.update s.pixels index pixels
        producer := .copying index rgba stride (row + 1) }, [])
    else
      let replaced := s.pending.toList.map .replaced
      let stored := .stored index (picture rgba stride s.output.width s.output.height)
      some ({ s with
        capturedAt := Function.update s.capturedAt index now
        pending := some index
        producer := .outside }, replaced ++ [stored])

/-- The first encoding of a picture that differs from the one before. -/
def encodeFirst (s : Session) (job : Job) : Session :=
  let config := s.output.config
  let quality := if config.adaptiveJpeg then s.adaptiveQuality else config.quality
  { s with worker := .reading job quality 0 [] 0 }

/-- A picture is compared with the one before, if there is one. -/
def consider (s : Session) (job : Job) : Session :=
  match s.previous with
  | some previous => { s with worker := .comparing job previous 0 }
  | none => s.encodeFirst job

/-- The encode worker takes the pending picture. -/
def take (s : Session) : Option (Session × List Event) :=
  if s.stop then some ({ s with worker := .finished }, [])
  else if s.locked then none
  else s.pending.map fun index =>
    let job : Job := { index, captured := s.capturedAt index }
    (({ s with pending := none, busy := some index } : Session).consider job, [])

def compare (s : Session) (job : Job) (previous : Fin 3) (row : Nat) : Session :=
  if row < s.output.height then
    if s.row job.index row = s.row previous row then
      { s with worker := .comparing job previous (row + 1) }
    else s.encodeFirst job
  else { s with unchanged := s.unchanged + 1, worker := .unchanged job }

/-- An unchanged picture is sent again after a second. -/
def refresh (s : Session) (job : Job) (now : UInt64) : Session × List Event :=
  if now - s.lastQueuedAt ≥ 1000000000 ∧ s.stop = false then
    ({ s with worker := .queueing job s.previousEncoded s.previousQuality false }, [])
  else ({ s with worker := .settling job false }, [.kept job.index])

/-- The image writer reads a row of its picture, or has read them all. -/
def encode (s : Session) (job : Job) (quality : Int) (retry : Nat) (seen : List UInt8) (row : Nat)
    (written : Written) : Option (Session × List Event) :=
  if row < s.output.height then
    some ({ s with
      worker := .reading job quality retry (seen ++ s.row job.index row) (row + 1) }, [])
  else
    match written with
    | .image encoded =>
      some ({ s with worker := .judging job quality retry encoded },
        [.encoded job.index seen quality encoded])
    | .refused message =>
      if s.locked then none
      else
        let s := s.drop.fail ("Image encoding failed: " ++ message)
        let adaptiveQuality := if retry = 0 then s.adaptiveQuality else quality
        some ({ s with adaptiveQuality, worker := .settling job false }, [.failed job.index])
    | .threw message =>
      if s.locked then none
      else
        let s := s.drop.fail ("Video sender: " ++ message)
        some ({ s with worker := .settling job false }, [.failed job.index])

/-- The bytes that one frame period has room for. -/
def budget (config : FrameOutputConfig) : Nat :=
  config.mbps.toNat * 1000000 * 85 / (8 * 100 * config.fps.toNat)

/-- The choice of the adaptive quality after an encoding. -/
def judge (s : Session) (job : Job) (quality : Int) (retry : Nat) (encoded : List UInt8) :
    Session :=
  let config := s.output.config
  let budget := budget config
  let minimum := min 5 config.quality
  let size := wireSize encoded
  if config.format = "JPEG" ∧ config.adaptiveJpeg = true then
    if retry < 2 ∧ s.stop = false ∧ size > budget ∧ quality > minimum then
      let lower : Int := quality * budget * 90 / (size * 100)
      let lower := max minimum (min lower (quality - 1))
      { s with worker := .reading job lower (retry + 1) [] 0 }
    else
      let adaptiveQuality :=
        if size < budget * 3 / 4 then min config.quality (quality + 2) else quality
      { s with adaptiveQuality, worker := .deciding job quality encoded }
  else { s with worker := .deciding job quality encoded }

def decide (s : Session) (job : Job) (quality : Int) (encoded : List UInt8) : Session :=
  if s.stop then { s with worker := .settling job false }
  else
    let previousQuality := if s.output.config.format = "JPEG" then quality else 0
    { s with previousQuality, worker := .queueing job encoded previousQuality true }

/-- `queue_image`; a fresh encoding becomes the cached one. -/
def queueImage (s : Session) (job : Job) (encoded : List UInt8) (quality : Int) (fresh : Bool)
    (now : UInt64) : Option (Session × List Event) :=
  if s.locked then none
  else
    let s := if s.ready.isSome then s.drop else s
    some ({ s with
      ready := some { bytes := encoded, captured := job.captured, quality }
      lastQueuedAt := now
      previousEncoded := if fresh then encoded else s.previousEncoded
      worker := .settling job fresh }, [.queued job.index encoded])

/-- The end of a round of `run`. -/
def settle (s : Session) (job : Job) (remember : Bool) : Option Session :=
  if s.locked then none
  else some { s with
    previous := if remember then some job.index else s.previous
    busy := none
    worker := .waiting }

/-- A step of the encode worker; `written` is what the image writer does if it is called. -/
def work (s : Session) (now : UInt64) (written : Written) : Option (Session × List Event) :=
  match s.worker with
  | .waiting => s.take
  | .comparing job previous row => some (s.compare job previous row, [])
  | .unchanged job => some (s.refresh job now)
  | .reading job quality retry seen row => s.encode job quality retry seen row written
  | .judging job quality retry encoded => some (s.judge job quality retry encoded, [])
  | .deciding job quality encoded => some (s.decide job quality encoded, [])
  | .queueing job encoded quality fresh => s.queueImage job encoded quality fresh now
  | .settling job remember => (s.settle job remember).map fun s => (s, [])
  | .finished => none

/-- What `send_loop` makes of the outcome of `send_image`. -/
def conclude (s : Session) (transmission : Transmission) (threw : Option String) (quality : Int) :
    Session :=
  match threw, transmission.error with
  | some message, _ => s.drop.fail ("Video transmitter: " ++ message)
  | none, some message => s.drop.fail message
  | none, none =>
    if transmission.complete then
      { s with frames := s.frames + 1, error := "", jpegQuality := quality }
    else s

/-- `send_image` for the frame that was ready. -/
def sendFrame (s : Session) (frame : EncodedFrame) (attempts : Nat → Attempt)
    (threw : Option String) : Session × List Event :=
  let call : SendCall := { config := s.output.config, encoded := frame.bytes, attempts }
  let (sequence, transmission) := sendImage s.sequence call
  let s := { s with sequence, transmitter := .waiting }
  (s.conclude transmission threw frame.quality, [.handed call.encoded])

/-- A step of the transmit worker. -/
def transmit (s : Session) (attempts : Nat → Attempt) (threw : Option String) :
    Option (Session × List Event) :=
  match s.transmitter with
  | .waiting =>
    if s.stop then some ({ s with transmitter := .finished }, [])
    else if s.locked then none
    else s.ready.map fun frame =>
      ({ s with ready := none, transmitter := .sending frame }, [.picked frame.bytes])
  | .sending frame => if s.locked then none else some (s.sendFrame frame attempts threw)
  | .finished => none

inductive Label where
  | capture (rgba : Option Memory) (stride : UInt32) (timestamp : UInt64) (owns : Bool)
  | produce (now : UInt64)
  | work (now : UInt64) (written : Written)
  | transmit (attempts : Nat → Attempt) (threw : Option String)
  | requestStop

def step (s : Session) : Label → Option (Session × List Event)
  | .capture rgba stride timestamp owns =>
    if s.locked then none else some (s.capture rgba stride timestamp owns, [])
  | .produce now => s.produce now
  | .work now written => s.work now written
  | .transmit attempts threw => s.transmit attempts threw
  | .requestStop => if s.locked then none else some ({ s with stop := true }, [])

end Session

end FrameSender

end VbanStream
