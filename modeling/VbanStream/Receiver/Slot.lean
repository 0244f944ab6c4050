import VbanStream.Buffer.StreamBuffer

/-! One receive slot and the two critical sections that its mutex protects: the
packet path of `receive_loop` and the playout path of `audio_loop`. -/

namespace VbanStream

structure Slot where
  buffer : StreamBuffer := {}
  error : String := ""
  warningTime : UInt64 := 0
  wasReceiving : Bool := false

namespace Slot

def unsupported : ParseError → Bool
  | .codec | .protocol | .sampleType | .channels => true
  | _ => false

/-- `receive_loop` under the slot mutex, after its generation check. -/
def receive (slot : Slot) (decoded : Except ParseError Packet) (now : UInt64) : Slot :=
  match decoded with
  | .error error =>
    let counters := slot.buffer.counters
    { slot with
      buffer.counters := if unsupported error then
          { counters with unsupported := counters.unsupported + 1 }
        else { counters with corrupt := counters.corrupt + 1 }
      error := describe error
      warningTime := if now ≥ slot.warningTime then now + 5000000000 else slot.warningTime }
  | .ok packet =>
    { slot with
      wasReceiving := true
      error := ""
      buffer := slot.buffer.push packet now }

/-- `audio_loop` declares the slot silent. -/
def timedOut (slot : Slot) (now : UInt64) : Bool :=
  slot.wasReceiving && now - slot.buffer.lastValid ≥ 1000000000

/-- `audio_loop` under the slot mutex: the pulled block and the updated slot. -/
def service (slot : Slot) (now : UInt64) : Slot × Option AudioBlock :=
  let (buffer, block) := slot.buffer.pull now
  let slot := { slot with buffer }
  ({ slot with wasReceiving := slot.wasReceiving && !slot.timedOut now }, block)

/-- `configure` under the slot mutex, for a slot whose routing changed. -/
def reset (slot : Slot) : Slot :=
  { slot with buffer := slot.buffer.reset, error := "", wasReceiving := false }

@[simp] theorem reset_reset (slot : Slot) : slot.reset.reset = slot.reset := rfl

end Slot

end VbanStream
