import VbanStream.Library.Memory
import VbanStream.Protocol.Network

/-! Mouse commands back to the sending computers: the command datagram, the
destinations that `prepare` connects, and the operations of `MouseReturn`. -/

namespace VbanStream

open Library

inductive MouseAction where
  | move | leftDown | leftUp | rightDown | rightUp
deriving DecidableEq, Repr

namespace MouseAction

def command : MouseAction → String
  | .move => "MOUSEMOVE"
  | .leftDown => "LBUTTONDOWN"
  | .leftUp => "LBUTTONUP"
  | .rightDown => "RBUTTONDOWN"
  | .rightUp => "RBUTTONUP"

def down (right : Bool) : MouseAction := if right then .rightDown else .leftDown

def up (right : Bool) : MouseAction := if right then .rightUp else .leftUp

end MouseAction

def commandText (action : MouseAction) (x y : Int) : String :=
  "System.Mouse=(" ++ action.command ++ ", " ++ toString x ++ ", " ++ toString y ++ ");"

/-- The bytes of a command, none for a name or coordinates that cannot travel. -/
def mousePacket (name : StreamName) (sequence : UInt32) (action : MouseAction) (x y : Int) :
    List UInt8 :=
  if validStreamName name = false ∨ x < 0 ∨ y < 0 ∨ x ≥ 4096 ∨ y ≥ 4096 then []
  else
    let text := ascii (commandText action x y)
    let packet : Memory := fun _ => 0
    let packet := packet.write 0 signature
    let packet := (packet.write 4 [0x52]).write 7 [0x10]
    let packet := packet.write 8 name
    let packet := packet.write 24 (littleEndianBytes 4 sequence.toNat)
    let packet := packet.write headerSize text
    packet.read 0 (headerSize + text.length)

theorem mousePacket_built {name : StreamName} {sequence : UInt32} {action : MouseAction}
    {x y : Int} : mousePacket name sequence action x y ≠ [] ↔
      validStreamName name = true ∧ (0 ≤ x ∧ x ≤ 4095) ∧ 0 ≤ y ∧ y ≤ 4095 := by
  unfold mousePacket
  split
  · rename_i refused
    simp only [ne_eq, not_true_eq_false, false_iff]
    rintro ⟨valid, _, _⟩
    rw [valid] at refused
    simp only [Bool.true_eq_false, false_or] at refused
    omega
  · rename_i accepted
    refine iff_of_true ?_ ?_
    · apply List.ne_nil_of_length_pos
      simp [headerSize]
    · simp only [not_or, Bool.not_eq_false] at accepted
      exact ⟨accepted.1, by omega⟩

structure MouseDestination where
  config : MouseConfig := {}
  socket : Option Nat := none
  localIp : String := ""

/-- Where commands are enabled there is a socket and a name to send them under. -/
def MouseDestination.Ready (d : MouseDestination) : Prop :=
  d.config.enabled = true → d.socket.isSome = true ∧ validStreamName d.config.streamName = true

/-- A routing as `prepare` returns it. -/
abbrev MouseRouting := Fin videoSlotCount → { d : MouseDestination // d.Ready }

structure MouseStatus where
  enabled : Bool := false
  dragging : Bool := false
  packets : Nat := 0
  errors : Nat := 0
  error : String := ""
  localIp : String := ""
deriving DecidableEq, Repr

/-- A command as it goes to a socket, with the name that it is sent under. -/
structure MousePacket where
  name : StreamName
  socket : Option Nat
  bytes : List UInt8
deriving DecidableEq, Repr

/-- An attempt to send a command. -/
structure MouseAttempt where
  slot : Fin videoSlotCount
  action : MouseAction
  x : Int
  y : Int
  packet : MousePacket
  sent : Bool
deriving DecidableEq, Repr

inductive MouseEvent where
  | attempt (a : MouseAttempt)
  | replaced
  | destroyed
deriving DecidableEq, Repr

structure MouseReturn where
  routing : Option MouseRouting := none
  status : Fin videoSlotCount → MouseStatus := fun _ => {}
  sequences : Fin videoSlotCount → UInt32 := fun _ => 0
  heldSlot : Option (Fin videoSlotCount) := none
  right : Bool := false
  x : Int := 0
  y : Int := 0
  trace : List MouseEvent := []

namespace MouseReturn

section Prepare

variable (parse : Parse) (configs : Fin videoSlotCount → MouseConfig) (localIp : String)
  (interface : UInt32)

/-- Another video input already uses this destination and command stream. -/
def taken (i : Fin videoSlotCount) : Bool :=
  (List.finRange videoSlotCount).any fun other =>
    other < i && (configs other).enabled &&
      (configs other).destinationIp == (configs i).destinationIp &&
      (configs other).port == (configs i).port &&
      (configs other).streamName == (configs i).streamName

/-- The loop of `prepare` for one destination. -/
def prepareDestination (answers : SocketAnswers) (i : Fin videoSlotCount) :
    Except String { d : MouseDestination // d.Ready } :=
  let config := configs i
  let title := "Mouse return " ++ toString (i.val + 1) ++ ": "
  if enabled : config.enabled = false then .ok ⟨{ config }, by simp [MouseDestination.Ready, enabled]⟩
  else if ((parse config.destinationIp).any unicast) = false then
    .error (title ++ "Enter the destination computer's unicast IPv4 address.")
  else if named : config.port = 0 ∨ validStreamName config.streamName = false then
    .error (title ++ "Use a port from 1 to 65535 and a stream name of 1 to 16 printable ASCII " ++
      "characters.")
  else if taken configs i then
    .error (title ++ "Use a different destination or command stream for each video input.")
  else
    match answers.created, answers.quiet with
    | some socket, true =>
      if localIp ≠ "" ∧ answers.bindsTo parse localIp interface = false then
        .error (title ++ "Cannot bind the selected local IPv4 address.")
      else if answers.connects = false then
        .error (title ++ "Cannot select the destination route.")
      else
        .ok ⟨{ config, socket := some socket, localIp := (answers.endpoint.map Prod.fst).getD "" },
          fun _ => ⟨rfl, by simpa using (not_or.mp named).2⟩⟩
    | _, _ => .error (title ++ "Cannot create mouse return socket.")

end Prepare

/-- The destinations, or the first complaint. -/
def prepare (parse : Parse) (adapters : Adapters) (answers : Fin videoSlotCount → SocketAnswers)
    (configs : Fin videoSlotCount → MouseConfig) (localIp : String) :
    Except String MouseRouting :=
  match selectAdapter adapters localIp
      ((List.finRange videoSlotCount).any fun i => (configs i).enabled)
      "Mouse return: the selected local IPv4 address is unavailable." with
  | .error message => .error message
  | .ok interface =>
    collect fun i => prepareDestination parse configs localIp interface (answers i) i

theorem prepareDestination_meets (parse : Parse) (configs : Fin videoSlotCount → MouseConfig)
    (localIp : String) (interface : UInt32) (answers : SocketAnswers) (i : Fin videoSlotCount) :
    Meets (· ≠ "") (fun d => d.val.config = configs i)
      (prepareDestination parse configs localIp interface answers i) := by
  unfold prepareDestination
  refine meets_dite (fun _ => rfl) fun _ => ?_
  refine meets_ite (by simp [Meets]) ?_
  refine meets_dite (fun _ => by simp [Meets]) fun _ => ?_
  refine meets_ite (by simp [Meets]) ?_
  split
  · exact meets_ite (by simp [Meets]) (meets_ite (by simp [Meets]) rfl)
  · simp [Meets]

/-- Errors say something, and a routing is one for the settings it was asked for. -/
theorem prepare_meets (parse : Parse) (adapters : Adapters)
    (answers : Fin videoSlotCount → SocketAnswers) (configs : Fin videoSlotCount → MouseConfig)
    (localIp : String) :
    Meets (· ≠ "") (fun routing => ∀ i, (routing i).val.config = configs i)
      (prepare parse adapters answers configs localIp) := by
  unfold prepare
  split
  · rename_i message failed
    exact (selectAdapter_meets _ _ _ (by simp)).error failed
  · exact meets_collect fun i => prepareDestination_meets ..

section Operations

-- The error code of each attempt that fails, by its place in the trace.
variable (failure : Nat → Option Int)

def send (s : MouseReturn) (i : Fin videoSlotCount) (action : MouseAction) (x y : Int) :
    MouseReturn × Bool :=
  match s.routing with
  | none => (s, false)
  | some routing =>
    let d := (routing i).val
    if d.config.enabled = false ∨ d.socket = none then (s, false)
    else
      let bytes := mousePacket d.config.streamName (s.sequences i) action x y
      let s := { s with sequences := Function.update s.sequences i (s.sequences i + 1) }
      let status := s.status i
      if bytes = [] then (s, false)
      else
        let packet : MousePacket := { name := d.config.streamName, socket := d.socket, bytes }
        match failure s.trace.length with
        | some code =>
          ({ s with
            status := Function.update s.status i { status with
              errors := status.errors + 1
              error := "UDP send failed (socket " ++ toString code ++ ")." }
            trace := s.trace ++ [.attempt { slot := i, action, x, y, packet, sent := false }] },
            false)
        | none =>
          ({ s with
            status := Function.update s.status i { status with
              packets := status.packets + 1
              error := "" }
            trace := s.trace ++ [.attempt { slot := i, action, x, y, packet, sent := true }] },
            true)

def setDragging (s : MouseReturn) (i : Fin videoSlotCount) (dragging : Bool) : MouseReturn :=
  { s with status := Function.update s.status i { s.status i with dragging } }

/-- `release_locked`: three button-ups against the loss of one. -/
def releaseLocked (s : MouseReturn) : MouseReturn :=
  match s.heldSlot with
  | none => s
  | some i =>
    let s := (s.send failure i (.up s.right) s.x s.y).1
    let s := (s.send failure i (.up s.right) s.x s.y).1
    let s := (s.send failure i (.up s.right) s.x s.y).1
    { s.setDragging i false with heldSlot := none }

/-- `release` is the same under the mutex. -/
def release (s : MouseReturn) : MouseReturn := s.releaseLocked failure

def activate (s : MouseReturn) (next : Option MouseRouting) : MouseReturn :=
  let s := s.releaseLocked failure
  { s with
    routing := next
    status := fun i =>
      match next with
      | none => {}
      | some routing =>
        { enabled := (routing i).val.config.enabled, localIp := (routing i).val.localIp }
    trace := s.trace ++ [.replaced] }

/-- A slot that does not exist is refused by `send`. -/
def slotIndex (slot : Nat) : Option (Fin videoSlotCount) :=
  if inside : slot < videoSlotCount then some ⟨slot, inside⟩ else none

def press (s : MouseReturn) (slot : Nat) (right : Bool) (x y : Int) : MouseReturn × Bool :=
  let s := s.releaseLocked failure
  match slotIndex slot with
  | none => (s, false)
  | some i =>
    match s.send failure i .move x y with
    | (s, false) => (s, false)
    | (s, true) =>
      let s := { s with heldSlot := some i, right, x, y }.setDragging i true
      match s.send failure i (.down right) x y with
      | (s, false) => (s.releaseLocked failure, false)
      | (s, true) => (s, true)

def move (s : MouseReturn) (slot : Nat) (x y : Int) : MouseReturn × Bool :=
  if s.heldSlot.any fun held => held.val != slot then (s, false)
  else
    match slotIndex slot with
    | none => (s.releaseLocked failure, false)
    | some i =>
      match s.send failure i .move x y with
      | (s, false) => (s.releaseLocked failure, false)
      | (s, true) => ({ s with x, y }, true)

/-- The destructor. -/
def destroy (s : MouseReturn) : MouseReturn :=
  let s := s.release failure
  { s with routing := none, trace := s.trace ++ [.destroyed] }

inductive Operation where
  | press (slot : Nat) (right : Bool) (x y : Int)
  | move (slot : Nat) (x y : Int)
  | release
  | activate (next : Option MouseRouting)
  | destroy

def perform (s : MouseReturn) : Operation → MouseReturn
  | .press slot right x y => (s.press failure slot right x y).1
  | .move slot x y => (s.move failure slot x y).1
  | .release => s.release failure
  | .activate next => s.activate failure next
  | .destroy => s.destroy failure

/-- The state after a sequence of operations. -/
def after (operations : List Operation) : MouseReturn :=
  operations.foldl (perform failure) {}

end Operations

end MouseReturn

structure MouseHit where
  slot : Int := -1
  x : Int := 0
  y : Int := 0
  width : Int := 0
  height : Int := 0
  path : List Int := []
deriving DecidableEq, Repr

/-- The drag that the Program display holds, of `ProgramMouse`. -/
structure ProgramDrag where
  heldScene : Option Nat := none
  held : MouseHit := {}
  button : Nat := 0
  lastMove : UInt64 := 0
deriving DecidableEq, Repr

/-- `ProgramMouse::cancel`: the button comes up and the drag is forgotten. -/
def cancelDrag (failure : Nat → Option Int) (s : MouseReturn × ProgramDrag) :
    MouseReturn × ProgramDrag :=
  (s.1.release failure, {})

end VbanStream
