import VbanStream.Library.Binary
import VbanStream.Library.Ledger
import VbanStream.Library.Run
import VbanStream.Mouse.Release
import VbanStream.Video.VideoReceiver

/-! `ProgramMouse`: the events of the Program display that become mouse commands, and the drag
that it holds together with the scene under it. -/

namespace VbanStream

open Library

/-- `program_coordinates`: the place on the canvas under a place on the display. -/
def programCoordinates (pixels : Int × Int) (ratio : ℚ) (mouse : ℚ × ℚ) (width height : UInt32) :
    Option (ℚ × ℚ) :=
  let double := binary64.round
  let float := binary32.round
  let cx := pixels.1 - 20
  let cy := pixels.2 - 20
  if cx ≤ 0 ∨ cy ≤ 0 ∨ width = 0 ∨ height = 0 ∨ ratio ≤ 0 then none
  else
    let aspect := double ((width.toNat : ℚ) / height.toNat)
    let (scale, newcx, newcy) : ℚ × Int × Int :=
      if double ((cx : ℚ) / cy) > aspect then
        (float (float cy / float height.toNat), ⌊double (cy * aspect)⌋, cy)
      else (float (float cx / float width.toNat), cx, ⌊double (float cx / aspect)⌋)
    let offsetX := cx / 2 - newcx / 2 + 10
    let offsetY := cy / 2 - newcy / 2 + 10
    let x := double (double (double (mouse.1 * ratio) - offsetX) / scale)
    let y := double (double (double (mouse.2 * ratio) - offsetY) / scale)
    if 0 ≤ x ∧ 0 ≤ y ∧ x < width.toNat ∧ y < height.toNat then some (x, y) else none

/-- A widget of the preview layout. -/
structure Widget where
  address : Nat
  className : String
deriving DecidableEq, Repr

/-- What Qt, OBS and the video receiver answer while one event is handled. -/
structure Answers where
  programMode : Bool := true
  /-- The widgets in each container of the preview layout. -/
  layout : List (List Widget) := []
  visible : Bool := true
  pixels : Int × Int := (0, 0)
  ratio : ℚ := 1
  canvas : Option (UInt32 × UInt32) := none
  /-- `obs_get_output_source`. -/
  output : Option Nat := none
  transition : Bool := false
  time : ℚ := 0
  /-- `obs_transition_get_active_source`. -/
  active : Option Nat := none
  /-- The item of a scene that lies on top at a place. -/
  hit : Nat → ℚ → ℚ → MouseHit := fun _ _ _ => {}
  video : Nat → VideoStatus := fun _ => {}
  receiving : Nat → Bool := fun _ => false
  /-- The control modifier, as the keyboard has it. -/
  control : Bool := false
  now : UInt64 := 0

/-- `mouse_hit`: nothing is hit without a scene. -/
def mouseHit (answers : Answers) (scene : Option (Handle Nat)) (x y : ℚ) : MouseHit :=
  match scene with
  | none => {}
  | some reference => answers.hit reference.target x y

inductive EventType where
  | applicationDeactivate | windowDeactivate | hide | destroy | leave | keyPress | keyRelease
  | contextMenu | mouseMove | mouseButtonPress | mouseButtonDblClick | mouseButtonRelease | other
deriving DecidableEq, Repr

inductive Key where
  | escape | control | other
deriving DecidableEq, Repr

inductive MouseButton where
  | none | left | right | other
deriving DecidableEq, Repr

/-- Qt's number of a button. -/
def MouseButton.code : MouseButton → Nat
  | .none => 0
  | .left => 1
  | .right => 2
  | .other => 4

/-- An event on its way to an object. -/
structure QtEvent where
  type : EventType
  object : Nat
  /-- Whether the object is a widget. -/
  widget : Bool := true
  key : Key := .other
  autoRepeat : Bool := false
  button : MouseButton := .none
  /-- The control modifier, as the event has it. -/
  control : Bool := false
  position : ℚ × ℚ := (0, 0)
deriving DecidableEq

namespace QtEvent

def press (event : QtEvent) : Bool :=
  event.type = .mouseButtonPress || event.type = .mouseButtonDblClick

def release (event : QtEvent) : Bool := event.type = .mouseButtonRelease

end QtEvent

structure ProgramMouse where
  mouse : MouseReturn := {}
  display : Option Nat := none
  heldScene : Option (Handle Nat) := none
  held : MouseHit := {}
  lastPosition : ℚ × ℚ := (0, 0)
  button : MouseButton := .none
  /-- Which widgets track the mouse. -/
  tracking : Nat → Bool := fun _ => false
  oldTracking : Bool := false
  suppressContextMenu : Bool := false
  lastMove : UInt64 := 0
  /-- The references to sources that OBS has given. -/
  ledger : Ledger Nat := {}
  destroyed : Bool := false

/-- What `locate` finds. -/
structure Located where
  found : Bool := false
  hit : MouseHit := {}
  scene : Option (Handle Nat) := none

namespace ProgramMouse

/-- The part that the settings know of. -/
def drag (s : ProgramMouse) : ProgramDrag where
  heldScene := s.heldScene.map Handle.target
  held := s.held
  button := s.button.code
  lastMove := s.lastMove

section Operations

variable (failure : Nat → Option Int)

/-- `obs_source_release`, unless there is no source. -/
def releaseSource (s : ProgramMouse) : Option (Handle Nat) → ProgramMouse
  | none => s
  | some reference => { s with ledger := s.ledger.release reference }

/-- A source that OBS answers with comes with a reference to it. -/
def obtainSource (s : ProgramMouse) : Option Nat → ProgramMouse × Option (Handle Nat)
  | none => (s, none)
  | some source =>
    let (ledger, reference) := s.ledger.obtain source
    ({ s with ledger }, some reference)

def cancel (s : ProgramMouse) : ProgramMouse :=
  let s := { s with mouse := s.mouse.release failure }
  let s := s.releaseSource s.heldScene
  { s with heldScene := none, held := {}, button := .none, lastMove := 0 }

/-- The only display of the Program, if OBS has the layout that is known. -/
def programDisplay (answers : Answers) : Option Nat :=
  if answers.programMode then
    match answers.layout.flatten.filter fun widget => widget.className == "OBSQTDisplay" with
    | [widget] => some widget.address
    | _ => none
  else none

def setTracking (s : ProgramMouse) (on : Bool) : ProgramMouse :=
  match s.display with
  | none => s
  | some widget => { s with tracking := Function.update s.tracking widget on }

def refreshDisplay (s : ProgramMouse) (answers : Answers) : ProgramMouse :=
  let found := programDisplay answers
  if s.display = found then s
  else
    let s := s.cancel failure
    let s := s.setTracking s.oldTracking
    let s := { s with display := found }
    match found with
    | none => s
    | some widget => { s with oldTracking := s.tracking widget }.setTracking true

/-- Of a running transition there is no scene; after it there is the active one. -/
def programScene (s : ProgramMouse) (answers : Answers) :
    ProgramMouse × Option (Handle Nat) :=
  let (s, output) := s.obtainSource answers.output
  match output with
  | none => (s, none)
  | some output =>
    if answers.transition then
      let (s, active) :=
        s.obtainSource (if 0 < answers.time ∧ answers.time < 1 then none else answers.active)
      (s.releaseSource (some output), active)
    else (s, some output)

def locate (s : ProgramMouse) (answers : Answers) (position : ℚ × ℚ) : ProgramMouse × Located :=
  if s.display = none ∨ answers.visible = false ∨ answers.programMode = false then (s, {})
  else
    match answers.canvas with
    | none => (s, {})
    | some (width, height) =>
      match programCoordinates answers.pixels answers.ratio position width height with
      | none => (s, {})
      | some (x, y) =>
        let (s, scene) := s.programScene answers
        let hit := mouseHit answers scene (binary32.round x) (binary32.round y)
        (s, { found := 0 ≤ hit.slot, hit, scene })

/-- The mouse return of the slot is on, and its picture is received in the size of the hit. -/
def live (s : ProgramMouse) (answers : Answers) (hit : MouseHit) : Bool :=
  0 ≤ hit.slot &&
    (MouseReturn.slotIndex hit.slot.toNat).any (fun i => (s.mouse.status i).enabled) &&
    answers.receiving hit.slot.toNat &&
    (answers.video hit.slot.toNat).width = hit.width &&
    (answers.video hit.slot.toNat).height = hit.height

def sameTarget (s : ProgramMouse) (located : Located) : Bool :=
  located.scene.map Handle.target = s.heldScene.map Handle.target &&
    located.hit.slot = s.held.slot && located.hit.path = s.held.path &&
    located.hit.width = s.held.width && located.hit.height = s.held.height

/-- The held button comes up: one more move, if the pointer is still on its target. -/
def finish (s : ProgramMouse) (event : QtEvent) (answers : Answers) : ProgramMouse × Bool :=
  let onDisplay := decide (s.display = some event.object)
  let (s, located) := if onDisplay then s.locate answers event.position else (s, {})
  let hit := located.hit
  let s :=
    if located.found && s.sameTarget located && s.live answers hit then
      { s with mouse := (s.mouse.move failure hit.slot.toNat hit.x hit.y).1 }
    else s
  let s := s.releaseSource located.scene
  (s.cancel failure, onDisplay)

/-- A button goes down on a target. -/
def pressAt (s : ProgramMouse) (event : QtEvent) (located : Located) : ProgramMouse :=
  let right := decide (event.button = .right)
  let hit := located.hit
  let s := { s with suppressContextMenu := right }.cancel failure
  let (mouse, down) := s.mouse.press failure hit.slot.toNat right hit.x hit.y
  let s := { s with mouse }
  if down then { s with heldScene := located.scene, held := hit, button := event.button }
  else s.releaseSource located.scene

/-- The pointer moves on a target; traffic is capped at 125 Hz. -/
def moveAt (s : ProgramMouse) (answers : Answers) (located : Located) : ProgramMouse :=
  let hit := located.hit
  let s :=
    if answers.now - s.lastMove ≥ 8000000 then
      let (mouse, moved) := s.mouse.move failure hit.slot.toNat hit.x hit.y
      let s := { s with mouse }
      let s := if moved then s else s.cancel failure
      { s with lastMove := answers.now }
    else s
  s.releaseSource located.scene

/-- A press or a move with the control modifier, over the display. -/
def point (s : ProgramMouse) (event : QtEvent) (answers : Answers) : ProgramMouse × Bool :=
  let (s, located) := s.locate answers event.position
  let target := located.found && s.live answers located.hit
  let wasDragging := s.heldScene.isSome
  if target = false ∨ wasDragging ∧ s.sameTarget located = false then
    ((s.cancel failure).releaseSource located.scene, wasDragging)
  else
    let s := { s with lastPosition := event.position }
    (if event.press then s.pressAt failure event located else s.moveAt failure answers located,
      true)

/-- The part of `eventFilter` for mouse events on widgets. -/
def mouseEvent (s : ProgramMouse) (event : QtEvent) (answers : Answers) : ProgramMouse × Bool :=
  let onDisplay := decide (s.display = some event.object)
  let s := if event.press && onDisplay then { s with suppressContextMenu := false } else s
  if s.heldScene.isSome && event.release && event.button = s.button then
    s.finish failure event answers
  else if onDisplay = false then
    (if event.press && s.heldScene.isSome then s.cancel failure else s, false)
  else if event.control = false then (s.cancel failure, false)
  else if event.release then (s, false)
  else if event.press ∧ event.button ≠ .left ∧ event.button ≠ .right then (s, false)
  else s.point failure event answers

/-- The events that end a drag by themselves. -/
def interrupts (s : ProgramMouse) (event : QtEvent) : Bool :=
  event.type = .applicationDeactivate ||
    (event.type = .windowDeactivate && s.heldScene.isSome) ||
    ((event.type = .hide || event.type = .destroy || event.type = .leave) &&
      s.display = some event.object)

def interruptingKey (event : QtEvent) : Bool :=
  (event.type = .keyRelease || event.type = .keyPress) &&
    (event.key = .escape ||
      (event.type = .keyRelease && event.key = .control && !event.autoRepeat))

/-- The state, and whether the event goes no further. -/
def eventFilter (s : ProgramMouse) (event : QtEvent) (answers : Answers) : ProgramMouse × Bool :=
  let s := if s.interrupts event then s.cancel failure else s
  let s := if interruptingKey event then s.cancel failure else s
  if event.type = .contextMenu ∧ s.display = some event.object ∧ s.suppressContextMenu = true then
    ({ s with suppressContextMenu := false }, true)
  else if event.type ≠ .mouseMove ∧ event.press = false ∧ event.release = false then (s, false)
  else if event.widget = false then (s, false)
  else s.mouseEvent failure event answers

/-- The timer: a drag goes on while its target stays under the pointer. -/
def tick (s : ProgramMouse) (answers : Answers) : ProgramMouse :=
  let s := s.refreshDisplay failure answers
  if s.heldScene = none then s
  else
    let considered := s.mouse.heldSlot.isSome && answers.control
    let (s, located) := if considered then s.locate answers s.lastPosition else (s, {})
    let keep := located.found && s.sameTarget located && s.live answers located.hit
    let s := s.releaseSource located.scene
    if keep then s else s.cancel failure

/-- The settings that the plugin applies: the drag ends before its routing goes. -/
def apply (s : ProgramMouse) (next : Option MouseRouting) : ProgramMouse :=
  let s := s.cancel failure
  { s with mouse := s.mouse.activate failure next }

/-- The destructor. -/
def destroy (s : ProgramMouse) : ProgramMouse :=
  let s := s.cancel failure
  { s.setTracking s.oldTracking with destroyed := true }

/-- The constructor. -/
def create (mouse : MouseReturn) (answers : Answers) : ProgramMouse :=
  ({ mouse } : ProgramMouse).refreshDisplay failure answers

inductive Label where
  | event (event : QtEvent) (answers : Answers)
  | tick (answers : Answers)
  | refresh (answers : Answers)
  /-- The display is deleted, and the pointer to it becomes null. -/
  | displayDeleted
  | cancel
  | apply (next : Option MouseRouting)
  | destroy

def step (s : ProgramMouse) (label : Label) : Option ProgramMouse :=
  if s.destroyed then none
  else
    some <| match label with
    | .event event answers => (s.eventFilter failure event answers).1
    | .tick answers => s.tick failure answers
    | .refresh answers => s.refreshDisplay failure answers
    | .displayDeleted => { s with display := none }
    | .cancel => s.cancel failure
    | .apply next => s.apply failure next
    | .destroy => s.destroy failure

end Operations

end ProgramMouse

end VbanStream
