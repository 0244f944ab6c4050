import VbanStream.Mouse.Agreement

namespace VbanStream

open Library

/-- What `visit` asks OBS about a scene item. -/
structure ItemView where
  visible : Bool := true
  width : UInt32 := 0
  height : UInt32 := 0
  /-- A point in the coordinates of the item, unless the draw transform has no inverse or the
  point is not finite. -/
  inverse : ℚ × ℚ → Option (ℚ × ℚ) := some
  left : Int := 0
  top : Int := 0
  right : Int := 0
  bottom : Int := 0
  /-- The item has bounds, and they crop. -/
  boundsCrop : Bool := false
  filters : Nat := 0
  id : Int := 0
  /-- `obs_source_get_unversioned_id` of the source. -/
  sourceId : Option String := none
  /-- The user's value of `slot` in the settings of the source. -/
  slot : Option Int := none

/-- A scene item; later items cover earlier ones of their scene or group. -/
inductive SceneItem where
  | item (view : ItemView) (nested : Option (List SceneItem))

namespace ItemView

/-- Where a point lies in the visible part of the item, before the crop is added. -/
def inside (view : ItemView) (point : ℚ × ℚ) : Option (ℚ × ℚ) :=
  let float := binary32.round
  if view.visible = false then none
  else if view.width = 0 ∨ view.height = 0 then none
  else
    (view.inverse point).filter fun place =>
      let visibleWidth :=
        float (float (float view.width.toNat - float view.left) - float view.right)
      let visibleHeight :=
        float (float (float view.height.toNat - float view.top) - float view.bottom)
      0 ≤ place.1 ∧ 0 ≤ place.2 ∧ place.1 < visibleWidth ∧ place.2 < visibleHeight

/-- The place in the source of the item. -/
def uncropped (view : ItemView) (place : ℚ × ℚ) : ℚ × ℚ :=
  (binary32.round (place.1 + binary32.round view.left),
    binary32.round (place.2 + binary32.round view.top))

/-- The item does not show its source as it is. -/
def altered (view : ItemView) : Bool := view.boundsCrop || 0 < view.filters

end ItemView

/-- `Search`, without its depth. -/
structure Search where
  x : ℚ
  y : ℚ
  path : List Int := []
  hit : MouseHit := {}

/-- `visit`, where `levels` more scenes may be entered. -/
def visit (levels : Nat) (search : Search) : SceneItem → Search
  | .item view nested =>
    match view.inside (search.x, search.y) with
    | none => search
    | some place =>
      -- What covers the place decides, even if nothing can be clicked there.
      let search := { search with hit := {} }
      if view.altered then search
      else
        let (x, y) := view.uncropped place
        let path := search.path ++ [view.id]
        match nested, levels with
        | some items, levels + 1 =>
          { search with hit := (items.foldl (visit levels) { x, y, path }).hit }
        | _, _ =>
          if view.sourceId ≠ some "vban_video_input" then search
          else
            let slot := view.slot.getD (-1)
            if slot < 0 ∨ slot ≥ videoSlotCount then search
            else
              { search with
                hit := {
                  slot, x := ⌊x⌋, y := ⌊y⌋
                  width := view.width.toNat, height := view.height.toNat, path } }

/-- `mouse_hit` in the scene of a source, if it has one. -/
def sceneHit (scene : Option (List SceneItem)) (x y : ℚ) : MouseHit :=
  match scene with
  | none => {}
  | some items => (items.foldl (visit 16) { x, y }).hit

namespace SceneItem

/-- The topmost item at a point, with the place in it. -/
def topmost (items : List SceneItem) (point : ℚ × ℚ) :
    Option (ItemView × Option (List SceneItem) × (ℚ × ℚ)) :=
  items.reverse.findSome? fun
    | .item view nested => (view.inside point).map fun place => (view, nested, place)

/-- The user sees the picture of a video slot at a point: on every level the topmost item is
unaltered, down to a video source. -/
inductive Seen : Nat → List SceneItem → ℚ × ℚ → List Int → MouseHit → Prop where
  | picture {levels : Nat} {items : List SceneItem} {point place : ℚ × ℚ} {path : List Int}
      {view : ItemView} {nested : Option (List SceneItem)} {slot : Int}
      (top : topmost items point = some (view, nested, place)) (plain : view.altered = false)
      (leaf : nested = none ∨ levels = 0) (video : view.sourceId = some "vban_video_input")
      (chosen : view.slot = some slot) (known : 0 ≤ slot ∧ slot < videoSlotCount) :
      Seen levels items point path {
        slot, x := ⌊(view.uncropped place).1⌋, y := ⌊(view.uncropped place).2⌋
        width := view.width.toNat, height := view.height.toNat, path := path ++ [view.id] }
  | nested {levels : Nat} {items inner : List SceneItem} {point place : ℚ × ℚ} {path : List Int}
      {view : ItemView} {hit : MouseHit}
      (top : topmost items point = some (view, some inner, place)) (plain : view.altered = false)
      (seen : Seen levels inner (view.uncropped place) (path ++ [view.id]) hit) :
      Seen (levels + 1) items point path hit

theorem topmost_append (items : List SceneItem) (view : ItemView)
    (nested : Option (List SceneItem)) (point : ℚ × ℚ) :
    topmost (items ++ [.item view nested]) point =
      ((view.inside point).map fun place => (view, nested, place)).or (topmost items point) := by
  simp only [topmost, List.reverse_append, List.reverse_singleton, List.singleton_append,
    List.findSome?_cons]
  cases view.inside point <;> rfl

end SceneItem

open SceneItem

theorem visit_place (levels : Nat) (search : Search) (item : SceneItem) :
    (visit levels search item).x = search.x ∧ (visit levels search item).y = search.y ∧
      (visit levels search item).path = search.path := by
  obtain ⟨view, nested⟩ := item
  rw [visit.eq_def]
  dsimp only
  split
  · exact ⟨rfl, rfl, rfl⟩
  · split
    · exact ⟨rfl, rfl, rfl⟩
    · split
      · exact ⟨rfl, rfl, rfl⟩
      · split
        · exact ⟨rfl, rfl, rfl⟩
        · split <;> exact ⟨rfl, rfl, rfl⟩

theorem foldl_visit_place (levels : Nat) (search : Search) (items : List SceneItem) :
    (items.foldl (visit levels) search).x = search.x ∧
      (items.foldl (visit levels) search).y = search.y ∧
      (items.foldl (visit levels) search).path = search.path := by
  induction items generalizing search with
  | nil => exact ⟨rfl, rfl, rfl⟩
  | cons item rest ih =>
    obtain ⟨x, y, path⟩ := ih (visit levels search item)
    obtain ⟨x', y', path'⟩ := visit_place levels search item
    exact ⟨x.trans x', y.trans y', path.trans path'⟩

theorem unhit : ¬ 0 ≤ ({} : MouseHit).slot := by decide

/-- The topmost item decides, when the scenes inside it are decided. -/
theorem visit_seen {levels : Nat} {search : Search} {items : List SceneItem} {view : ItemView}
    {nested : Option (List SceneItem)} {place : ℚ × ℚ} {hit : MouseHit}
    (inside : view.inside (search.x, search.y) = some place)
    (top : topmost items (search.x, search.y) = some (view, nested, place))
    (deeper : ∀ lower, levels = lower + 1 → ∀ inner x y path,
      ((inner.foldl (visit lower) { x, y, path }).hit = hit ∧ 0 ≤ hit.slot ↔
        Seen lower inner (x, y) path hit)) :
    ((visit levels search (.item view nested)).hit = hit ∧ 0 ≤ hit.slot ↔
      Seen levels items (search.x, search.y) search.path hit) := by
  rw [visit.eq_def]
  simp only [inside]
  cases altered : view.altered with
  | true =>
    constructor
    · rintro ⟨rfl, shown⟩
      exact absurd shown unhit
    · intro seen
      cases seen with
      | picture top' plain | nested top' plain =>
        cases top.symm.trans top'
        exact absurd (altered.symm.trans plain) nofun
  | false =>
    have leaves (leaf : nested = none ∨ levels = 0) :
        ((if view.sourceId ≠ some "vban_video_input" then { search with hit := {} }
          else if view.slot.getD (-1) < 0 ∨ view.slot.getD (-1) ≥ videoSlotCount then
            { search with hit := {} }
          else { search with hit := {
            slot := view.slot.getD (-1), x := ⌊(view.uncropped place).1⌋
            y := ⌊(view.uncropped place).2⌋, width := view.width.toNat
            height := view.height.toNat, path := search.path ++ [view.id] } }).hit = hit ∧
          0 ≤ hit.slot ↔ Seen levels items (search.x, search.y) search.path hit) := by
      constructor
      · split
        · rintro ⟨rfl, shown⟩
          exact absurd shown unhit
        · rename_i video
          split
          · rintro ⟨rfl, shown⟩
            exact absurd shown unhit
          · rename_i known
            rintro ⟨rfl, shown⟩
            cases chosen : view.slot with
            | none =>
              rw [chosen] at shown
              exact absurd shown unhit
            | some slot =>
              simp only [chosen, Option.getD_some] at known ⊢
              exact .picture top altered leaf (not_not.mp video) chosen (by omega)
      · intro seen
        cases seen with
        | picture top' plain _ video chosen known =>
          cases top.symm.trans top'
          rw [if_neg (not_not.mpr video), chosen, Option.getD_some, if_neg (by omega)]
          exact ⟨rfl, known.1⟩
        | nested top' =>
          cases top.symm.trans top'
          rcases leaf with none | zero
          · cases none
          · cases zero
    simp only [Bool.false_eq_true, if_false]
    cases nested with
    | none => exact leaves (.inl rfl)
    | some inner =>
      cases levels with
      | zero => exact leaves (.inr rfl)
      | succ lower =>
        rw [deeper lower rfl inner]
        constructor
        · exact .nested top altered
        · intro seen
          cases seen with
          | picture top' _ leaf =>
            cases top.symm.trans top'
            rcases leaf with none | zero
            · cases none
            · cases zero
          | nested top' _ seen =>
            cases top.symm.trans top'
            exact seen

/-- The last item that covers the place wins, as the enumeration goes upwards. -/
theorem foldl_visit_seen (levels : Nat) (items : List SceneItem) (x y : ℚ) (path : List Int)
    (hit : MouseHit) :
    (items.foldl (visit levels) { x, y, path }).hit = hit ∧ 0 ≤ hit.slot ↔
      Seen levels items (x, y) path hit := by
  induction levels using Nat.strong_induction_on generalizing items x y path with
  | _ levels deeper =>
  induction items using List.reverseRecOn with
  | nil =>
    constructor
    · rintro ⟨rfl, shown⟩
      exact absurd shown unhit
    · intro seen
      cases seen with
      | picture top | nested top => cases top
  | append_singleton below item ih =>
    obtain ⟨view, nested⟩ := item
    obtain ⟨sameX, sameY, samePath⟩ := foldl_visit_place levels { x, y, path } below
    rw [List.foldl_append, List.foldl_cons, List.foldl_nil]
    generalize below.foldl (visit levels) { x, y, path } = search at ih sameX sameY samePath
    cases sameX
    cases sameY
    cases samePath
    cases inside : view.inside (search.x, search.y) with
    | none =>
      have passed : visit levels search (.item view nested) = search := by
        rw [visit.eq_def]
        simp only [inside]
      have top := topmost_append below view nested (search.x, search.y)
      rw [inside, Option.map_none, Option.none_or] at top
      rw [passed, ih]
      constructor
      · intro seen
        cases seen with
        | picture top' plain leaf video chosen known =>
          exact .picture (top.trans top') plain leaf video chosen known
        | nested top' plain seen => exact .nested (top.trans top') plain seen
      · intro seen
        cases seen with
        | picture top' plain leaf video chosen known =>
          exact .picture (top.symm.trans top') plain leaf video chosen known
        | nested top' plain seen => exact .nested (top.symm.trans top') plain seen
    | some place =>
      have top := topmost_append below view nested (search.x, search.y)
      rw [inside, Option.map_some, Option.some_or] at top
      refine visit_seen inside top ?_
      rintro lower rfl inner x y path
      exact deeper lower (Nat.lt_succ_self _) inner x y path

namespace SceneItem

theorem Seen.slot {levels : Nat} {items : List SceneItem} {point : ℚ × ℚ} {path : List Int}
    {hit : MouseHit} (seen : Seen levels items point path hit) :
    0 ≤ hit.slot ∧ hit.slot < videoSlotCount := by
  induction seen with
  | picture _ _ _ _ _ known => exact known
  | nested _ _ _ ih => exact ih

theorem Seen.path {levels : Nat} {items : List SceneItem} {point : ℚ × ℚ} {path : List Int}
    {hit : MouseHit} (seen : Seen levels items point path hit) :
    ∃ ids, hit.path = path ++ ids ∧ 1 ≤ ids.length ∧ ids.length ≤ levels + 1 := by
  induction seen with
  | @picture _ _ _ _ _ view =>
    exact ⟨[view.id], rfl, le_rfl, Nat.succ_le_succ (Nat.zero_le _)⟩
  | @nested _ _ _ _ _ _ view _ _ _ _ ih =>
    obtain ⟨ids, same, some, few⟩ := ih
    refine ⟨view.id :: ids, ?_, Nat.succ_le_succ (Nat.zero_le _), Nat.succ_le_succ few⟩
    rw [same, List.append_assoc, List.singleton_append]

end SceneItem

/-- A hit of a slot is exactly what the user sees at the place: on every level, at most 17 of them,
the topmost item there leads on, and none with filters or cropping bounds; whatever else lies on
top hides the picture. The path names the items. -/
theorem mouse_hit_seen (scene : Option (List SceneItem)) (x y : ℚ) (hit : MouseHit) :
    (sceneHit scene x y = hit ∧ 0 ≤ hit.slot ↔
      ∃ items, scene = some items ∧ Seen 16 items (x, y) [] hit) ∧
    (0 ≤ (sceneHit scene x y).slot → (sceneHit scene x y).slot < videoSlotCount ∧
      1 ≤ (sceneHit scene x y).path.length ∧ (sceneHit scene x y).path.length ≤ 17) := by
  have exactly (hit : MouseHit) : sceneHit scene x y = hit ∧ 0 ≤ hit.slot ↔
      ∃ items, scene = some items ∧ Seen 16 items (x, y) [] hit := by
    cases scene with
    | none =>
      constructor
      · rintro ⟨rfl, shown⟩
        exact absurd shown unhit
      · rintro ⟨_, ⟨⟩, _⟩
    | some items =>
      refine (foldl_visit_seen 16 items x y [] hit).trans ⟨fun seen => ⟨items, rfl, seen⟩, ?_⟩
      rintro ⟨_, same, seen⟩
      cases same
      exact seen
  refine ⟨exactly hit, fun shown => ?_⟩
  obtain ⟨items, _, seen⟩ := (exactly _).mp ⟨rfl, shown⟩
  obtain ⟨ids, path, some, few⟩ := seen.path
  rw [path, List.nil_append]
  exact ⟨seen.slot.2, some, few⟩

/-- OBS answers with what lies in its scenes. -/
def Answers.Shows (answers : Answers) (scenes : Nat → Option (List SceneItem)) : Prop :=
  ∀ scene x y, answers.hit scene x y = sceneHit (scenes scene) x y

/-- The scene that the Program shows: the output, or what a transition has arrived at; there is
none while a transition is under way. -/
def Answers.program (answers : Answers) : Option Nat :=
  answers.output.bind fun output =>
    if answers.transition then
      if 0 < answers.time ∧ answers.time < 1 then none else answers.active
    else some output

namespace ProgramMouse

theorem obtainSource_target (s : ProgramMouse) (source : Option Nat) :
    (s.obtainSource source).2.map Handle.target = source := by
  cases source with
  | none => rfl
  | some source => rfl

theorem programScene_target (s : ProgramMouse) (answers : Answers) :
    (s.programScene answers).2.map Handle.target = answers.program := by
  rw [programScene, Answers.program]
  cases output : answers.output with
  | none => rfl
  | some source =>
    simp only [obtainSource, Option.bind_some]
    split
    · exact obtainSource_target _ _
    · rfl

/-- A place that `locate` finds is on the canvas, and its hit is the Program's. -/
theorem locate_found {s : ProgramMouse} {answers : Answers} {position : ℚ × ℚ}
    (found : (s.locate answers position).2.found = true) :
    ∃ width height x y scene, answers.canvas = some (width, height) ∧
      programCoordinates answers.pixels answers.ratio position width height = some (x, y) ∧
      answers.program = some scene ∧
      (s.locate answers position).2.hit =
        answers.hit scene (binary32.round x) (binary32.round y) ∧
      0 ≤ (s.locate answers position).2.hit.slot := by
  rw [locate] at found ⊢
  split at found
  · cases found
  · rename_i shown
    rw [if_neg shown]
    split at found
    · cases found
    · rename_i width height canvas
      split at found
      · cases found
      · rename_i x y place
        have target := programScene_target s answers
        rcases made : s.programScene answers with ⟨next, scene⟩
        rw [made] at target
        simp only [made, decide_eq_true_eq] at found
        cases scene with
        | none => exact absurd found unhit
        | some reference =>
          exact ⟨width, height, x, y, reference.target, canvas, place, target.symm, rfl, found⟩

/-- From the constructor to the destructor, a button goes down only on a picture that the user
sees under the pointer in the Program's scene, at that place of the picture. -/
theorem presses_seen (failure : Nat → Option Int) {mouse : MouseReturn}
    (free : mouse.heldSlot = none) (answers : Answers) {labels : List Label} {s t : ProgramMouse}
    (ran : run (step failure) (create failure mouse answers) labels = some s) {label : Label}
    (taken : s.step failure label = some t) {scenes : Nat → Option (List SceneItem)}
    (shows : ∀ event answers, label = .event event answers → answers.Shows scenes) :
    ∃ events, t.mouse.trace = s.mouse.trace ++ events ∧
      ∀ a right, .attempt a ∈ events → a.action = .down right →
        ∃ event answers width height x y scene items hit, label = .event event answers ∧
          answers.canvas = some (width, height) ∧
          programCoordinates answers.pixels answers.ratio event.position width height =
            some (x, y) ∧
          answers.program = some scene ∧ scenes scene = some items ∧
          Seen 16 items (binary32.round x, binary32.round y) [] hit ∧
          (a.slot.val : Int) = hit.slot ∧ a.x = hit.x ∧ a.y = hit.y := by
  have agrees := run_agrees (create_agrees failure free answers) ran
  obtain ⟨events, traced, allowed⟩ := (step_keeps agrees taken).extended
  refine ⟨events, traced, fun a right member down => ?_⟩
  obtain ⟨event, answers, rfl, _, _, _, found, _, slot, _, sameX, sameY⟩ :=
    allowed a right member down
  obtain ⟨width, height, x, y, scene, canvas, place, program, hit, shown⟩ := locate_found found
  rw [hit] at slot sameX sameY shown
  rw [shows event answers rfl] at slot sameX sameY shown
  obtain ⟨items, present, seen⟩ := (mouse_hit_seen (scenes scene) _ _ _).1.mp ⟨rfl, shown⟩
  exact ⟨event, answers, width, height, x, y, scene, items, _, rfl, canvas, place, program, present,
    seen, slot, sameX, sameY⟩

/-- A picture of half the size of the canvas, drawn twice as large. -/
def litScene : List SceneItem :=
  [.item {
    width := 640, height := 360
    inverse := fun point => some (point.1 / 2, point.2 / 2)
    sourceId := some "vban_video_input", slot := some 0 } none]

def sceneAnswers : Answers := { litAnswers with hit := fun _ x y => sceneHit (some litScene) x y }

def lowersLeft : MouseEvent → Bool
  | .attempt a => a.action = .down false
  | .replaced | .destroyed => false

theorem presses_seen_lit :
    ∃ t a, (create (fun _ => none) litReturn sceneAnswers).step (fun _ => none)
        (.event litPress sceneAnswers) = some t ∧ .attempt a ∈ t.mouse.trace ∧
      a.action = .down false ∧
      ∃ hit place, Seen 16 litScene place [] hit ∧ (a.slot.val : Int) = hit.slot := by
  have before : (create (fun _ => none) litReturn sceneAnswers).mouse.trace.all
      (fun event => !lowersLeft event) = true := by decide +kernel
  have pressed : ((create (fun _ => none) litReturn sceneAnswers).step (fun _ => none)
      (.event litPress sceneAnswers)).any (fun t => t.mouse.trace.any lowersLeft) = true := by
    decide +kernel
  obtain ⟨t, taken, lowered⟩ := (Option.any_eq_true _ _).mp pressed
  obtain ⟨event, member, down⟩ := List.any_eq_true.mp lowered
  have shows : ∀ event answers, Label.event litPress sceneAnswers = .event event answers →
      answers.Shows fun _ => some litScene := by
    rintro _ _ ⟨⟩ scene x y
    rfl
  obtain ⟨events, traced, seen⟩ := presses_seen (fun _ => none) (rfl : litReturn.heldSlot = none)
    sceneAnswers (run_nil _) taken shows
  cases event with
  | replaced | destroyed => cases down
  | attempt a =>
    have action : a.action = .down false := of_decide_eq_true down
    have added : MouseEvent.attempt a ∈ events := by
      rw [traced] at member
      rcases List.mem_append.mp member with old | new
      · have up := List.all_eq_true.mp before _ old
        rw [down] at up
        cases up
      · exact new
    obtain ⟨_, _, _, _, _, _, _, _, hit, _, _, _, _, present, seen, slot, _⟩ :=
      seen a false added action
    cases present
    exact ⟨t, a, taken, member, action, hit, _, seen, slot⟩

end ProgramMouse

end VbanStream
