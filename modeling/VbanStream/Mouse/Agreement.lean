import VbanStream.Mouse.ProgramMouse

namespace VbanStream

open Library

namespace MouseReturn

/-- What has been added to the trace; only a button-down that is allowed may be in it. -/
def Extends (allowed : MouseAttempt → Prop) (s t : MouseReturn) : Prop :=
  ∃ events, t.trace = s.trace ++ events ∧
    ∀ a right, .attempt a ∈ events → a.action = .down right → allowed a

/-- No button goes down. -/
abbrev Harmless (s t : MouseReturn) : Prop := Extends (fun _ => False) s t

variable {failure : Nat → Option Int} {allowed : MouseAttempt → Prop} {s t u : MouseReturn}

theorem Extends.still (same : t.trace = s.trace) : Extends allowed s t :=
  ⟨[], by rw [same, List.append_nil], by simp⟩

theorem Extends.imp {other : MouseAttempt → Prop} (extended : Extends allowed s t)
    (weaker : ∀ a, allowed a → other a) : Extends other s t := by
  obtain ⟨events, traced, fine⟩ := extended
  exact ⟨events, traced, fun a right member down => weaker a (fine a right member down)⟩

theorem Extends.weaken (harmless : Harmless s t) : Extends allowed s t :=
  harmless.imp fun _ => False.elim

theorem Extends.trans (first : Extends allowed s t) (second : Extends allowed t u) :
    Extends allowed s u := by
  obtain ⟨events, traced, fine⟩ := first
  obtain ⟨others, traced', fine'⟩ := second
  refine ⟨events ++ others, by rw [traced', traced, List.append_assoc], ?_⟩
  intro a right member down
  rcases List.mem_append.mp member with old | new
  · exact fine a right old down
  · exact fine' a right new down

theorem send_extends (allowed : MouseAttempt → Prop) {i : Fin videoSlotCount}
    {action : MouseAction} {x y : Int} {sent : Bool}
    (taken : s.send failure i action x y = (t, sent))
    (fine : ∀ a : MouseAttempt, a.slot = i → a.action = action → a.x = x → a.y = y →
      ∀ right, a.action = .down right → allowed a) :
    t.heldSlot = s.heldSlot ∧ Extends allowed s t := by
  obtain ⟨frame, ⟨_, _, same⟩ | ⟨packet, _, _, traced⟩⟩ := send_cases taken
  · exact ⟨frame.heldSlot, .still same⟩
  · refine ⟨frame.heldSlot, _, traced, fun a right member down => ?_⟩
    cases List.mem_singleton.mp member
    exact fine _ rfl rfl rfl rfl right down

theorem up_harmless (failure : Nat → Option Int) (s : MouseReturn) (i : Fin videoSlotCount)
    (right : Bool) (x y : Int) : Harmless s (s.send failure i (.up right) x y).1 := by
  refine (send_extends _ (rfl : s.send failure i (.up right) x y = (_, _)) ?_).2
  intro a _ action _ _ other down
  exact MouseAction.up_ne_down _ _ (action.symm.trans down)

theorem move_harmless {i : Fin videoSlotCount} {x y : Int} {sent : Bool}
    (taken : s.send failure i .move x y = (t, sent)) :
    t.heldSlot = s.heldSlot ∧ Harmless s t := by
  refine send_extends _ taken fun a _ action _ _ other down => ?_
  exact MouseAction.move_ne_down _ (action.symm.trans down)

theorem releaseLocked_free (failure : Nat → Option Int) (s : MouseReturn) :
    (s.releaseLocked failure).heldSlot = none ∧ Harmless s (s.releaseLocked failure) := by
  rw [releaseLocked.eq_def]
  split
  · exact ⟨‹_›, .still rfl⟩
  · rename_i i _
    exact ⟨rfl, ((up_harmless ..).trans (up_harmless ..)).trans (up_harmless ..)⟩

theorem slotIndex_val {slot : Nat} {i : Fin videoSlotCount} (found : slotIndex slot = some i) :
    i.val = slot := by
  rw [slotIndex] at found
  split at found
  · cases found
    rfl
  · cases found

theorem press_held (failure : Nat → Option Int) (s : MouseReturn) (slot : Nat) (right : Bool)
    (x y : Int) {down : Bool} (taken : s.press failure slot right x y = (t, down)) :
    (down = true → ∃ i, i.val = slot ∧ t.heldSlot = some i) ∧
      (down = false → t.heldSlot = none) ∧
      Extends (fun a => a.slot.val = slot ∧ a.action = .down right ∧ a.x = x ∧ a.y = y) s t := by
  obtain ⟨free, released⟩ := releaseLocked_free failure s
  rw [press] at taken
  dsimp only at taken
  split at taken
  · cases taken
    exact ⟨by simp, fun _ => free, .weaken released⟩
  · rename_i i found
    rcases moved : (s.releaseLocked failure).send failure i .move x y with ⟨next, sent⟩
    obtain ⟨same, dragged⟩ := move_harmless moved
    rw [moved] at taken
    cases sent with
    | false =>
      cases taken
      exact ⟨by simp, fun _ => same.trans free, .weaken (released.trans dragged)⟩
    | true =>
      dsimp only at taken
      rcases pressed : ({ next with heldSlot := some i, right, x, y }.setDragging i true).send
        failure i (.down right) x y with ⟨last, sent⟩
      obtain ⟨kept, extends_⟩ := send_extends (fun a =>
        a.slot.val = slot ∧ a.action = .down right ∧ a.x = x ∧ a.y = y) pressed
        fun a place action left top _ _ => ⟨place ▸ slotIndex_val found, action, left, top⟩
      have whole := Extends.trans (.weaken (released.trans dragged)) extends_
      rw [pressed] at taken
      cases sent with
      | false =>
        cases taken
        obtain ⟨freed, lifted⟩ := releaseLocked_free failure last
        exact ⟨by simp, fun _ => freed, whole.trans (.weaken lifted)⟩
      | true =>
        cases taken
        exact ⟨fun _ => ⟨i, slotIndex_val found, kept⟩, by simp, whole⟩

theorem move_held (failure : Nat → Option Int) (s : MouseReturn) (slot : Nat) (x y : Int)
    {moved : Bool} (taken : s.move failure slot x y = (t, moved)) :
    (moved = true → t.heldSlot = s.heldSlot) ∧ Harmless s t := by
  rw [move] at taken
  split at taken
  · cases taken
    exact ⟨by simp, .still rfl⟩
  · split at taken
    · cases taken
      exact ⟨by simp, (releaseLocked_free failure s).2⟩
    · rename_i i _
      rcases sending : s.send failure i .move x y with ⟨next, sent⟩
      obtain ⟨same, dragged⟩ := move_harmless sending
      rw [sending] at taken
      cases sent with
      | false =>
        cases taken
        exact ⟨by simp, dragged.trans (releaseLocked_free failure next).2⟩
      | true =>
        cases taken
        exact ⟨fun _ => same, dragged.trans (.still rfl)⟩

theorem activate_free (failure : Nat → Option Int) (s : MouseReturn)
    (next : Option MouseRouting) :
    (s.activate failure next).heldSlot = none ∧ Harmless s (s.activate failure next) := by
  obtain ⟨free, harmless⟩ := releaseLocked_free failure s
  refine ⟨free, harmless.trans ⟨[.replaced], rfl, ?_⟩⟩
  intro a right member
  cases List.mem_singleton.mp member

end MouseReturn

namespace ProgramMouse

/-- The references that are open: the one of the drag, and the one of the event that is handled. -/
abbrev Accounts (s : ProgramMouse) (loose : Option (Handle Nat)) : Prop :=
  s.ledger.Accounts (loose.toList ++ s.heldScene.toList)

/-- The drag of the display is the drag of the mouse return, and all references are known. -/
structure Agrees (s : ProgramMouse) (loose : Option (Handle Nat)) : Prop where
  holds : s.heldScene.isSome = s.mouse.heldSlot.isSome
  slot : ∀ i, s.mouse.heldSlot = some i → s.held.slot = i.val
  accounts : s.Accounts loose

variable {failure : Nat → Option Int} {s t : ProgramMouse} {answers : Answers}
variable {loose : Option (Handle Nat)}

theorem releaseSource_accounts {held : List (Handle Nat)}
    (accounts : s.ledger.Accounts (loose.toList ++ held)) :
    (s.releaseSource loose).ledger.Accounts held := by
  cases loose with
  | none => exact accounts
  | some reference => exact accounts.release

theorem releaseSource_eq (s : ProgramMouse) (scene : Option (Handle Nat)) :
    ∃ ledger, s.releaseSource scene = { s with ledger } := by
  cases scene with
  | none => exact ⟨_, rfl⟩
  | some reference => exact ⟨_, rfl⟩

theorem obtainSource_eq (s : ProgramMouse) (source : Option Nat) :
    ∃ ledger, (s.obtainSource source).1 = { s with ledger } ∧
      ∀ held, s.ledger.Accounts held →
        ledger.Accounts ((s.obtainSource source).2.toList ++ held) := by
  cases source with
  | none => exact ⟨_, rfl, fun _ => id⟩
  | some source => exact ⟨_, rfl, fun _ accounts => accounts.obtain source⟩

theorem cancel_drag (failure : Nat → Option Int) (s : ProgramMouse) :
    ((s.cancel failure).mouse, (s.cancel failure).drag) = cancelDrag failure (s.mouse, s.drag) := by
  obtain ⟨ledger, same⟩ :=
    releaseSource_eq { s with mouse := s.mouse.release failure } s.heldScene
  rw [cancel]
  simp only [same]
  rfl

/-- After `cancel` nothing is held, whatever was before. -/
theorem cancel_free (failure : Nat → Option Int) (s : ProgramMouse) :
    (s.cancel failure).heldScene = none ∧ (s.cancel failure).mouse.heldSlot = none ∧
      (s.cancel failure).display = s.display ∧
      s.mouse.Harmless (s.cancel failure).mouse ∧
      ∀ loose, s.Accounts loose → (s.cancel failure).Accounts loose := by
  obtain ⟨free, harmless⟩ := MouseReturn.releaseLocked_free failure s.mouse
  obtain ⟨ledger, same⟩ :=
    releaseSource_eq { s with mouse := s.mouse.release failure } s.heldScene
  have made : s.cancel failure = { s with
      mouse := s.mouse.release failure, ledger, heldScene := none, held := {}, button := .none,
      lastMove := 0 } := by
    rw [cancel]
    simp only [same]
  rw [made]
  refine ⟨rfl, free, rfl, harmless, fun loose accounts => ?_⟩
  have settled : ({ s with mouse := s.mouse.release failure } : ProgramMouse).ledger.Accounts
      (s.heldScene.toList ++ loose.toList) := accounts.reorder List.perm_append_comm
  have after := releaseSource_accounts settled
  rw [same] at after
  simpa [Accounts] using after

theorem programScene_eq (s : ProgramMouse) (answers : Answers) :
    ∃ ledger, (s.programScene answers).1 = { s with ledger } ∧
      ∀ held, s.ledger.Accounts held →
        ledger.Accounts ((s.programScene answers).2.toList ++ held) := by
  obtain ⟨ledger, same, accounts⟩ := obtainSource_eq s answers.output
  rw [programScene]
  rcases obtained : s.obtainSource answers.output with ⟨next, output⟩
  rw [obtained] at same accounts
  dsimp only at same accounts ⊢
  subst same
  cases output with
  | none => exact ⟨_, rfl, accounts⟩
  | some output =>
    dsimp only
    split
    · obtain ⟨later, same, accounts'⟩ := obtainSource_eq { s with ledger }
        (if 0 < answers.time ∧ answers.time < 1 then none else answers.active)
      rcases given : ({ s with ledger } : ProgramMouse).obtainSource
        (if 0 < answers.time ∧ answers.time < 1 then none else answers.active) with ⟨last, active⟩
      rw [given] at same accounts'
      dsimp only at same accounts' ⊢
      subst same
      refine ⟨_, rfl, fun held before => ?_⟩
      have both := accounts' _ (accounts held before)
      have swapped : (active.toList ++ ([output] ++ held)).Perm
          (output :: (active.toList ++ held)) := List.perm_middle
      exact (both.reorder swapped).release
    · exact ⟨_, rfl, accounts⟩

/-- `locate` adds at most the reference that it returns, and a hit always has one. -/
theorem locate_eq (s : ProgramMouse) (answers : Answers) (position : ℚ × ℚ) :
    ∃ ledger, (s.locate answers position).1 = { s with ledger } ∧
      (∀ held, s.ledger.Accounts held →
        ledger.Accounts ((s.locate answers position).2.scene.toList ++ held)) ∧
      ((s.locate answers position).2.found = true →
        (s.locate answers position).2.scene.isSome = true) := by
  have nothing : ∃ ledger, s = { s with ledger } ∧
      (∀ held, s.ledger.Accounts held →
        ledger.Accounts (({} : Located).scene.toList ++ held)) ∧
      (({} : Located).found = true → ({} : Located).scene.isSome = true) :=
    ⟨_, rfl, fun _ => id, nofun⟩
  rw [locate]
  split
  · exact nothing
  · split
    · exact nothing
    · split
      · exact nothing
      · obtain ⟨ledger, same, accounts⟩ := programScene_eq s answers
        rcases made : s.programScene answers with ⟨next, scene⟩
        rw [made] at same accounts
        refine ⟨ledger, same, accounts, fun found => ?_⟩
        cases scene with
        | none => simp [mouseHit] at found
        | some reference => rfl

/-- What `Agrees` is about. -/
def core (s : ProgramMouse) : MouseReturn × Option (Handle Nat) × MouseHit × Ledger Nat :=
  (s.mouse, s.heldScene, s.held, s.ledger)

theorem setTracking_core (s : ProgramMouse) (on : Bool) : (s.setTracking on).core = s.core := by
  rw [setTracking]
  split <;> rfl

/-- A part of a step that lowers only buttons that are allowed, and ends in agreement. -/
structure Keeps (allowed : MouseAttempt → Prop) (s t : ProgramMouse)
    (loose : Option (Handle Nat)) : Prop where
  agrees : t.Agrees loose
  extended : MouseReturn.Extends allowed s.mouse t.mouse

variable {allowed : MouseAttempt → Prop}

theorem Keeps.refl (agrees : s.Agrees loose) : Keeps allowed s s loose := ⟨agrees, .still rfl⟩

theorem Keeps.congr {u : ProgramMouse} (keeps : Keeps allowed s t loose)
    (same : u.core = t.core) : Keeps allowed s u loose := by
  obtain ⟨⟨holds, slot, accounts⟩, extended⟩ := keeps
  obtain ⟨mouse, rest⟩ := Prod.mk.inj same
  obtain ⟨scene, rest⟩ := Prod.mk.inj rest
  obtain ⟨held, ledger⟩ := Prod.mk.inj rest
  refine ⟨⟨?_, ?_, ?_⟩, ?_⟩
  · rw [mouse, scene, holds]
  · rw [mouse, held]
    exact slot
  · rw [Accounts, ledger, scene]
    exact accounts
  · rw [mouse]
    exact extended

theorem keeps_cancel (failure : Nat → Option Int) (accounts : t.Accounts loose)
    (extended : MouseReturn.Extends allowed s.mouse t.mouse) :
    Keeps allowed s (t.cancel failure) loose := by
  obtain ⟨scene, slot, _, harmless, settled⟩ := cancel_free failure t
  refine ⟨⟨by rw [scene, slot]; rfl, ?_, settled loose accounts⟩,
    extended.trans (.weaken harmless)⟩
  rw [slot]
  exact nofun

theorem Keeps.cancel (failure : Nat → Option Int) (keeps : Keeps allowed s t loose) :
    Keeps allowed s (t.cancel failure) loose :=
  keeps_cancel failure keeps.agrees.accounts keeps.extended

theorem Keeps.releaseSource (keeps : Keeps allowed s t loose) :
    Keeps allowed s (t.releaseSource loose) none := by
  obtain ⟨⟨holds, slot, accounts⟩, extended⟩ := keeps
  have released := releaseSource_accounts accounts
  obtain ⟨ledger, same⟩ := releaseSource_eq t loose
  rw [same] at released ⊢
  exact ⟨⟨holds, slot, released⟩, extended⟩

theorem locate_agrees (agrees : s.Agrees none) (answers : Answers) (position : ℚ × ℚ) :
    (s.locate answers position).1.Agrees (s.locate answers position).2.scene := by
  obtain ⟨ledger, same, accounts, _⟩ := locate_eq s answers position
  rw [same]
  exact ⟨agrees.holds, agrees.slot, accounts _ agrees.accounts⟩

theorem refreshDisplay_keeps (agrees : s.Agrees none) :
    Keeps allowed s (s.refreshDisplay failure answers) none := by
  rw [refreshDisplay]
  split
  · exact .refl agrees
  · have cancelled : Keeps allowed s (s.cancel failure) none := (Keeps.refl agrees).cancel failure
    have restored := setTracking_core (s.cancel failure) (s.cancel failure).oldTracking
    dsimp only
    split
    · exact cancelled.congr restored
    · exact cancelled.congr ((setTracking_core _ true).trans restored)

theorem releaseSource_cancel (failure : Nat → Option Int) (accounts : t.Accounts loose)
    (extended : MouseReturn.Extends allowed s.mouse t.mouse) :
    Keeps allowed s ((t.releaseSource loose).cancel failure) none := by
  have released := releaseSource_accounts accounts
  obtain ⟨ledger, same⟩ := releaseSource_eq t loose
  rw [same] at released ⊢
  exact keeps_cancel failure released extended

theorem locate_if (agrees : s.Agrees none) (answers : Answers) (position : ℚ × ℚ) (asked : Bool) :
    ∃ ledger located, (if asked then s.locate answers position else (s, {})) =
      ({ s with ledger }, located) ∧ ({ s with ledger } : ProgramMouse).Agrees located.scene := by
  cases asked with
  | false => exact ⟨_, {}, rfl, agrees⟩
  | true =>
    obtain ⟨ledger, same, _⟩ := locate_eq s answers position
    have found := locate_agrees agrees answers position
    rw [same] at found
    exact ⟨ledger, (s.locate answers position).2, Prod.ext same rfl, found⟩

theorem finish_keeps (failure : Nat → Option Int) (answers : Answers) (agrees : s.Agrees none)
    (event : QtEvent) :
    Keeps allowed s (s.finish failure event answers).1 none := by
  obtain ⟨ledger, located, looked, found⟩ :=
    locate_if agrees answers event.position (decide (s.display = some event.object))
  rw [finish]
  dsimp only
  rw [looked]
  dsimp only
  split
  · rcases moved : s.mouse.move failure located.hit.slot.toNat located.hit.x located.hit.y with
      ⟨mouse, sent⟩
    have harmless := (MouseReturn.move_held failure s.mouse _ _ _ moved).2
    exact releaseSource_cancel failure found.accounts (.weaken harmless)
  · exact releaseSource_cancel failure found.accounts (.still rfl)

theorem moveAt_keeps (failure : Nat → Option Int) (answers : Answers) {located : Located}
    (agrees : s.Agrees located.scene) :
    Keeps allowed s (s.moveAt failure answers located) none := by
  rw [moveAt]
  dsimp only
  apply Keeps.releaseSource
  split
  · rcases moved : s.mouse.move failure located.hit.slot.toNat located.hit.x located.hit.y with
      ⟨mouse, sent⟩
    obtain ⟨same, harmless⟩ := MouseReturn.move_held failure s.mouse _ _ _ moved
    cases sent with
    | false =>
      have cancelled : Keeps allowed s (({ s with mouse } : ProgramMouse).cancel failure)
          located.scene := keeps_cancel failure agrees.accounts (.weaken harmless)
      exact cancelled.congr rfl
    | true =>
      refine ⟨⟨?_, ?_, agrees.accounts⟩, .weaken harmless⟩
      · exact agrees.holds.trans (congrArg Option.isSome (same rfl).symm)
      · intro i held
        exact agrees.slot i ((same rfl).symm.trans held)
  · exact .refl agrees

theorem pressAt_keeps (failure : Nat → Option Int) (event : QtEvent) {located : Located}
    (agrees : s.Agrees located.scene)
    (scene : located.scene.isSome = true) (slot : 0 ≤ located.hit.slot) :
    Keeps (fun a => (a.slot.val : Int) = located.hit.slot ∧
        a.action = .down (decide (event.button = .right)) ∧ a.x = located.hit.x ∧
        a.y = located.hit.y) s
      (s.pressAt failure event located) none := by
  have agrees' : ({ s with suppressContextMenu := decide (event.button = .right) }
      : ProgramMouse).Agrees located.scene := ⟨agrees.holds, agrees.slot, agrees.accounts⟩
  obtain ⟨none_, _, _, harmless, settled⟩ := cancel_free failure
    { s with suppressContextMenu := decide (event.button = .right) }
  have accounts := settled _ agrees'.accounts
  rw [pressAt]
  dsimp only
  generalize ({ s with suppressContextMenu := decide (event.button = .right) }
    : ProgramMouse).cancel failure = u at *
  rcases pressed : u.mouse.press failure located.hit.slot.toNat (decide (event.button = .right))
    located.hit.x located.hit.y with ⟨mouse, down⟩
  obtain ⟨held, free, extended⟩ := MouseReturn.press_held failure u.mouse _ _ _ _ pressed
  have within : MouseReturn.Extends (fun a => (a.slot.val : Int) = located.hit.slot ∧
      a.action = .down (decide (event.button = .right)) ∧ a.x = located.hit.x ∧
      a.y = located.hit.y) s.mouse mouse := by
    refine .trans (.weaken harmless) (extended.imp fun a given => ?_)
    exact ⟨by omega, given.2⟩
  cases down with
  | true =>
    obtain ⟨i, place, held⟩ := held rfl
    refine ⟨⟨?_, ?_, ?_⟩, within⟩
    · exact scene.trans (congrArg Option.isSome held).symm
    · intro j known
      cases held.symm.trans known
      exact (by omega : located.hit.slot = i.val)
    · rw [Accounts, none_, Option.toList_none, List.append_nil] at accounts
      exact accounts
  | false =>
    apply Keeps.releaseSource
    refine ⟨⟨?_, ?_, accounts⟩, within⟩
    · exact (congrArg Option.isSome none_).trans (congrArg Option.isSome (free rfl)).symm
    · intro j known
      cases (free rfl).symm.trans known

/-- A button-down that the event stands for: pressed with the control modifier, over the display,
at a hit that is live. -/
def Presses (s : ProgramMouse) (event : QtEvent) (answers : Answers) (a : MouseAttempt) : Prop :=
  let located := (s.locate answers event.position).2
  event.press = true ∧ event.control = true ∧ s.display = some event.object ∧
    located.found = true ∧ s.live answers located.hit = true ∧
    (a.slot.val : Int) = located.hit.slot ∧
    a.action = .down (decide (event.button = .right)) ∧
    a.x = located.hit.x ∧ a.y = located.hit.y

theorem point_keeps (failure : Nat → Option Int) (answers : Answers) (agrees : s.Agrees none)
    {event : QtEvent} (control : event.control = true)
    (place : s.display = some event.object) :
    Keeps (s.Presses event answers) s (s.point failure event answers).1 none := by
  obtain ⟨ledger, same, _, hit⟩ := locate_eq s answers event.position
  have agrees' := locate_agrees agrees answers event.position
  rw [point]
  rcases looked : s.locate answers event.position with ⟨next, located⟩
  rw [looked] at same hit agrees'
  dsimp only at same hit agrees' ⊢
  subst same
  have kept : Keeps (s.Presses event answers) s { s with ledger } located.scene :=
    ⟨agrees', .still rfl⟩
  split
  · exact (kept.cancel failure).releaseSource
  · rename_i aimed
    simp only [not_or, Bool.not_eq_false, Bool.and_eq_true] at aimed
    obtain ⟨⟨found, live⟩, _⟩ := aimed
    have agrees'' : ({ s with ledger, lastPosition := event.position } : ProgramMouse).Agrees
        located.scene := ⟨agrees'.holds, agrees'.slot, agrees'.accounts⟩
    split
    · rename_i pressed
      have slot : 0 ≤ located.hit.slot := by
        simp only [ProgramMouse.live, Bool.and_eq_true, decide_eq_true_eq] at live
        exact live.1.1.1.1
      obtain ⟨after, extended⟩ := pressAt_keeps failure event agrees'' (hit found) slot
      refine ⟨after, extended.imp fun a at_hit => ?_⟩
      rw [Presses, looked]
      exact ⟨pressed, control, place, found, live, at_hit⟩
    · have moved : Keeps (s.Presses event answers) _ _ none :=
        moveAt_keeps failure answers agrees''
      exact ⟨moved.agrees, moved.extended⟩

/-- What is located does not depend on the flag of the context menu. -/
theorem locate_suppress (s : ProgramMouse) (suppressContextMenu : Bool) (answers : Answers)
    (position : ℚ × ℚ) :
    (({ s with suppressContextMenu } : ProgramMouse).locate answers position).2 =
      (s.locate answers position).2 := by
  rw [locate, locate]
  split
  · rfl
  · split
    · rfl
    · split
      · rfl
      · rw [programScene, programScene]
        cases answers.output with
        | none => rfl
        | some output =>
          dsimp only [obtainSource]
          split
          · split <;> rfl
          · rfl

theorem mouseEvent_keeps (failure : Nat → Option Int) (answers : Answers)
    (agrees : s.Agrees none) (event : QtEvent) :
    Keeps (s.Presses event answers) s (s.mouseEvent failure event answers).1 none := by
  obtain ⟨flag, flagged⟩ : ∃ flag, (if event.press && decide (s.display = some event.object) then
      { s with suppressContextMenu := false } else s) = { s with suppressContextMenu := flag } := by
    split
    · exact ⟨_, rfl⟩
    · exact ⟨_, rfl⟩
  have agrees' : ({ s with suppressContextMenu := flag } : ProgramMouse).Agrees none :=
    ⟨agrees.holds, agrees.slot, agrees.accounts⟩
  have same (a : MouseAttempt) (presses :
      ({ s with suppressContextMenu := flag } : ProgramMouse).Presses event answers a) :
      s.Presses event answers a := by
    rw [Presses, locate_suppress] at presses
    exact presses
  have kept : Keeps (s.Presses event answers) s { s with suppressContextMenu := flag } none :=
    ⟨agrees', .still rfl⟩
  rw [mouseEvent]
  simp only [flagged]
  split
  · have finished : Keeps (s.Presses event answers) _ _ none :=
      finish_keeps failure answers agrees' event
    exact ⟨finished.agrees, finished.extended⟩
  · split
    · split
      · exact kept.cancel failure
      · exact kept
    · rename_i place
      split
      · exact kept.cancel failure
      · rename_i control
        split
        · exact kept
        · split
          · exact kept
          · obtain ⟨after, extended⟩ := point_keeps failure answers agrees'
              (by simpa using control) (by simpa using place)
            exact ⟨after, extended.imp same⟩

theorem press_uninterrupted {event : QtEvent} (press : event.press = true) :
    s.interrupts event = false ∧ interruptingKey event = false := by
  rw [QtEvent.press, Bool.or_eq_true, decide_eq_true_eq, decide_eq_true_eq] at press
  rcases press with single | double
  · simp [interrupts, interruptingKey, single]
  · simp [interrupts, interruptingKey, double]

theorem Keeps.cancel_if (failure : Nat → Option Int) (keeps : Keeps allowed s t loose)
    (asked : Bool) : Keeps allowed s (if asked then t.cancel failure else t) loose := by
  cases asked with
  | false => exact keeps
  | true => exact keeps.cancel failure

theorem eventFilter_keeps (failure : Nat → Option Int) (answers : Answers)
    (agrees : s.Agrees none) (event : QtEvent) :
    Keeps (s.Presses event answers) s (s.eventFilter failure event answers).1 none := by
  have first : Keeps (s.Presses event answers) s s none := .refl agrees
  have second := (first.cancel_if failure (s.interrupts event)).cancel_if failure
    (interruptingKey event)
  have same (press : event.press = true) : (if interruptingKey event then
      (if s.interrupts event then s.cancel failure else s).cancel failure
      else if s.interrupts event then s.cancel failure else s) = s := by
    obtain ⟨window, key⟩ := press_uninterrupted (s := s) press
    rw [window, key]
    rfl
  rw [eventFilter]
  generalize (if interruptingKey event then
    (if s.interrupts event then s.cancel failure else s).cancel failure
    else if s.interrupts event then s.cancel failure else s) = u at *
  split
  · exact second.congr rfl
  · split
    · exact second
    · split
      · exact second
      · obtain ⟨after, extended⟩ := mouseEvent_keeps failure answers second.agrees event
        refine ⟨after, second.extended.trans (extended.imp fun a presses => ?_)⟩
        rwa [same presses.1] at presses

theorem tick_keeps (failure : Nat → Option Int) (answers : Answers) (agrees : s.Agrees none) :
    Keeps allowed s (s.tick failure answers) none := by
  have refreshed : Keeps allowed s (s.refreshDisplay failure answers) none :=
    refreshDisplay_keeps agrees
  rw [tick]
  dsimp only
  generalize s.refreshDisplay failure answers = u at *
  split
  · exact refreshed
  · obtain ⟨ledger, located, looked, found⟩ := locate_if refreshed.agrees answers u.lastPosition
      (u.mouse.heldSlot.isSome && answers.control)
    rw [looked]
    dsimp only
    have released : Keeps allowed s _ none :=
      (⟨found, refreshed.extended⟩ : Keeps allowed s { u with ledger } _).releaseSource
    split
    · exact released
    · exact released.cancel failure

theorem apply_keeps (failure : Nat → Option Int) (next : Option MouseRouting)
    (agrees : s.Agrees none) : Keeps allowed s (s.apply failure next) none := by
  obtain ⟨scene, _, _, _, _⟩ := cancel_free failure s
  have cancelled : Keeps allowed s (s.cancel failure) none := (Keeps.refl agrees).cancel failure
  obtain ⟨free, harmless⟩ :=
    MouseReturn.activate_free failure (s.cancel failure).mouse next
  refine ⟨⟨?_, ?_, cancelled.agrees.accounts⟩, cancelled.extended.trans (.weaken harmless)⟩
  · exact (congrArg Option.isSome scene).trans (congrArg Option.isSome free).symm
  · intro i held
    cases free.symm.trans held

/-- The only step that lowers a button is a press. -/
def Lowers (s : ProgramMouse) (label : Label) (a : MouseAttempt) : Prop :=
  ∃ event answers, label = .event event answers ∧ s.Presses event answers a

theorem step_keeps {label : Label} (agrees : s.Agrees none)
    (taken : s.step failure label = some t) : Keeps (s.Lowers label) s t none := by
  unfold step at taken
  split at taken
  · cases taken
  · cases taken
    cases label with
    | event event answers =>
      obtain ⟨after, extended⟩ := eventFilter_keeps failure answers agrees event
      exact ⟨after, extended.imp fun a presses => ⟨event, answers, rfl, presses⟩⟩
    | tick answers => exact tick_keeps failure answers agrees
    | refresh answers => exact refreshDisplay_keeps agrees
    | displayDeleted => exact (Keeps.refl agrees).congr rfl
    | cancel => exact (Keeps.refl agrees).cancel failure
    | apply next => exact apply_keeps failure next agrees
    | destroy =>
      have cancelled : Keeps (s.Lowers .destroy) s (s.cancel failure) none :=
        (Keeps.refl agrees).cancel failure
      exact cancelled.congr (setTracking_core (s.cancel failure) _)

theorem create_agrees (failure : Nat → Option Int) {mouse : MouseReturn}
    (free : mouse.heldSlot = none) (answers : Answers) :
    (create failure mouse answers).Agrees none := by
  have start : ({ mouse } : ProgramMouse).Agrees none := by
    refine ⟨(congrArg Option.isSome free).symm, ?_, .empty⟩
    intro i held
    cases free.symm.trans held
  have refreshed : Keeps (fun _ => False) _ (create failure mouse answers) none :=
    refreshDisplay_keeps start
  exact refreshed.agrees

theorem run_agrees {labels : List Label} (agrees : s.Agrees none)
    (ran : run (step failure) s labels = some t) : t.Agrees none :=
  run_invariant (fun _ _ _ before taken => (step_keeps before taken).agrees) agrees ran

end ProgramMouse

open ProgramMouse in
/-- From the constructor to the destructor: a scene is held while a button is, and its slot is
the slot of the button; every reference to a source is released once or is the held one; and a
button goes down only by a press with the control modifier over the display, at a live hit. -/
theorem program_mouse_agrees (failure : Nat → Option Int) (mouse : MouseReturn)
    (free : mouse.heldSlot = none) (answers : Answers) (labels : List Label) (s : ProgramMouse)
    (ran : run (step failure) (create failure mouse answers) labels = some s) :
    (s.heldScene.isSome = true ↔ s.mouse.heldSlot.isSome = true) ∧
      (∀ i, s.mouse.heldSlot = some i → s.held.slot = i.val) ∧
      s.ledger.obtained.Nodup ∧
      s.ledger.obtained.Perm (s.ledger.released ++ s.heldScene.toList) ∧
      ∀ label t, s.step failure label = some t → ∃ events, t.mouse.trace = s.mouse.trace ++ events ∧
        ∀ a right, .attempt a ∈ events → a.action = .down right →
          ∃ event answers, label = .event event answers ∧ s.Presses event answers a := by
  have agrees := run_agrees (create_agrees failure free answers) ran
  refine ⟨?_, agrees.slot, agrees.accounts.nodup, agrees.accounts.settled, ?_⟩
  · rw [agrees.holds]
  · intro label t taken
    exact (step_keeps agrees taken).extended

namespace ProgramMouse

theorem lit_ready : MouseDestination.Ready { config := { enabled := true }, socket := some 5 } :=
  fun _ => ⟨rfl, by decide⟩

/-- The inputs are on, and one of their pictures fills the Program. -/
def litReturn : MouseReturn :=
  ({} : MouseReturn).activate (fun _ => none) (some fun _ => ⟨_, lit_ready⟩)

def litAnswers : Answers where
  layout := [[⟨7, "OBSQTDisplay"⟩]]
  pixels := (660, 380)
  canvas := some (1280, 720)
  output := some 3
  hit _ _ _ := { slot := 0, x := 10, y := 20, width := 640, height := 360 }
  video _ := { width := 640, height := 360 }
  receiving _ := true

/-- A left press in the middle of the picture. -/
def litPress : QtEvent where
  type := .mouseButtonPress
  object := 7
  button := .left
  control := true
  position := (330, 190)

end ProgramMouse

open ProgramMouse in
theorem program_mouse_agrees_press :
    ∃ s, run (step fun _ => none) (create (fun _ => none) litReturn litAnswers)
        [.event litPress litAnswers] = some s ∧ s.heldScene.isSome = true ∧
      s.mouse.heldSlot.isSome = true ∧ s.ledger.obtained.Nodup := by
  have shown : (run (step fun _ => none) (create (fun _ => none) litReturn litAnswers)
      [.event litPress litAnswers]).any (fun s => s.heldScene.isSome) = true := by decide +kernel
  obtain ⟨s, ran, held⟩ := (Option.any_eq_true _ _).mp shown
  obtain ⟨same, _, once, _⟩ := program_mouse_agrees (fun _ => none) litReturn rfl litAnswers _ s ran
  exact ⟨s, ran, held, same.mp held, once⟩

end VbanStream
