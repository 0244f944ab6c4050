import VbanStream.Mouse.MouseReturn

namespace VbanStream

open Library

namespace MouseAction

@[simp] theorem down_inj {first second : Bool} : down first = down second ↔ first = second := by
  cases first <;> cases second <;> decide

@[simp] theorem up_inj {first second : Bool} : up first = up second ↔ first = second := by
  cases first <;> cases second <;> decide

@[simp] theorem up_ne_down (first second : Bool) : up first ≠ down second := by
  cases first <;> cases second <;> decide

@[simp] theorem move_ne_down (right : Bool) : move ≠ down right := by
  cases right <;> decide

@[simp] theorem move_ne_up (right : Bool) : move ≠ up right := by
  cases right <;> decide

end MouseAction

/-- The command travels as a packet with coordinates that the protocol has. -/
def MouseAttempt.Built (a : MouseAttempt) : Prop :=
  (0 ≤ a.x ∧ a.x ≤ 4095) ∧ (0 ≤ a.y ∧ a.y ≤ 4095) ∧ a.packet.bytes ≠ [] ∧
    ∃ sequence, a.packet.bytes = mousePacket a.packet.name sequence a.action a.x a.y

namespace MouseEvent

/-- A move to the slot. -/
def Drags (i : Fin videoSlotCount) (e : MouseEvent) : Prop :=
  ∃ a, e = .attempt a ∧ a.slot = i ∧ a.action = .move

/-- A button-up to the slot. -/
def Lifts (i : Fin videoSlotCount) (right : Bool) (e : MouseEvent) : Prop :=
  ∃ a, e = .attempt a ∧ a.slot = i ∧ a.action = .up right

/-- Where a move that was sent has left the pointer. -/
def pointer : MouseEvent → Option (Fin videoSlotCount × Int × Int)
  | .attempt a => if a.action = .move ∧ a.sent = true then some (a.slot, a.x, a.y) else none
  | .replaced | .destroyed => none

theorem Lifts.pointer {i : Fin videoSlotCount} {right : Bool} {e : MouseEvent}
    (lifts : e.Lifts i right) : e.pointer = none := by
  obtain ⟨a, rfl, _, action⟩ := lifts
  have other : a.action ≠ .move := by
    rw [action]
    exact (MouseAction.move_ne_up right).symm
  simp [MouseEvent.pointer, other]

end MouseEvent

/-- The last move that was sent. -/
def lastMove (trace : List MouseEvent) : Option (Fin videoSlotCount × Int × Int) :=
  (trace.filterMap MouseEvent.pointer).getLast?

theorem lastMove_append (trace : List MouseEvent) (e : MouseEvent) :
    lastMove (trace ++ [e]) = e.pointer.or (lastMove trace) := by
  cases moved : e.pointer with
  | none => simp [lastMove, moved]
  | some place => simp [lastMove, moved]

theorem lastMove_lifts {trace ups : List MouseEvent} {i : Fin videoSlotCount} {right : Bool}
    (lifts : ∀ e ∈ ups, e.Lifts i right) : lastMove (trace ++ ups) = lastMove trace := by
  have still : ups.filterMap MouseEvent.pointer = [] :=
    List.filterMap_eq_nil_iff.mpr fun e member => (lifts e member).pointer
  simp [lastMove, still]

/-- The traces that leave no button down, or the given one: a button goes down
while none is, moves stay on its slot, and three ups release it. -/
inductive Orderly : Option (Fin videoSlotCount × Bool) → List MouseEvent → Prop where
  | start : Orderly none []
  | replaced {trace : List MouseEvent} (before : Orderly none trace) :
      Orderly none (trace ++ [.replaced])
  | destroyed {trace : List MouseEvent} (before : Orderly none trace) :
      Orderly none (trace ++ [.destroyed])
  | moved {trace : List MouseEvent} {a : MouseAttempt} (before : Orderly none trace)
      (moves : a.action = .move) : Orderly none (trace ++ [.attempt a])
  | pressed {trace : List MouseEvent} {a : MouseAttempt} {right : Bool}
      (before : Orderly none trace) (presses : a.action = .down right) :
      Orderly (some (a.slot, right)) (trace ++ [.attempt a])
  | dragged {trace : List MouseEvent} {e : MouseEvent} {i : Fin videoSlotCount} {right : Bool}
      (before : Orderly (some (i, right)) trace) (drags : e.Drags i) :
      Orderly (some (i, right)) (trace ++ [e])
  | released {trace ups : List MouseEvent} {i : Fin videoSlotCount} {right : Bool}
      (before : Orderly (some (i, right)) trace) (three : ups.length = 3)
      (lifts : ∀ e ∈ ups, e.Lifts i right)
      (built : ∀ a, .attempt a ∈ ups → a.Built ∧ lastMove trace = some (a.slot, a.x, a.y)) :
      Orderly none (trace ++ ups)

/-- An event of an extended trace lies in the old part or in the new one. -/
theorem split_append {α : Type*} {first second front back : List α} {value : α}
    (same : first ++ second = front ++ value :: back) :
    (∃ middle, first = front ++ value :: middle ∧ back = middle ++ second) ∨
      ∃ middle, front = first ++ middle ∧ second = middle ++ value :: back := by
  rcases List.append_eq_append_iff.mp same with ⟨middle, old, new⟩ | ⟨middle, old, new⟩
  · exact .inr ⟨middle, old, new⟩
  · cases middle with
    | nil =>
      refine .inr ⟨[], ?_, ?_⟩
      · simpa using old.symm
      · simpa using new.symm
    | cons head rest =>
      obtain ⟨rfl, rfl⟩ := List.cons.inj new
      exact .inl ⟨rest, old, rfl⟩

theorem split_singleton {α : Type*} {first front back : List α} {last value : α}
    (same : first ++ [last] = front ++ value :: back) :
    (∃ middle, first = front ++ value :: middle ∧ back = middle ++ [last]) ∨
      front = first ∧ value = last ∧ back = [] := by
  rcases split_append same with inside | ⟨middle, old, new⟩
  · exact .inl inside
  · cases middle with
    | nil =>
      obtain ⟨rfl, rfl⟩ := List.cons.inj new
      exact .inr ⟨by simpa using old, rfl, rfl⟩
    | cons head rest => simp at new

namespace Orderly

/-- A button that is down went down with an event of the trace, and only moves
of its slot have come since. -/
theorem since_down {i : Fin videoSlotCount} {right : Bool} {trace : List MouseEvent}
    (orderly : Orderly (some (i, right)) trace) :
    ∃ start d moves, trace = start ++ .attempt d :: moves ∧ d.slot = i ∧
      d.action = .down right ∧ ∀ e ∈ moves, e.Drags i := by
  generalize held : some (i, right) = state at orderly
  induction orderly with
  | start | replaced | destroyed | moved | released => cases held
  | @pressed trace a right before presses =>
    cases held
    exact ⟨trace, a, [], rfl, rfl, presses, by simp⟩
  | @dragged trace e i right before drags ih =>
    cases held
    obtain ⟨start, d, moves, rfl, slot, action, only⟩ := ih rfl
    refine ⟨start, d, moves ++ [e], by simp, slot, action, ?_⟩
    intro other member
    rcases List.mem_append.mp member with old | new
    · exact only other old
    · rw [List.mem_singleton.mp new]
      exact drags

/-- What follows a button-down: moves of its slot, then nothing yet or three ups. -/
def Answered (held : Option (Fin videoSlotCount × Bool)) (i : Fin videoSlotCount) (right : Bool)
    (back : List MouseEvent) : Prop :=
  ∃ moves rest, back = moves ++ rest ∧ (∀ e ∈ moves, e.Drags i) ∧
    (rest = [] ∧ held = some (i, right) ∨
      ∃ ups later, rest = ups ++ later ∧ ups.length = 3 ∧ ∀ e ∈ ups, e.Lifts i right)

theorem Answered.later {i : Fin videoSlotCount} {right : Bool} {back : List MouseEvent}
    (answered : Answered none i right back) (held : Option (Fin videoSlotCount × Bool))
    (events : List MouseEvent) : Answered held i right (back ++ events) := by
  obtain ⟨moves, rest, rfl, drags, ⟨_, absent⟩ | ⟨ups, later, rfl, three, lifts⟩⟩ := answered
  · cases absent
  · exact ⟨moves, ups ++ (later ++ events), by simp, drags,
      .inr ⟨ups, later ++ events, rfl, three, lifts⟩⟩

theorem answered {held : Option (Fin videoSlotCount × Bool)} {trace : List MouseEvent}
    (orderly : Orderly held trace) {front back : List MouseEvent} {a : MouseAttempt} {right : Bool}
    (found : trace = front ++ .attempt a :: back) (presses : a.action = .down right) :
    Answered held a.slot right back := by
  induction orderly generalizing back with
  | start => simp at found
  | replaced before ih =>
    rcases split_singleton found with ⟨middle, old, rfl⟩ | ⟨_, same, _⟩
    · exact (ih old).later none _
    · cases same
  | destroyed before ih =>
    rcases split_singleton found with ⟨middle, old, rfl⟩ | ⟨_, same, _⟩
    · exact (ih old).later none _
    · cases same
  | moved before moves ih =>
    rcases split_singleton found with ⟨middle, old, rfl⟩ | ⟨_, same, _⟩
    · exact (ih old).later none _
    · cases same
      rw [moves] at presses
      exact absurd presses (MouseAction.move_ne_down right)
  | pressed before down ih =>
    rcases split_singleton found with ⟨middle, old, rfl⟩ | ⟨_, same, rfl⟩
    · exact (ih old).later _ _
    · cases same
      obtain rfl := MouseAction.down_inj.mp (presses.symm.trans down)
      exact ⟨[], [], rfl, by simp, .inl ⟨rfl, rfl⟩⟩
  | @dragged _ e _ _ before drags ih =>
    rcases split_singleton found with ⟨middle, old, rfl⟩ | ⟨_, same, _⟩
    · obtain ⟨moves, rest, rfl, only, ⟨rfl, holding⟩ | ⟨ups, later, rfl, three, lifts⟩⟩ := ih old
      · cases holding
        refine ⟨moves ++ [e], [], by simp, ?_, .inl ⟨rfl, rfl⟩⟩
        intro other member
        rcases List.mem_append.mp member with early | new
        · exact only other early
        · rw [List.mem_singleton.mp new]
          exact drags
      · exact ⟨moves, ups ++ (later ++ [e]), by simp, only,
          .inr ⟨ups, later ++ [e], rfl, three, lifts⟩⟩
    · obtain ⟨b, rfl, _, moves⟩ := drags
      cases same
      rw [moves] at presses
      exact absurd presses (MouseAction.move_ne_down right)
  | @released _ ups _ _ before three lifts built ih =>
    rcases split_append found with ⟨middle, old, rfl⟩ | ⟨middle, _, new⟩
    · obtain ⟨moves, rest, rfl, only, ⟨rfl, holding⟩ | ⟨earlier, later, rfl, count, raised⟩⟩ :=
        ih old
      · cases holding
        exact ⟨moves, ups, by simp, only, .inr ⟨ups, [], by simp, three, lifts⟩⟩
      · exact ⟨moves, earlier ++ (later ++ ups), by simp, only,
          .inr ⟨earlier, later ++ ups, rfl, count, raised⟩⟩
    · obtain ⟨b, same, _, action⟩ := lifts (.attempt a) (by rw [new]; simp)
      cases same
      rw [presses] at action
      exact absurd action.symm (MouseAction.up_ne_down _ _)

/-- Before a button-up: its button-down, moves of the slot, and at most two ups. -/
def Justified (i : Fin videoSlotCount) (right : Bool) (front : List MouseEvent) : Prop :=
  ∃ start d moves ups, front = start ++ .attempt d :: (moves ++ ups) ∧ d.slot = i ∧
    d.action = .down right ∧ (∀ e ∈ moves, e.Drags i) ∧ ups.length < 3 ∧
    ∀ e ∈ ups, e.Lifts i right

theorem justified {held : Option (Fin videoSlotCount × Bool)} {trace : List MouseEvent}
    (orderly : Orderly held trace) {front back : List MouseEvent} {a : MouseAttempt} {right : Bool}
    (found : trace = front ++ .attempt a :: back) (raises : a.action = .up right) :
    Justified a.slot right front ∧ a.Built ∧ lastMove front = some (a.slot, a.x, a.y) := by
  induction orderly generalizing back with
  | start => simp at found
  | replaced before ih =>
    rcases split_singleton found with ⟨middle, old, rfl⟩ | ⟨_, same, _⟩
    · exact ih old
    · cases same
  | destroyed before ih =>
    rcases split_singleton found with ⟨middle, old, rfl⟩ | ⟨_, same, _⟩
    · exact ih old
    · cases same
  | moved before moves ih =>
    rcases split_singleton found with ⟨middle, old, rfl⟩ | ⟨_, same, _⟩
    · exact ih old
    · cases same
      rw [moves] at raises
      exact absurd raises (MouseAction.move_ne_up right)
  | pressed before down ih =>
    rcases split_singleton found with ⟨middle, old, rfl⟩ | ⟨_, same, rfl⟩
    · exact ih old
    · cases same
      rw [down] at raises
      exact absurd raises.symm (MouseAction.up_ne_down _ _)
  | dragged before drags ih =>
    rcases split_singleton found with ⟨middle, old, rfl⟩ | ⟨_, same, _⟩
    · exact ih old
    · obtain ⟨b, rfl, _, moves⟩ := drags
      cases same
      rw [moves] at raises
      exact absurd raises (MouseAction.move_ne_up right)
  | @released trace ups i other before three lifts built ih =>
    rcases split_append found with ⟨middle, old, rfl⟩ | ⟨earlier, rfl, new⟩
    · exact ih old
    · have member : .attempt a ∈ ups := by
        rw [new]
        simp
      have raised : ∀ e ∈ earlier, e.Lifts i other := by
        intro e inside
        apply lifts
        rw [new]
        exact List.mem_append_left _ inside
      obtain ⟨sound, place⟩ := built a member
      obtain ⟨b, same, slot, action⟩ := lifts (.attempt a) member
      cases same
      obtain rfl := MouseAction.up_inj.mp (raises.symm.trans action)
      obtain ⟨start, d, moves, rfl, target, down, only⟩ := before.since_down
      refine ⟨⟨start, d, moves, earlier, by simp, slot ▸ target, down, slot ▸ only, ?_,
        slot ▸ raised⟩, sound, ?_⟩
      · rw [new] at three
        simp at three
        omega
      · rw [lastMove_lifts raised, place]

end Orderly

namespace MouseReturn

/-- Commands with these coordinates reach the slot's socket. -/
def Sends (s : MouseReturn) (i : Fin videoSlotCount) (x y : Int) : Prop :=
  ∃ routing, s.routing = some routing ∧ (routing i).val.config.enabled = true ∧
    (0 ≤ x ∧ x ≤ 4095) ∧ 0 ≤ y ∧ y ≤ 4095

/-- The button that is down. -/
def holding (s : MouseReturn) : Option (Fin videoSlotCount × Bool) :=
  s.heldSlot.map fun i => (i, s.right)

/-- All that a send leaves alone. -/
structure Frame (s next : MouseReturn) : Prop where
  routing : next.routing = s.routing
  heldSlot : next.heldSlot = s.heldSlot
  right : next.right = s.right
  x : next.x = s.x
  y : next.y = s.y

theorem Frame.holding {s next : MouseReturn} (frame : Frame s next) :
    next.holding = s.holding := by
  rw [MouseReturn.holding, MouseReturn.holding, frame.heldSlot, frame.right]

theorem Frame.sends {s next : MouseReturn} (frame : Frame s next) {i : Fin videoSlotCount}
    {x y : Int} : next.Sends i x y ↔ s.Sends i x y := by
  rw [Sends, Sends, frame.routing]

theorem Frame.trans {first second third : MouseReturn} (early : Frame first second)
    (late : Frame second third) : Frame first third where
  routing := late.routing.trans early.routing
  heldSlot := late.heldSlot.trans early.heldSlot
  right := late.right.trans early.right
  x := late.x.trans early.x
  y := late.y.trans early.y

variable {failure : Nat → Option Int}

/-- A send attempts one built command where commands can be sent, and otherwise
leaves the trace as it is. -/
theorem send_cases {s next : MouseReturn} {i : Fin videoSlotCount} {action : MouseAction}
    {x y : Int} {sent : Bool} (taken : s.send failure i action x y = (next, sent)) :
    Frame s next ∧
      ((¬ s.Sends i x y ∧ sent = false ∧ next.trace = s.trace) ∨
        ∃ packet, s.Sends i x y ∧ (MouseAttempt.mk i action x y packet sent).Built ∧
          next.trace = s.trace ++ [.attempt ⟨i, action, x, y, packet, sent⟩]) := by
  rw [send.eq_def] at taken
  split at taken
  · rename_i route
    cases taken
    refine ⟨⟨rfl, rfl, rfl, rfl, rfl⟩, .inl ⟨?_, rfl, rfl⟩⟩
    rintro ⟨routing, found, _⟩
    cases route.symm.trans found
  · rename_i routing route
    have ready := (routing i).property
    dsimp only at taken
    split at taken
    · rename_i closed
      cases taken
      refine ⟨⟨rfl, rfl, rfl, rfl, rfl⟩, .inl ⟨?_, rfl, rfl⟩⟩
      rintro ⟨other, found, enabled, _⟩
      cases route.symm.trans found
      have opened := (ready enabled).1
      rcases closed with off | none
      · rw [enabled] at off
        cases off
      · rw [none] at opened
        cases opened
    · rename_i opened
      have enabled : (routing i).val.config.enabled = true := by
        simpa using (not_or.mp opened).1
      split at taken
      · rename_i empty
        cases taken
        refine ⟨⟨rfl, rfl, rfl, rfl, rfl⟩, .inl ⟨?_, rfl, rfl⟩⟩
        rintro ⟨other, found, _, inside⟩
        cases route.symm.trans found
        exact mousePacket_built.mpr ⟨(ready enabled).2, inside⟩ empty
      · rename_i built
        have inside := (mousePacket_built.mp built).2
        split at taken
        · cases taken
          exact ⟨⟨rfl, rfl, rfl, rfl, rfl⟩, .inr ⟨_, ⟨routing, route, enabled, inside⟩,
            ⟨inside.1, inside.2, built, _, rfl⟩, rfl⟩⟩
        · cases taken
          exact ⟨⟨rfl, rfl, rfl, rfl, rfl⟩, .inr ⟨_, ⟨routing, route, enabled, inside⟩,
            ⟨inside.1, inside.2, built, _, rfl⟩, rfl⟩⟩

/-- A send whose command can be built is an attempt. -/
theorem send_attempts {s next : MouseReturn} {i : Fin videoSlotCount} {action : MouseAction}
    {x y : Int} {sent : Bool} (sends : s.Sends i x y)
    (taken : s.send failure i action x y = (next, sent)) :
    Frame s next ∧ ∃ packet, (MouseAttempt.mk i action x y packet sent).Built ∧
      next.trace = s.trace ++ [.attempt ⟨i, action, x, y, packet, sent⟩] := by
  obtain ⟨frame, ⟨silent, _⟩ | ⟨packet, _, built, traced⟩⟩ := send_cases taken
  · exact absurd sends silent
  · exact ⟨frame, packet, built, traced⟩

/-- The trace so far, and the command that a release would repeat. -/
structure Sound (s : MouseReturn) : Prop where
  orderly : Orderly s.holding s.trace
  ready : ∀ i, s.heldSlot = some i →
    s.Sends i s.x s.y ∧ lastMove s.trace = some (i, s.x, s.y)

theorem releaseLocked_sound (failure : Nat → Option Int) {s : MouseReturn} (sound : s.Sound) :
    (s.releaseLocked failure).heldSlot = none ∧
      Orderly none (s.releaseLocked failure).trace ∧
      (s.releaseLocked failure).routing = s.routing := by
  have orderly := sound.orderly
  rw [releaseLocked.eq_def]
  split
  · rename_i free
    rw [holding, free] at orderly
    exact ⟨free, orderly, rfl⟩
  · rename_i i held
    obtain ⟨sends, place⟩ := sound.ready i held
    rw [holding, held] at orderly
    rcases first : s.send failure i (.up s.right) s.x s.y with ⟨s₁, sent₁⟩
    obtain ⟨frame₁, packet₁, built₁, trace₁⟩ := send_attempts sends first
    rcases second : s₁.send failure i (.up s₁.right) s₁.x s₁.y with ⟨s₂, sent₂⟩
    rw [frame₁.right, frame₁.x, frame₁.y] at second
    obtain ⟨frame₂, packet₂, built₂, trace₂⟩ := send_attempts (frame₁.sends.mpr sends) second
    have frame := frame₁.trans frame₂
    rcases third : s₂.send failure i (.up s₂.right) s₂.x s₂.y with ⟨s₃, sent₃⟩
    rw [frame.right, frame.x, frame.y] at third
    obtain ⟨frame₃, packet₃, built₃, trace₃⟩ := send_attempts (frame.sends.mpr sends) third
    refine ⟨rfl, ?_, ?_⟩
    · have released : Orderly none (s.trace ++ [
          .attempt ⟨i, .up s.right, s.x, s.y, packet₁, sent₁⟩,
          .attempt ⟨i, .up s.right, s.x, s.y, packet₂, sent₂⟩,
          .attempt ⟨i, .up s.right, s.x, s.y, packet₃, sent₃⟩]) :=
        orderly.released rfl (by simp [MouseEvent.Lifts]) (by simp [built₁, built₂, built₃, place])
      simpa [first, second, third, setDragging, trace₁, trace₂, trace₃, frame₁.right, frame₁.x,
        frame₁.y, frame.right, frame.x, frame.y] using released
    · simpa [first, second, third, setDragging, frame₁.right, frame₁.x, frame₁.y,
        frame.right, frame.x, frame.y] using (frame.trans frame₃).routing

theorem sound_of_free {s : MouseReturn} (free : s.heldSlot = none)
    (orderly : Orderly none s.trace) : s.Sound where
  orderly := by
    rw [holding, free]
    exact orderly
  ready i held := by
    rw [free] at held
    cases held

theorem send_move_free {s next : MouseReturn} {i : Fin videoSlotCount} {x y : Int} {sent : Bool}
    (free : s.heldSlot = none) (orderly : Orderly none s.trace)
    (taken : s.send failure i .move x y = (next, sent)) :
    next.heldSlot = none ∧ Orderly none next.trace ∧
      (sent = true → next.Sends i x y ∧ lastMove next.trace = some (i, x, y)) := by
  obtain ⟨frame, ⟨_, rfl, traced⟩ | ⟨packet, sends, _, traced⟩⟩ := send_cases taken
  · rw [frame.heldSlot, traced]
    exact ⟨free, orderly, nofun⟩
  · rw [frame.heldSlot, traced]
    refine ⟨free, orderly.moved rfl, ?_⟩
    rintro rfl
    refine ⟨frame.sends.mpr sends, ?_⟩
    rw [lastMove_append]
    rfl

theorem send_move_held {s next : MouseReturn} {i : Fin videoSlotCount} {x y : Int} {sent : Bool}
    (sound : s.Sound) (held : s.heldSlot = some i)
    (taken : s.send failure i .move x y = (next, sent)) :
    (sent = false → next.Sound) ∧ (sent = true → { next with x, y }.Sound) := by
  have orderly := sound.orderly
  rw [holding, held] at orderly
  obtain ⟨sends, place⟩ := sound.ready i held
  obtain ⟨frame, ⟨_, rfl, traced⟩ | ⟨packet, sends', _, traced⟩⟩ := send_cases taken
  · refine ⟨fun _ => ⟨?_, ?_⟩, nofun⟩
    · rw [frame.holding, traced]
      exact sound.orderly
    · intro j held'
      rw [frame.heldSlot] at held'
      rw [frame.sends, frame.x, frame.y, traced]
      exact sound.ready j held'
  · have dragged : Orderly (some (i, s.right)) next.trace := by
      rw [traced]
      exact orderly.dragged ⟨_, rfl, rfl, rfl⟩
    have still : next.holding = some (i, s.right) := by
      rw [frame.holding, holding, held]
      rfl
    have same : ∀ j, next.heldSlot = some j → j = i := by
      intro j held'
      rw [frame.heldSlot, held] at held'
      exact (Option.some.inj held').symm
    refine ⟨?_, ?_⟩
    · rintro rfl
      refine ⟨still ▸ dragged, ?_⟩
      intro j held'
      obtain rfl := same j held'
      rw [frame.sends, frame.x, frame.y, traced, lastMove_append]
      exact ⟨sends, place⟩
    · rintro rfl
      refine ⟨?_, ?_⟩
      · change Orderly next.holding next.trace
        exact still ▸ dragged
      · intro j held'
        obtain rfl := same j held'
        refine ⟨frame.sends.mpr sends', ?_⟩
        change lastMove next.trace = _
        rw [traced, lastMove_append]
        rfl

theorem press_sound {s : MouseReturn} (sound : s.Sound) (slot : Nat) (right : Bool) (x y : Int) :
    (s.press failure slot right x y).1.Sound := by
  obtain ⟨free, orderly, _⟩ := releaseLocked_sound failure sound
  rw [press]
  dsimp only
  split
  · exact sound_of_free free orderly
  · rename_i i _
    rcases moved : (s.releaseLocked failure).send failure i .move x y with ⟨next, sent⟩
    obtain ⟨free, orderly, ready⟩ := send_move_free free orderly moved
    cases sent with
    | false => exact sound_of_free free orderly
    | true =>
      obtain ⟨sends, place⟩ := ready rfl
      set held := { next with heldSlot := some i, right, x, y }.setDragging i true with heldEq
      have sends : held.Sends i x y := sends
      have place : lastMove held.trace = some (i, held.x, held.y) := place
      rcases pressed : held.send failure i (.down right) x y with ⟨last, sent⟩
      obtain ⟨frame, packet, _, traced⟩ := send_attempts sends pressed
      have sound : last.Sound := by
        refine ⟨?_, ?_⟩
        · rw [frame.holding, traced]
          exact orderly.pressed (a := ⟨i, .down right, x, y, packet, sent⟩) rfl
        · intro j found
          rw [frame.heldSlot] at found
          cases found
          rw [frame.sends, frame.x, frame.y, traced, lastMove_append]
          refine ⟨sends, ?_⟩
          have other : (MouseAction.down right = .move) = False :=
            eq_false (MouseAction.move_ne_down right).symm
          simpa [MouseEvent.pointer, other] using place
      cases sent with
      | false =>
        obtain ⟨free, orderly, _⟩ := releaseLocked_sound failure sound
        simpa [moved, ← heldEq, pressed] using sound_of_free free orderly
      | true => simpa [moved, ← heldEq, pressed] using sound

theorem move_sound {s : MouseReturn} (sound : s.Sound) (slot : Nat) (x y : Int) :
    (s.move failure slot x y).1.Sound := by
  obtain ⟨free, orderly, _⟩ := releaseLocked_sound failure sound
  rw [move]
  split
  · exact sound
  · rename_i unheld
    split
    · exact sound_of_free free orderly
    · rename_i i found
      rcases moved : s.send failure i .move x y with ⟨next, sent⟩
      cases held : s.heldSlot with
      | none =>
        have before := sound.orderly
        rw [holding, held] at before
        obtain ⟨free, orderly, _⟩ := send_move_free held before moved
        cases sent with
        | false =>
          obtain ⟨free, orderly, _⟩ :=
            releaseLocked_sound failure (sound_of_free free orderly)
          exact sound_of_free free orderly
        | true => exact sound_of_free free orderly
      | some j =>
        have same : j = i := by
          rw [slotIndex] at found
          split at found
          · cases found
            apply Fin.ext
            simpa [held] using unheld
          · cases found
        subst same
        obtain ⟨failed, worked⟩ := send_move_held sound held moved
        cases sent with
        | false =>
          obtain ⟨free, orderly, _⟩ := releaseLocked_sound failure (failed rfl)
          exact sound_of_free free orderly
        | true => exact worked rfl

theorem perform_sound {s : MouseReturn} (sound : s.Sound) (operation : Operation) :
    (s.perform failure operation).Sound := by
  obtain ⟨free, orderly, _⟩ := releaseLocked_sound failure sound
  cases operation with
  | press slot right x y => exact press_sound sound slot right x y
  | move slot x y => exact move_sound sound slot x y
  | release => exact sound_of_free free orderly
  | activate next => exact sound_of_free free orderly.replaced
  | destroy => exact sound_of_free free orderly.destroyed

theorem after_sound (failure : Nat → Option Int) (operations : List Operation) :
    (after failure operations).Sound := by
  induction operations using List.reverseRecOn with
  | nil => exact sound_of_free rfl .start
  | append_singleton front operation ih =>
    rw [after, List.foldl_append]
    exact perform_sound ih operation

/-- Whatever is done and whichever sends fail: a button-down is answered by three
button-ups before anything else but moves of its slot; there are no others; and
each is built with the coordinates of the last move that was sent. -/
theorem buttons_always_released (failure : Nat → Option Int) (operations : List Operation) :
    let s := after failure operations
    ∀ front back a right, s.trace = front ++ .attempt a :: back →
      (a.action = .down right → Orderly.Answered s.holding a.slot right back) ∧
      (a.action = .up right → Orderly.Justified a.slot right front ∧ a.Built ∧
        lastMove front = some (a.slot, a.x, a.y)) := by
  intro s front back a right found
  have orderly := (after_sound failure operations).orderly
  exact ⟨orderly.answered found, orderly.justified found⟩

/-- A drag that leaves the coordinates of the protocol. -/
def leavingDrag : List Operation :=
  [.activate (some fun _ => ⟨{ config := { enabled := true }, socket := some 5 },
      fun _ => ⟨rfl, by decide⟩⟩),
    .press 0 false 10 20, .move 0 4096 20]

/-- One of its commands; an unbuilt one still takes a number. -/
def leavingAttempt (sequence : UInt32) (action : MouseAction) : MouseAttempt :=
  ⟨0, action, 10, 20, ⟨ascii "Command1", some 5, mousePacket (ascii "Command1") sequence action 10 20⟩,
    true⟩

theorem buttons_always_released_leaving :
    (after (fun _ => none) leavingDrag).trace =
        [.replaced, .attempt (leavingAttempt 0 .move)] ++ .attempt (leavingAttempt 1 .leftDown) ::
          [.attempt (leavingAttempt 3 .leftUp), .attempt (leavingAttempt 4 .leftUp),
            .attempt (leavingAttempt 5 .leftUp)] ∧
      Orderly.Answered (after (fun _ => none) leavingDrag).holding 0 false
        [.attempt (leavingAttempt 3 .leftUp), .attempt (leavingAttempt 4 .leftUp),
          .attempt (leavingAttempt 5 .leftUp)] := by
  have traced : (after (fun _ => none) leavingDrag).trace =
      [.replaced, .attempt (leavingAttempt 0 .move)] ++ .attempt (leavingAttempt 1 .leftDown) ::
        [.attempt (leavingAttempt 3 .leftUp), .attempt (leavingAttempt 4 .leftUp),
          .attempt (leavingAttempt 5 .leftUp)] := by
    decide +kernel
  exact ⟨traced, (buttons_always_released (fun _ => none) leavingDrag _ _ _ false traced).1 rfl⟩

end MouseReturn

end VbanStream
