import VbanStream.Video.FrameAssembler

namespace VbanStream.FrameAssembler

open Library

/-- The image shown last stays the same. -/
def SameShown (before after : FrameAssembler) : Prop :=
  after.haveCompleted = before.haveCompleted ∧ after.completedFrame = before.completedFrame ∧
    after.completedAt = before.completedAt

/-- The image a fragment is appended to: a new one, or the one in progress. -/
inductive Opening (a : FrameAssembler) (flags : UInt8) (index : UInt16) (frame : UInt32)
    (now : UInt64) : FrameAssembler → Prop where
  | fresh (first : flags &&& 1 ≠ 0) (zero : index = 0) (counters : FrameCounters) :
      Opening a flags index frame now { a with
        counters := counters, active := true, frame := frame, next := 0, started := now
        bytes := [] }
  | current (later : flags &&& 1 = 0) (active : a.active = true) (same : frame = a.frame)
      (next : index = a.next) : Opening a flags index frame now a

theorem Opening.shown {a o : FrameAssembler} {flags : UInt8} {index : UInt16} {frame : UInt32}
    {now : UInt64} (opening : Opening a flags index frame now o) : a.SameShown o := by
  cases opening with
  | fresh => exact ⟨rfl, rfl, rfl⟩
  | current => exact ⟨rfl, rfl, rfl⟩

/-- The four outcomes of a well-formed fragment. -/
inductive Assembled (a : FrameAssembler) (flags : UInt8) (index : UInt16) (frame : UInt32)
    (payload : List UInt8) (now : UInt64) : FrameAssembler → Option (List UInt8) → Prop where
  | kept (counters : FrameCounters) :
      Assembled a flags index frame payload now { a with counters := counters } none
  | dropped (idle : after.active = false) (shown : a.SameShown after) :
      Assembled a flags index frame payload now after none
  | extended (opening : Opening a flags index frame now o)
      (room : payload.length ≤ maxImageBytes - o.bytes.length) (more : flags &&& 4 = 0) :
      Assembled a flags index frame payload now
        { o with bytes := o.bytes ++ payload, next := o.next + 1 } none
  | completed (opening : Opening a flags index frame now o)
      (room : payload.length ≤ maxImageBytes - o.bytes.length) (last : flags &&& 4 ≠ 0)
      (current : a.outdated frame now = false) (idle : after.active = false)
      (shown : after.haveCompleted = true ∧ after.completedFrame = frame ∧
        after.completedAt = now) :
      Assembled a flags index frame payload now after (some (o.bytes ++ payload))

theorem discard_eq (a : FrameAssembler) :
    ∃ counters, a.discard = { a with counters := counters, active := false, bytes := [] } := by
  unfold discard
  split <;> exact ⟨_, rfl⟩

theorem discard_idle (a : FrameAssembler) :
    a.discard.active = false ∧ a.SameShown a.discard := by
  obtain ⟨counters, discarded⟩ := a.discard_eq
  rw [discarded]
  exact ⟨rfl, rfl, rfl, rfl⟩

theorem expire_cases (a : FrameAssembler) (now : UInt64) :
    (a.expire now = a ∧ (a.active = true → ¬ now - a.started > frameTimeoutNs)) ∨
      ((a.expire now).active = false ∧ a.SameShown (a.expire now)) := by
  unfold expire
  split
  · exact .inr a.discard_idle
  · rename_i running
    exact .inl ⟨rfl, fun active old => running ⟨active, old⟩⟩

/-- Appending to an image that may just have been opened. -/
theorem append_cases {a o : FrameAssembler} {flags : UInt8} {index : UInt16} {frame : UInt32}
    {payload : List UInt8} {now : UInt64} (current : a.outdated frame now = false)
    (shown : a.SameShown o) (opening : frame = o.frame → index = o.next → o.active = true →
      Opening a flags index frame now o)
    (stays : frame ≠ o.frame ∨ index ≠ o.next ∨ o.active = false → o = a) :
    Assembled a flags index frame payload now (o.append flags index frame payload now).1
      (o.append flags index frame payload now).2 := by
  have stop : Assembled a flags index frame payload now o.discard none := by
    obtain ⟨idle, kept⟩ := o.discard_idle
    exact .dropped idle ⟨kept.1.trans shown.1, kept.2.1.trans shown.2.1, kept.2.2.trans shown.2.2⟩
  unfold append
  by_cases idle : o.active = false
  · rw [if_pos idle, stays (.inr (.inr idle))]
    exact .kept a.counters
  · rw [if_neg idle]
    by_cases other : frame ≠ o.frame
    · rw [if_pos other]
      split
      · rw [stays (.inl other)]
        exact .kept _
      · exact stop
    · rw [if_neg other]
      by_cases gap : index ≠ o.next
      · rw [if_pos gap]
        split
        · rw [stays (.inr (.inl gap))]
          exact .kept _
        · exact stop
      · rw [if_neg gap]
        have opened := opening (not_not.mp other) (not_not.mp gap) (by simpa using idle)
        split
        · obtain ⟨empty, kept⟩ :=
            (o.count fun c => { c with invalid := c.invalid + 1 }).discard_idle
          exact .dropped empty
            ⟨kept.1.trans shown.1, kept.2.1.trans shown.2.1, kept.2.2.trans shown.2.2⟩
        · rename_i fits
          have room := Nat.le_of_not_lt fits
          dsimp only
          by_cases more : flags &&& 4 = 0
          · rw [if_pos more]
            exact .extended opened room more
          · rw [if_neg more]
            exact .completed opened room more current rfl ⟨rfl, rfl, rfl⟩

theorem assemble_cases (a : FrameAssembler) (flags : UInt8) (index : UInt16) (frame : UInt32)
    (payload : List UInt8) (now : UInt64) :
    Assembled a flags index frame payload now (a.assemble flags index frame payload now).1
      (a.assemble flags index frame payload now).2 := by
  unfold assemble
  by_cases outdated : a.outdated frame now = true
  · rw [if_pos outdated]
    exact .kept _
  · rw [if_neg outdated]
    have current : a.outdated frame now = false := by simpa using outdated
    split
    · exact .kept _
    · split
      · rename_i first
        by_cases start : index = 0
        · rw [if_neg (not_not.mpr start)]
          split
          · exact .kept _
          · obtain ⟨counters, discarded⟩ := a.discard_eq
            rw [discarded]
            apply append_cases current
            · exact ⟨rfl, rfl, rfl⟩
            · intro _ _ _
              exact .fresh first start counters
            · rintro (other | gap | idle)
              · exact absurd rfl other
              · exact absurd start gap
              · cases idle
        · rw [if_pos start]
          obtain ⟨idle, shown⟩ :=
            (a.count fun c => { c with invalid := c.invalid + 1 }).discard_idle
          exact .dropped idle shown
      · rename_i later
        exact append_cases current ⟨rfl, rfl, rfl⟩
          (fun same next active => .current (not_not.mp later) active same next) fun _ => rfl

end VbanStream.FrameAssembler
