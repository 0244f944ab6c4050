import VbanStream.Video.CaptureGate
import VbanStream.Video.Fidelity

namespace VbanStream

open Library

namespace FrameSender

namespace Session

variable {s t : Session}

theorem recorded_run {labels : List Label} (ran : run advance s labels = some t) (j : Journal) :
    ∃ k, run Recorded.step ⟨s, j⟩ labels = some ⟨t, k⟩ := by
  induction labels generalizing s j with
  | nil => cases ran; exact ⟨j, rfl⟩
  | cons label rest ih =>
    obtain ⟨next, taken, later⟩ := run_cons.mp ran
    obtain ⟨⟨_, events⟩, stepped, rfl⟩ := Option.map_eq_some_iff.mp taken
    obtain ⟨k, recorded⟩ := ih later (events.foldl Journal.note j)
    refine ⟨k, run_cons.mpr ⟨_, ?_, recorded⟩⟩
    rw [Recorded.step, stepped, Option.map_some]

theorem reachable_slots {output : OutputSession} {sequence : UInt32}
    (reached : Reachable advance (start output sequence) s) : ∃ j, s.Slots j := by
  obtain ⟨labels, ran⟩ := reached
  obtain ⟨k, recorded⟩ := recorded_run ran {}
  have inv := run_invariant Recorded.step_invariant (invariant_start output sequence) recorded
  exact ⟨k, inv.slots⟩

theorem vacant_isSome (s : Session) : ∃ index, s.vacant = some index := by
  rw [vacant]
  cases s.pending with
  | some index => exact ⟨index, rfl⟩
  | none =>
    generalize s.busy = busy
    generalize s.previous = previous
    revert busy previous
    decide

theorem advance_pixels {label : Label} (taken : s.advance label = some t) {index : Fin 3}
    (apart : ∀ copied rgba stride row, s.producer = .copying copied rgba stride row →
      copied ≠ index) : t.pixels index = s.pixels index := by
  obtain ⟨⟨_, events⟩, stepped, rfl⟩ := Option.map_eq_some_iff.mp taken
  cases label with
  | capture rgba stride timestamp owns =>
    rw [step] at stepped
    split at stepped
    · cases stepped
    · cases stepped
      obtain ⟨dropped, next, previous, left_ | ⟨copied, memory, _, begun⟩⟩ :=
        s.capture_cases rgba stride timestamp owns
      · rw [left_]
      · rw [begun]
  | produce now =>
    rw [step, produce] at stepped
    split at stepped
    · cases stepped
    · rename_i copied rgba stride row place
      split at stepped
      · cases stepped
        exact Function.update_of_ne (apart copied rgba stride row place).symm _ _
      · cases stepped
        rfl
  | work now written => exact congrFun (congrArg Prod.snd (work_frame stepped)) index
  | transmit attempts threw => exact congrFun (congrArg Prod.snd (transmit_frame stepped)) index
  | requestStop =>
    rw [step] at stepped
    split at stepped
    · cases stepped
    · cases stepped
      rfl

theorem pixels_kept {output : OutputSession} {sequence : UInt32}
    (reached : Reachable advance (start output sequence) s) {label : Label}
    (taken : s.advance label = some t) {index : Fin 3}
    (used : s.busy = some index ∨ s.previous = some index) :
    t.pixels index = s.pixels index := by
  obtain ⟨j, slots⟩ := reachable_slots reached
  apply advance_pixels taken
  rintro copied rgba stride row place rfl
  obtain ⟨busy, previous, _⟩ := slots.copied copied rgba stride row place
  rcases used with used | used
  · exact busy used
  · exact previous used

theorem replaceStale_copies (s : Session) (rgba : Memory) (stride : UInt32) :
    ∃ index, (s.replaceStale rgba stride).producer = .copying index rgba stride 0 := by
  obtain ⟨index, vacant⟩ := (if s.pending.isSome then s.drop else s).vacant_isSome
  exact ⟨index, by simp only [replaceStale, vacant]⟩

/-- A buffer keeps its pixels for as long as it stays the previous one. -/
theorem previous_kept {output : OutputSession} {sequence : UInt32}
    (reached : Reachable advance (start output sequence) s) {labels : List Label}
    (ran : run advance s labels = some t) {index : Fin 3}
    (stays : ∀ front back m, labels = front ++ back → run advance s front = some m →
      m.previous = some index) : t.pixels index = s.pixels index := by
  induction labels generalizing s with
  | nil => cases ran; rfl
  | cons label rest ih =>
    obtain ⟨next, taken, later⟩ := run_cons.mp ran
    have one : run advance s [label] = some next := run_cons.mpr ⟨next, taken, rfl⟩
    rw [← pixels_kept reached taken (.inr (stays [] _ s rfl rfl))]
    obtain ⟨before, arrived⟩ := reached
    apply ih ⟨before ++ [label], run_append.mpr ⟨s, arrived, one⟩⟩ later
    intro front back m same passed
    exact stays (label :: front) back m (by rw [same, List.cons_append])
      (run_cons.mpr ⟨next, taken, passed⟩)

/-- In every order of the threads' steps, whatever the encoder answers: the pending buffer
and the one that is being written are neither busy nor previous; a capture always finds a
buffer; no step changes a buffer that is busy or previous; so the previous buffer keeps its
pixels for as long as it stays previous. -/
theorem buffers_owned (output : OutputSession) (sequence : UInt32) (s : Session)
    (reached : Reachable advance (start output sequence) s) :
    (∀ index, s.pending = some index → s.busy ≠ some index ∧ s.previous ≠ some index) ∧
      (∀ index rgba stride row, s.producer = .copying index rgba stride row →
        s.busy ≠ some index ∧ s.previous ≠ some index) ∧
      (∀ timestamp rgba stride, ∃ index,
        ((s.paced timestamp).1.replaceStale rgba stride).producer =
          .copying index rgba stride 0) ∧
      (∀ label t, s.advance label = some t → ∀ index,
        s.busy = some index ∨ s.previous = some index → t.pixels index = s.pixels index) ∧
      ∀ labels t index, run advance s labels = some t →
        (∀ front back m, labels = front ++ back → run advance s front = some m →
          m.previous = some index) → t.pixels index = s.pixels index := by
  obtain ⟨j, slots⟩ := reachable_slots reached
  refine ⟨slots.apart, ?_, ?_, fun label t taken index used => pixels_kept reached taken used, ?_⟩
  · intro index rgba stride row place
    obtain ⟨busy, previous, _⟩ := slots.copied index rgba stride row place
    exact ⟨busy, previous⟩
  · intro timestamp rgba stride
    exact (s.paced timestamp).1.replaceStale_copies rgba stride
  · intro labels t index ran stays
    exact previous_kept reached ran stays

/-- One pixel has been encoded, and the next one is about to be copied. -/
def dotAgain : List Label :=
  Recorded.dotCapture 7 1000000000 ++ Recorded.dotWork 1000000000 (.image [1, 2]) 7 ++
    Recorded.dotCapture 8 3000000000 ++
    [.work 3000000000 (.image []), .capture (some fun _ => 9) 4 5000000000 true]

theorem buffers_owned_dot :
    ∃ s, Reachable advance (start Recorded.dot 0) s ∧ s.previous = some 0 ∧ s.busy = some 1 ∧
      ∀ label t, s.advance label = some t → t.pixels 0 = s.pixels 0 := by
  have shown : (run advance (start Recorded.dot 0) dotAgain).any (fun s =>
      s.previous == some 0 && s.busy == some 1) = true := by decide +kernel
  obtain ⟨s, ran, seen⟩ := (Option.any_eq_true _ _).mp shown
  rw [Bool.and_eq_true, beq_iff_eq, beq_iff_eq] at seen
  have reached : Reachable advance (start Recorded.dot 0) s := ⟨dotAgain, ran⟩
  obtain ⟨_, _, _, kept, _⟩ := buffers_owned Recorded.dot 0 s reached
  exact ⟨s, reached, seen.1, seen.2, fun label t taken => kept label t taken 0 (.inr seen.1)⟩

end Session

end FrameSender

end VbanStream
