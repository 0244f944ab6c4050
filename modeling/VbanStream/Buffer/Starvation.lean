import VbanStream.Buffer.Bounds

namespace VbanStream

open Library StreamBuffer

namespace StreamBuffer

/-- The samples that a visit appends to the queue. -/
def sound (b : StreamBuffer) : Visit → List ℚ
  | .played packet | .jumped packet => packet.samples
  | .concealed => List.replicate (b.previousFrames.toNat * b.format.outputChannels) 0

/-- The samples that the visits of one fill append to the queue. -/
def sounds : StreamBuffer → List Visit → List ℚ
  | _, [] => []
  | b, visit :: rest => b.sound visit ++ sounds (b.visit visit) rest

theorem visit_fifo (b : StreamBuffer) (visit : Visit) :
    (b.visit visit).fifo = b.fifo ++ b.sound visit := by
  cases visit <;> rfl

theorem visit_underruns (b : StreamBuffer) (visit : Visit) :
    (b.visit visit).counters.underruns = b.counters.underruns := by
  cases visit <;> rfl

theorem visit_pending {b : StreamBuffer} {visit : Visit} (found : b.nextVisit = some visit) :
    (∀ packet, visit = .played packet ∨ visit = .jumped packet → packet ∈ b.pending) ∧
      ∀ packet ∈ (b.visit visit).pending, packet ∈ b.pending := by
  have outcome := b.nextVisit_cases
  rw [found] at outcome
  cases outcome with
  | @played packet member here =>
    refine ⟨?_, fun other kept => ((mem_play here).mp kept).1⟩
    rintro other (⟨⟨⟩⟩ | ⟨⟨⟩⟩)
    exact member
  | concealed => exact ⟨by simp, fun _ kept => kept⟩
  | @jumped next absent member =>
    refine ⟨?_, fun other kept => (Keyed.mem_erase.mp kept).1⟩
    rintro other (⟨⟨⟩⟩ | ⟨⟨⟩⟩)
    exact member

/-- The queue after a fill is the queue before, then buffered packets and silence
in place of lost ones. -/
theorem filled_sounds {frames : Nat} {b after : StreamBuffer} {visits : List Visit} {ok : Bool}
    (filled : Filled frames b visits after ok) :
    after.fifo = b.fifo ++ sounds b visits ∧
      (∀ packet, .played packet ∈ visits ∨ .jumped packet ∈ visits → packet ∈ b.pending) ∧
      after.counters.underruns = b.counters.underruns := by
  induction filled with
  | enough | starved => simp [sounds]
  | @turn next visits after b ok short found _ ih =>
    obtain ⟨queue, played, underruns⟩ := ih
    obtain ⟨first, kept⟩ := visit_pending found
    refine ⟨?_, ?_, underruns.trans (visit_underruns _ _)⟩
    · rw [queue, visit_fifo, sounds, List.append_assoc]
    · intro packet member
      simp only [List.mem_cons] at member
      rcases member with (here | later) | (here | later)
      · exact first packet (.inl here.symm)
      · exact kept packet (played packet (.inl later))
      · exact first packet (.inr here.symm)
      · exact kept packet (played packet (.inr later))

theorem consume_le_buffered {b : StreamBuffer} (enough : b.blockFrames ≤ b.bufferedFrames) :
    b.consume ≤ b.bufferedFrames := by
  unfold consume
  dsimp only
  split
  · omega
  · split
    · omega
    · exact enough

theorem starved_drained {b : StreamBuffer} (inv : Ordered b) (starved : b.prepare.2 = false) :
    b.prepare.1.pending = ∅ ∧ b.prepare.1.queuedFrames < b.consume ∧
      b.bufferedFrames ≤ b.prepare.1.queuedFrames := by
  obtain ⟨change, prepared, outcome, _⟩ := b.prepare_eq
  have corrected : Ordered b.correct := inv.transfer rfl rfl rfl rfl rfl rfl
  have filled := b.correct.fill_filled b.consume
  rw [← outcome, starved] at filled
  obtain ⟨short, stuck⟩ := filled.short
  obtain ⟨ordered, _, kept⟩ := ordered_filled filled corrected
  have empty := drained ordered stuck
  rw [← (b.correct.fill_frame b.consume).format] at short
  rw [prepared]
  refine ⟨empty, short, ?_⟩
  rw [bufferedFrames_eq (b.correct.fill b.consume).1, pendingFrames, empty] at kept
  exact kept

theorem fed_of_buffered {b : StreamBuffer} (inv : Ordered b)
    (enough : b.blockFrames ≤ b.bufferedFrames) : b.prepare.2 = true := by
  cases outcome : b.prepare.2 with
  | true => rfl
  | false =>
    obtain ⟨_, short, kept⟩ := starved_drained inv outcome
    have wanted := consume_le_buffered enough
    omega

theorem pull_emitted {b started : StreamBuffer} {now : UInt64} (active : b.Active now)
    (ready : b.start now = some started) (due : ¬ now < started.due)
    (fresh : ¬ now - started.due > 100000000) :
    b.pull now = (started.emit.1, some started.emit.2) := by
  unfold pull
  rw [if_neg (by simp [active.running, active.rate]), if_neg active.recent, ready]
  dsimp only
  rw [if_neg due, if_neg fresh]

theorem emit_underruns (b : StreamBuffer) :
    b.emit.1.counters.underruns = b.counters.underruns + if b.prepare.2 then 0 else 1 := by
  have same := (filled_sounds (b.correct.fill_filled b.consume)).2.2
  have corrected : b.correct.counters.underruns = b.counters.underruns := rfl
  rw [corrected] at same
  unfold emit prepare
  dsimp only
  split
  · simp [same]
  · simp [clear, count, same]

end StreamBuffer

/-- The loop of `fill` ends by itself in every state. In every reachable state, a
due block for which enough frames are buffered is filled with buffered packets and
concealment, without an underrun; an underrun leaves no packet behind that could
have been played. -/
theorem no_underrun_while_buffered (targetMs : UInt32) (operations : List Operation)
    (parsed : ∀ operation ∈ operations, operation.Parsed) :
    (∀ (b : StreamBuffer) (frames : Nat),
      Filled frames b (b.visits frames) (b.fill frames).1 (b.fill frames).2) ∧
    let b := ofRun targetMs operations
    ∀ now started, b.Active now → b.start now = some started → ¬ now < started.due →
      ¬ now - started.due > 100000000 →
      (started.blockFrames ≤ b.bufferedFrames →
        (started.correct.fill started.consume).2 = true ∧
        (∃ visits queue, (∀ packet, .played packet ∈ visits ∨ .jumped packet ∈ visits →
            packet ∈ b.pending) ∧
          queue = b.fifo ++ sounds started.correct visits ∧
          started.consume * b.format.outputChannels ≤ queue.length ∧
          ((b.pull now).2.map AudioBlock.samples) = some (blockSamples
            (queue.take (started.consume * b.format.outputChannels)) started.blockFrames
            started.consume b.format.outputChannels)) ∧
        (b.pull now).1.counters.underruns = b.counters.underruns ∧
        (b.pull now).1.initialized = true ∧ (b.pull now).1.playing = true) ∧
      ((b.pull now).1.counters.underruns ≠ b.counters.underruns →
        (started.correct.fill started.consume).1.pending = ∅ ∧
        b.bufferedFrames ≤ (started.correct.fill started.consume).1.queuedFrames ∧
        (started.correct.fill started.consume).1.queuedFrames < started.consume) := by
  refine ⟨fun b frames => b.fill_filled frames, ?_⟩
  intro b now started active ready due fresh
  obtain ⟨format, _, _, _, session, playing, pending, fifo, _, _, _, counters, _⟩ :=
    start_fields ready
  have inv : Ordered started :=
    (bounded_start (bounded_ofRun targetMs parsed) active.running ready).2.1
  have same : started.bufferedFrames = b.bufferedFrames := by
    rw [bufferedFrames_eq, bufferedFrames_eq, queuedFrames, pendingFrames, fifo, pending, format]
    rfl
  obtain ⟨change, prepared, outcome, clean⟩ := started.prepare_eq
  have counted := started.emit_underruns
  rw [pull_emitted active ready due fresh]
  refine ⟨fun enough => ?_, fun starved => ?_⟩
  · have fed := fed_of_buffered inv (same ▸ enough)
    obtain ⟨queue, played, _⟩ :=
      filled_sounds (started.correct.fill_filled started.consume)
    obtain ⟨_, _, _, _, _, _, _, _, kept, _⟩ := started.emit_schedule
    have long := prepare_long fed
    rw [fed, counters] at counted
    refine ⟨outcome ▸ fed, ⟨started.correct.visits started.consume, started.prepare.1.fifo,
      ?_, ?_, ?_, ?_⟩, ?_, ?_, ?_⟩
    · intro packet member
      exact pending ▸ played packet member
    · rw [clean fed, queue]
      exact congrArg (· ++ _) fifo
    · exact format ▸ long
    · rw [Option.map_some, ← format]
      simp only [emit, block, takeInput]
      rw [Nat.sub_eq_zero_of_le long, List.replicate_zero, List.append_nil]
    · simpa using counted
    · exact (kept fed).1.trans (session.trans active.running)
    · exact (kept fed).2.trans playing
  · have failed : started.prepare.2 = false := by
      cases fed : started.prepare.2 with
      | false => rfl
      | true =>
        rw [fed, counters] at counted
        exact absurd (by simpa using counted) starved
    obtain ⟨empty, short, kept⟩ := starved_drained inv failed
    rw [prepared] at empty short kept
    exact ⟨empty, same ▸ kept, short⟩

theorem no_underrun_while_buffered_chirp :
    ∃ started, (ofRun 30 (heard chirp 1000)).start 30001000 = some started ∧
      (started.correct.fill started.consume).2 = true := by
  have active : (ofRun 30 (heard chirp 1000)).Active 30001000 :=
    ⟨by decide +kernel, by decide +kernel, by decide +kernel⟩
  have ready : ((ofRun 30 (heard chirp 1000)).start 30001000).any (fun started =>
      decide (¬ (30001000 : UInt64) < started.due) &&
      decide (¬ (30001000 : UInt64) - started.due > 100000000) &&
      decide (started.blockFrames ≤ (ofRun 30 (heard chirp 1000)).bufferedFrames)) = true := by
    decide +kernel
  obtain ⟨started, open', checked⟩ := (Option.any_eq_true _ _).mp ready
  simp only [Bool.and_eq_true, decide_eq_true_eq] at checked
  exact ⟨started, open', (((no_underrun_while_buffered 30 _ (heard_parsed chirp 1000)).2 30001000
    started active open' checked.1.1 checked.1.2).1 checked.2).1⟩

end VbanStream
