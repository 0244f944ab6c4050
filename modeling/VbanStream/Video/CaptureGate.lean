import VbanStream.Library.Cadence
import VbanStream.Library.Observe
import VbanStream.Video.Captures

namespace VbanStream

open Library

namespace FrameSender

namespace Session

/-- A step without its events. -/
def advance (s : Session) (label : Label) : Option Session := (s.step label).map Prod.fst

/-- A capture that reaches the limit shows its timestamp, and whether it passes. -/
def gated (s : Session) : Label → List (UInt64 × Bool)
  | .capture (some _) stride timestamp _ =>
    if s.output.config.enabled = false ∨ s.stop = true ∨
      stride < UInt32.ofNat s.output.width * 4 then []
    else [(timestamp, (s.paced timestamp).2)]
  | _ => []

/-- The decisions on captures that follow each other. -/
def gate (s : Session) : List UInt64 → List (UInt64 × Bool)
  | [] => []
  | timestamp :: rest => (timestamp, (s.paced timestamp).2) :: (s.paced timestamp).1.gate rest

/-- What the limit reads and writes. -/
def gateState (s : Session) : OutputSession × UInt64 × UInt64 :=
  (s.output, s.previousTimestamp, s.nextTimestamp)

/-- What the two workers leave alone. -/
def frame (s : Session) : (OutputSession × UInt64 × UInt64) × (Fin 3 → Memory) :=
  (s.gateState, s.pixels)

/-- What the encode worker leaves alone. -/
def apart (s : Session) :
    ((OutputSession × UInt64 × UInt64) × (Fin 3 → Memory)) × Bool × Transmitter :=
  (s.frame, s.stop, s.transmitter)

section Frame

variable {s t : Session}

theorem paced_congr (same : s.gateState = t.gateState) (timestamp : UInt64) :
    (s.paced timestamp).1.gateState = (t.paced timestamp).1.gateState ∧
      (s.paced timestamp).2 = (t.paced timestamp).2 := by
  obtain ⟨output, stamps⟩ := Prod.mk.inj same
  obtain ⟨previous, next⟩ := Prod.mk.inj stamps
  simp only [paced, output, previous, next]
  generalize (if timestamp < t.previousTimestamp then 0 else t.nextTimestamp) = due
  by_cases early : due ≠ 0 ∧ timestamp < due
  · simp [if_pos early, gateState]
  · simp [if_neg early, gateState]

theorem gate_congr (same : s.gateState = t.gateState) (times : List UInt64) :
    s.gate times = t.gate times := by
  induction times generalizing s t with
  | nil => rfl
  | cons timestamp rest ih =>
    obtain ⟨after, due⟩ := paced_congr same timestamp
    rw [gate, gate, due, ih after]

theorem produce_gateState {now : UInt64} {events : List Event}
    (taken : s.produce now = some (t, events)) : t.gateState = s.gateState := by
  rw [produce] at taken
  split at taken
  · cases taken
  · split at taken <;> cases taken <;> rfl

theorem take_apart {events : List Event} (taken : s.take = some (t, events)) :
    t.apart = s.apart := by
  rw [take] at taken
  split at taken
  · cases taken; rfl
  · split at taken
    · cases taken
    · obtain ⟨index, _, made⟩ := Option.map_eq_some_iff.mp taken
      cases made
      rw [consider]
      split <;> rfl

theorem encode_apart {job : Job} {quality : Int} {retry : Nat} {seen : List UInt8} {row : Nat}
    {written : Written} {events : List Event}
    (taken : s.encode job quality retry seen row written = some (t, events)) :
    t.apart = s.apart := by
  unfold encode at taken
  split at taken
  · cases taken; rfl
  · split at taken
    · cases taken; rfl
    · split at taken <;> cases taken
      rfl
    · split at taken <;> cases taken
      rfl

theorem compare_apart (s : Session) (job : Job) (previous : Fin 3) (row : Nat) :
    (s.compare job previous row).apart = s.apart := by
  rw [compare]
  split
  · split <;> rfl
  · rfl

theorem refresh_apart (s : Session) (job : Job) (now : UInt64) :
    (s.refresh job now).1.apart = s.apart := by
  rw [refresh]
  split <;> rfl

theorem judge_apart (s : Session) (job : Job) (quality : Int) (retry : Nat)
    (encoded : List UInt8) : (s.judge job quality retry encoded).apart = s.apart := by
  simp only [judge, apply_ite apart]
  simp only [apart, frame, gateState, ite_self]

theorem decide_apart (s : Session) (job : Job) (quality : Int) (encoded : List UInt8) :
    (s.decide job quality encoded).apart = s.apart := by
  rw [decide]
  split <;> rfl

theorem queueImage_apart {job : Job} {encoded : List UInt8} {quality : Int} {fresh : Bool}
    {now : UInt64} {events : List Event}
    (taken : s.queueImage job encoded quality fresh now = some (t, events)) :
    t.apart = s.apart := by
  rw [queueImage] at taken
  split at taken
  · cases taken
  · cases taken
    split <;> rfl

theorem settle_apart {job : Job} {remember : Bool} (taken : s.settle job remember = some t) :
    t.apart = s.apart := by
  rw [settle] at taken
  split at taken
  · cases taken
  · cases taken
    rfl

theorem work_apart {now : UInt64} {written : Written} {events : List Event}
    (taken : s.work now written = some (t, events)) : t.apart = s.apart := by
  rw [work] at taken
  split at taken
  · exact take_apart taken
  · cases taken
    exact compare_apart ..
  · rename_i job _
    have same := refresh_apart s job now
    rw [Option.some.inj taken] at same
    exact same
  · exact encode_apart taken
  · cases taken
    exact judge_apart ..
  · cases taken
    exact decide_apart ..
  · exact queueImage_apart taken
  · obtain ⟨settled, made, same⟩ := Option.map_eq_some_iff.mp taken
    cases same
    exact settle_apart made
  · cases taken

theorem work_frame {now : UInt64} {written : Written} {events : List Event}
    (taken : s.work now written = some (t, events)) : t.frame = s.frame :=
  congrArg Prod.fst (work_apart taken)

theorem work_others {now : UInt64} {written : Written} {events : List Event}
    (taken : s.work now written = some (t, events)) :
    t.stop = s.stop ∧ t.transmitter = s.transmitter :=
  Prod.mk.inj (congrArg Prod.snd (work_apart taken))

theorem transmit_frame {attempts : Nat → Attempt} {threw : Option String}
    {events : List Event} (taken : s.transmit attempts threw = some (t, events)) :
    t.frame = s.frame := by
  rw [transmit] at taken
  split at taken
  · split at taken
    · cases taken; rfl
    · split at taken
      · cases taken
      · obtain ⟨frame, _, made⟩ := Option.map_eq_some_iff.mp taken
        cases made
        rfl
  · split at taken
    · cases taken
    · cases taken
      simp only [conclude]
      split
      · rfl
      · rfl
      · split <;> rfl
  · cases taken

/-- A step either decides on one capture, or leaves the limit alone. -/
theorem advance_gate {label : Label} (taken : s.advance label = some t) :
    (s.gated label = [] ∧ t.gateState = s.gateState) ∨
      ∃ timestamp, s.gated label = [(timestamp, (s.paced timestamp).2)] ∧
        t.gateState = (s.paced timestamp).1.gateState := by
  obtain ⟨⟨_, events⟩, stepped, rfl⟩ := Option.map_eq_some_iff.mp taken
  cases label with
  | capture rgba stride timestamp owns =>
    rw [step] at stepped
    split at stepped
    · cases stepped
    · cases stepped
      cases rgba with
      | none => exact .inl ⟨rfl, rfl⟩
      | some rgba =>
        by_cases refused : s.output.config.enabled = false ∨ s.stop = true ∨
            stride < UInt32.ofNat s.output.width * 4
        · left
          simp [gated, capture, if_pos refused]
        · right
          refine ⟨timestamp, by simp only [gated, if_neg refused], ?_⟩
          simp only [capture, if_neg refused]
          split
          · rfl
          · split
            · rfl
            · obtain ⟨dropped, ignored | ⟨index, _, begun⟩⟩ :=
                replaceStale_cases (s.paced timestamp).1 rgba stride
              · rw [ignored]
                rfl
              · rw [begun]
                rfl
  | produce now => exact .inl ⟨rfl, produce_gateState stepped⟩
  | work now written => exact .inl ⟨rfl, congrArg Prod.fst (work_frame stepped)⟩
  | transmit attempts threw => exact .inl ⟨rfl, congrArg Prod.fst (transmit_frame stepped)⟩
  | requestStop =>
    rw [step] at stepped
    split at stepped
    · cases stepped
    · cases stepped
      exact .inl ⟨rfl, rfl⟩

theorem observed_gate {labels : List Label} {final : Session}
    (ran : run advance s labels = some final) :
    ∃ times, observed advance gated s labels = s.gate times := by
  induction labels generalizing s with
  | nil => exact ⟨[], rfl⟩
  | cons label rest ih =>
    obtain ⟨next, taken, later⟩ := run_cons.mp ran
    obtain ⟨times, shown⟩ := ih later
    rw [observed_cons taken, shown]
    rcases advance_gate taken with ⟨silent, same⟩ | ⟨timestamp, shows, same⟩
    · exact ⟨times, by rw [silent, List.nil_append, gate_congr same]⟩
    · exact ⟨timestamp :: times, by rw [shows, gate, gate_congr same]; rfl⟩

end Frame

/-- `1'000'000'000 / fps`. -/
def period (s : Session) : Nat := 1000000000 / s.output.config.fps.toNat

/-- The rates that the settings allow. -/
def Rated (s : Session) : Prop := 1 ≤ s.output.config.fps ∧ s.output.config.fps ≤ 30

/-- After a capture has passed: the next one is due within a period. -/
structure Due (s : Session) (timestamp : UInt64) : Prop where
  previous : s.previousTimestamp = timestamp
  set : s.nextTimestamp ≠ 0
  after : timestamp.toNat ≤ s.nextTimestamp.toNat
  within : s.nextTimestamp.toNat ≤ timestamp.toNat + s.period

section Arithmetic

variable {s : Session} {timestamp : UInt64}

theorem Rated.period (rated : s.Rated) : 33333333 ≤ s.period ∧ s.period ≤ 1000000000 := by
  obtain ⟨low, high⟩ := rated
  have positive : 0 < s.output.config.fps.toNat := by omega
  constructor
  · exact (Nat.le_div_iff_mul_le positive).mpr (by omega)
  · exact Nat.div_le_self ..

theorem Rated.period_toNat (rated : s.Rated) :
    (UInt64.ofNat (1000000000 / s.output.config.fps.toNat)).toNat = s.period := by
  have bound := rated.period.2
  rw [Session.period] at bound ⊢
  rw [UInt64.toNat_ofNat', Nat.mod_eq_of_lt (by omega)]

theorem paced_previous (s : Session) (timestamp : UInt64) :
    (s.paced timestamp).1.previousTimestamp = timestamp ∧
      (s.paced timestamp).1.output = s.output := by
  obtain ⟨next, same⟩ := s.paced_eq timestamp
  rw [same]
  exact ⟨rfl, rfl⟩

theorem paced_backward (back : timestamp < s.previousTimestamp) :
    (s.paced timestamp).2 = true := by
  simp [paced, if_pos back]

/-- Without a jump back the limit is a cadence. -/
theorem paced_forward (rated : s.Rated) (forward : s.previousTimestamp ≤ timestamp)
    (set : s.nextTimestamp ≠ 0) (small : timestamp.toNat < 2 ^ 63) :
    (timestamp.toNat < s.nextTimestamp.toNat ∧ (s.paced timestamp).2 = false ∧
        (s.paced timestamp).1.nextTimestamp = s.nextTimestamp) ∨
      (s.nextTimestamp.toNat ≤ timestamp.toNat ∧ (s.paced timestamp).2 = true ∧
        (s.paced timestamp).1.nextTimestamp.toNat =
          rescheduled s.period s.nextTimestamp.toNat timestamp.toNat) := by
  have bound := rated.period.2
  have period := rated.period_toNat
  simp only [paced, if_neg (UInt64.not_lt.mpr forward), set, ne_eq, not_false_eq_true, true_and,
    false_or]
  by_cases early : timestamp < s.nextTimestamp
  · left
    rw [if_pos early]
    exact ⟨UInt64.lt_iff_toNat_lt.mp early, rfl, rfl⟩
  · right
    have reached := UInt64.le_iff_toNat_le.mp (UInt64.not_lt.mp early)
    have gap : (timestamp - s.nextTimestamp).toNat = timestamp.toNat - s.nextTimestamp.toNat :=
      UInt64.toNat_sub_of_le _ _ (UInt64.not_lt.mp early)
    rw [if_neg early]
    refine ⟨reached, rfl, ?_⟩
    simp only [rescheduled, gt_iff_lt, UInt64.lt_iff_toNat_lt, period, gap]
    split
    · rw [UInt64.toNat_add, period]
      omega
    · rw [UInt64.toNat_add, period]
      omega

theorem paced_due (rated : s.Rated) (small : timestamp.toNat < 2 ^ 63)
    (passes : (s.paced timestamp).2 = true) : (s.paced timestamp).1.Due timestamp := by
  have bounds := rated.period
  have period := rated.period_toNat
  suffices due : timestamp.toNat ≤ (s.paced timestamp).1.nextTimestamp.toNat ∧
      (s.paced timestamp).1.nextTimestamp.toNat ≤ timestamp.toNat + s.period ∧
      0 < (s.paced timestamp).1.nextTimestamp.toNat by
    obtain ⟨previous, output⟩ := s.paced_previous timestamp
    refine ⟨previous, ?_, due.1, ?_⟩
    · intro zero
      rw [zero] at due
      exact absurd due.2.2 (lt_irrefl _)
    · rw [Session.period, output]
      exact due.2.1
  simp only [paced] at passes ⊢
  generalize (if timestamp < s.previousTimestamp then 0 else s.nextTimestamp) = due at passes ⊢
  by_cases early : due ≠ 0 ∧ timestamp < due
  · rw [if_pos early] at passes
    cases passes
  · rw [if_neg early]
    by_cases late : due = 0 ∨ timestamp - due > UInt64.ofNat
        (1000000000 / s.output.config.fps.toNat)
    · simp only [if_pos late, UInt64.toNat_add, period]
      omega
    · simp only [if_neg late, UInt64.toNat_add, period]
      rw [not_or, gt_iff_lt, UInt64.lt_iff_toNat_lt, period] at late
      have reached := UInt64.not_lt.mp fun before => early ⟨late.1, before⟩
      rw [UInt64.toNat_sub_of_le _ _ reached] at late
      have order := UInt64.le_iff_toNat_le.mp reached
      omega

end Arithmetic

section Segments

variable {s : Session} {times : List UInt64}

/-- A mark with its time as a number. -/
def mark (entry : UInt64 × Bool) : Nat × Bool := (entry.1.toNat, entry.2)

theorem gate_times (s : Session) (times : List UInt64) : (s.gate times).map Prod.fst = times := by
  induction times generalizing s with
  | nil => rfl
  | cons timestamp rest ih => rw [gate, List.map_cons, ih]

/-- Timestamps that never go back are let through in a cadence. -/
theorem gate_cadence (rated : s.Rated) (set : s.nextTimestamp ≠ 0)
    (small : ∀ timestamp ∈ times, timestamp.toNat < 2 ^ 63)
    (forward : (s.previousTimestamp :: times).IsChain (· ≤ ·)) :
    (s.gate times).map mark =
      cadence s.period s.nextTimestamp.toNat (times.map UInt64.toNat) := by
  induction times generalizing s with
  | nil => rfl
  | cons timestamp rest ih =>
    obtain ⟨order, onward⟩ := List.isChain_cons_cons.mp forward
    have soon := small timestamp (List.mem_cons_self ..)
    obtain ⟨previous, output⟩ := s.paced_previous timestamp
    have rated_after : (s.paced timestamp).1.Rated := by rwa [Rated, output]
    have same_period : (s.paced timestamp).1.period = s.period := by rw [period, output, period]
    rw [← previous] at onward
    rw [gate, List.map_cons, List.map_cons, cadence]
    rcases paced_forward rated order set soon with ⟨early, stays, due⟩ | ⟨reached, passes, due⟩
    · rw [if_pos early, ih rated_after (by rwa [due]) (fun other member =>
        small other (List.mem_cons_of_mem _ member)) onward, same_period, due, stays]
      rfl
    · have set_after := (paced_due rated soon passes).set
      rw [if_neg (by omega), ih rated_after set_after (fun other member =>
        small other (List.mem_cons_of_mem _ member)) onward, same_period, due, passes]
      rfl

/-- What follows a capture that passed is decided from there on. -/
theorem gate_after (rated : s.Rated) {front tail : List (UInt64 × Bool)} {earlier : UInt64}
    (small : ∀ timestamp ∈ times, timestamp.toNat < 2 ^ 63)
    (marks : s.gate times = front ++ (earlier, true) :: tail) :
    ∃ (t : Session) (rest : List UInt64), t.gate rest = tail ∧ t.Due earlier ∧
      t.output = s.output ∧ rest ⊆ times := by
  induction front generalizing s times with
  | nil =>
    cases times with
    | nil => cases marks
    | cons timestamp rest =>
      obtain ⟨same, after⟩ := List.cons.inj marks
      obtain ⟨rfl, passes⟩ := Prod.mk.inj same
      refine ⟨_, rest, after, paced_due rated (small _ (List.mem_cons_self ..)) passes,
        (s.paced_previous timestamp).2, fun _ => List.mem_cons_of_mem _⟩
  | cons mark front ih =>
    cases times with
    | nil => cases marks
    | cons timestamp rest =>
      obtain ⟨_, after⟩ := List.cons.inj marks
      have output := (s.paced_previous timestamp).2
      obtain ⟨t, later, gated, due, same, inside⟩ := ih (by rwa [Rated, output])
        (fun other member => small other (List.mem_cons_of_mem _ member)) after
      exact ⟨t, later, gated, due, same.trans output,
        fun _ member => List.mem_cons_of_mem _ (inside member)⟩

theorem gate_take (s : Session) (first second : List UInt64) :
    (s.gate (first ++ second)).take first.length = s.gate first := by
  induction first generalizing s with
  | nil => rw [List.length_nil, List.take_zero, gate]
  | cons timestamp rest ih =>
    rw [List.cons_append, gate, List.length_cons, List.take_succ_cons, ih, gate]

/-- Going back in time passes, wherever it happens. -/
theorem gate_backward {front back : List (UInt64 × Bool)} {earlier later : UInt64}
    {first second : Bool}
    (marks : s.gate times = front ++ (earlier, first) :: (later, second) :: back)
    (jump : later < earlier) : second = true := by
  induction front generalizing s times with
  | nil =>
    rcases times with _ | ⟨one, _ | ⟨two, rest⟩⟩
    · cases marks
    · cases marks
    · obtain ⟨same, after⟩ := List.cons.inj marks
      obtain ⟨again, _⟩ := List.cons.inj after
      obtain ⟨rfl, _⟩ := Prod.mk.inj same
      obtain ⟨rfl, rfl⟩ := Prod.mk.inj again
      apply paced_backward
      rwa [(s.paced_previous one).1]
  | cons mark front ih =>
    cases times with
    | nil => cases marks
    | cons timestamp rest => exact ih (List.cons.inj marks).2

/-- Two captures that pass, without a jump back from the first to the second. -/
theorem gate_between (rated : s.Rated) {front middle back : List (UInt64 × Bool)}
    {earlier later : UInt64} (small : ∀ timestamp ∈ times, timestamp.toNat < 2 ^ 63)
    (marks : s.gate times = front ++ (earlier, true) :: (middle ++ (later, true) :: back))
    (forward : (earlier :: (middle.map Prod.fst ++ [later])).IsChain (· ≤ ·)) :
    earlier.toNat + passed middle * s.period ≤ later.toNat ∧
      ((earlier :: (middle.map Prod.fst ++ [later])).IsChain (fun one next =>
          next.toNat ≤ one.toNat + s.period) →
        later.toNat ≤ earlier.toNat + (passed middle + 2) * s.period) := by
  obtain ⟨t, rest, gated, due, output, inside⟩ := gate_after rated small marks
  have rated_after : t.Rated := by rwa [Rated, output]
  have same_period : t.period = s.period := by rw [period, output, period]
  have split : rest = (middle.map Prod.fst ++ [later]) ++ back.map Prod.fst := by
    rw [← gate_times t rest, gated]
    simp
  have segment : t.gate (middle.map Prod.fst ++ [later]) = middle ++ [(later, true)] := by
    rw [← gate_take t _ (back.map Prod.fst), ← split, gated]
    simp [List.take_append]
  have early : ∀ timestamp ∈ middle.map Prod.fst ++ [later], timestamp.toNat < 2 ^ 63 :=
    fun timestamp member => small _ (inside (by rw [split]; exact List.mem_append_left _ member))
  have steady := gate_cadence rated_after due.set early (by rwa [due.previous])
  rw [segment, List.map_append, same_period] at steady
  have counted : passed (middle.map mark) = passed middle := by
    simp [passed, List.countP_map, mark, Function.comp_def]
  have after := due.after
  have within := due.within
  rw [same_period] at within
  constructor
  · have low := cadence_lower steady.symm
    rw [counted] at low
    exact (Nat.add_le_add_right after _).trans low
  · intro spaced
    have high := cadence_upper steady.symm after (by
      rw [← List.map_cons, List.isChain_map]
      exact spaced)
    rw [counted] at high
    simp only [Nat.add_mul] at high ⊢
    omega

end Segments

/-- The decision touches nothing but the two timestamps. -/
theorem paced_fields (s : Session) (timestamp : UInt64) :
    (s.paced timestamp).1.producer = s.producer ∧ (s.paced timestamp).1.pending = s.pending ∧
      (s.paced timestamp).1.pixels = s.pixels ∧ (s.paced timestamp).1.dropped = s.dropped := by
  unfold paced
  dsimp only
  split <;> split <;> exact ⟨rfl, rfl, rfl, rfl⟩

/-- A picture that does not pass leaves no trace; one that passes is copied or counted as
dropped. -/
theorem capture_marked {s t : Session} {rgba : Memory} {stride : UInt32} {timestamp : UInt64}
    {owns passed : Bool} (taken : s.advance (.capture (some rgba) stride timestamp owns) = some t)
    (mark : s.gated (.capture (some rgba) stride timestamp owns) = [(timestamp, passed)]) :
    (passed = false →
      t.producer = .outside ∧ t.pending = s.pending ∧ t.pixels = s.pixels ∧
        t.dropped = s.dropped) ∧
      (passed = true →
        (∃ index, t.producer = .copying index rgba stride 0) ∨ s.dropped < t.dropped) := by
  obtain ⟨⟨_, events⟩, stepped, rfl⟩ := Option.map_eq_some_iff.mp taken
  rw [step] at stepped
  split at stepped
  · cases stepped
  · rename_i unlocked
    have outside : s.producer = .outside := by
      cases status : s.producer with
      | outside => rfl
      | copying => simp [locked, status] at unlocked
    cases stepped
    simp only [gated] at mark
    split at mark
    · cases mark
    · rename_i reached
      obtain rfl : (s.paced timestamp).2 = passed := by simpa using mark
      simp only [capture, if_neg reached]
      obtain ⟨producer, pending, pixels, dropped⟩ := paced_fields s timestamp
      constructor
      · intro refused
        rw [if_pos refused]
        exact ⟨producer.trans outside, pending, pixels, dropped⟩
      · intro due
        rw [if_neg (by simp [due])]
        split
        · exact .inr (by simp [drop, dropped])
        · unfold replaceStale
          dsimp only
          split
          · right
            split <;> simp [drop, dropped]
          · rename_i index _
            exact .inl ⟨index, rfl⟩

/-- Over any run of a session, for the captures that reach the limit: between two that pass
lie at least the periods of those that passed in between, and at most two more where the
source is never slower than a period; a jump back in time always passes; and what does not
pass leaves no trace, while what passes is copied or counted as dropped. -/
theorem capture_cadence (output : OutputSession) (sequence : UInt32)
    (rated : 1 ≤ output.config.fps ∧ output.config.fps ≤ 30) (labels : List Label)
    (final : Session) (ran : run advance (start output sequence) labels = some final)
    (small : ∀ entry ∈ observed advance gated (start output sequence) labels,
      entry.1.toNat < 2 ^ 63) :
    let marks := observed advance gated (start output sequence) labels
    let period := 1000000000 / output.config.fps.toNat
    (∀ front earlier middle later back,
      marks = front ++ (earlier, true) :: (middle ++ (later, true) :: back) →
      (earlier :: (middle.map Prod.fst ++ [later])).IsChain (· ≤ ·) →
      ∀ m, m = passed (middle ++ [(later, true)]) →
        earlier.toNat + (m - 1) * period ≤ later.toNat ∧
          ((earlier :: (middle.map Prod.fst ++ [later])).IsChain (fun one next =>
              next.toNat ≤ one.toNat + period) →
            later.toNat ≤ earlier.toNat + (m + 1) * period)) ∧
      (∀ front earlier first later second back,
        marks = front ++ (earlier, first) :: (later, second) :: back → later < earlier →
          second = true) ∧
      ∀ state next rgba stride timestamp owns passed,
        Performs advance (start output sequence) labels state
          (.capture (some rgba) stride timestamp owns) →
        state.advance (.capture (some rgba) stride timestamp owns) = some next →
        state.gated (.capture (some rgba) stride timestamp owns) = [(timestamp, passed)] →
        (passed = false →
          next.producer = .outside ∧ next.pending = state.pending ∧ next.pixels = state.pixels ∧
            next.dropped = state.dropped) ∧
          (passed = true →
            (∃ index, next.producer = .copying index rgba stride 0) ∨
              state.dropped < next.dropped) := by
  obtain ⟨times, shown⟩ := observed_gate ran
  rw [shown] at small
  have early : ∀ timestamp ∈ times, timestamp.toNat < 2 ^ 63 := by
    intro timestamp member
    rw [← gate_times (start output sequence) times] at member
    obtain ⟨entry, listed, rfl⟩ := List.mem_map.mp member
    exact small entry listed
  rw [shown]
  refine ⟨?_, ?_, fun _ _ _ _ _ _ _ _ taken mark => capture_marked taken mark⟩
  · intro front earlier middle later back marks forward m count
    have counted : m = passed middle + 1 := by simp [count, passed]
    rw [counted]
    exact gate_between (s := start output sequence) rated early marks forward
  · intro front earlier first later second back marks jump
    exact gate_backward marks jump

/-- An output that is limited to 30 pictures a second. -/
def thirty : OutputSession :=
  { config := { enabled := true, fps := 30 }, width := 1, height := 1 }

/-- A source at 60 pictures a second, of which every second one passes. -/
def doubled : List Label :=
  [1000000000, 1016666666, 1033333333].map fun timestamp =>
    .capture (some fun _ => 0) 4 timestamp false

theorem capture_cadence_doubled :
    ∃ earlier later : UInt64, ∃ middle : List (UInt64 × Bool),
      observed advance gated (start thirty 0) doubled =
        [] ++ (earlier, true) :: (middle ++ (later, true) :: []) ∧
      passed middle = 0 ∧ earlier.toNat + (1 - 1) * 33333333 ≤ later.toNat ∧
      later.toNat ≤ earlier.toNat + (1 + 1) * 33333333 := by
  have ran : (run advance (start thirty 0) doubled).isSome = true := by decide +kernel
  obtain ⟨final, ran⟩ := Option.isSome_iff_exists.mp ran
  have marks : observed advance gated (start thirty 0) doubled =
      [(1000000000, true), (1016666666, false), (1033333333, true)] := by decide +kernel
  have small : ∀ entry ∈ observed advance gated (start thirty 0) doubled,
      entry.1.toNat < 2 ^ 63 := by
    rw [marks]
    simp
  obtain ⟨between, _⟩ := capture_cadence thirty 0 (by decide) doubled final ran small
  obtain ⟨low, high⟩ := between [] 1000000000 [(1016666666, false)] 1033333333 [] marks
    (by decide) 1 (by decide)
  exact ⟨1000000000, 1033333333, [(1016666666, false)], marks, by decide, low, high (by decide)⟩

end Session

end FrameSender

end VbanStream
