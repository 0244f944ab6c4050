import VbanStream.Library.Checked
import VbanStream.Library.Interpolation
import VbanStream.Return.MonitorReturn

namespace VbanStream

open Library

namespace StereoRetimer

section Rounding

variable {S : Type*} (blend : S → S → ℚ → S) (double single : ℚ → ℚ)

/-- `interpolate` for any rounding of the two floating point types. -/
def interpolateWith (previous : S × S) (input : Nat → S) (frames adjusted i c : Nat) : S :=
  let scaled := double (((i + 1 : Nat) : ℚ) * frames)
  let position := double (double (scaled / adjusted) - 1)
  let a := ⌊position⌋
  let b := min (a + 1).toNat (frames - 1)
  let fraction := single (double (position - a))
  let left :=
    if a < 0 then if c = 0 then previous.1 else previous.2 else input (a.toNat * 2 + c)
  blend left (input (b * 2 + c)) fraction

def processWith (retimer : StereoRetimer S) (input : Nat → S) (frames adjusted : Nat) :
    StereoRetimer S × (Nat → S) :=
  if frames = 0 ∨ adjusted = 0 then (retimer, input)
  else
    let previous := if retimer.havePrevious then retimer.previous else (input 0, input 1)
    let result :=
      if frames ≠ adjusted then fun j =>
        interpolateWith blend double single previous input frames adjusted (j / 2) (j % 2)
      else input
    (⟨true, input ((frames - 1) * 2), input ((frames - 1) * 2 + 1)⟩, result)

theorem process_eq (retimer : StereoRetimer S) (input : Nat → S) (frames adjusted : Nat) :
    retimer.process blend input frames adjusted =
      retimer.processWith blend binary64.round binary32.round input frames adjusted := rfl

end Rounding

/-- The blend of two samples, without rounding. -/
def mixture (left right fraction : ℚ) : ℚ := left + (right - left) * fraction

/-- The lower neighbour; `none` stands for a read outside the block. -/
def leftWithin (previous : ℚ × ℚ) (input : List ℚ) (a : ℤ) (c : Nat) : Option ℚ :=
  if a < 0 then some (if c = 0 then previous.1 else previous.2) else input[a.toNat * 2 + c]?

/-- One sample in exact arithmetic, of reads within the block. -/
def sampleWithin (previous : ℚ × ℚ) (input : List ℚ) (frames adjusted i c : Nat) : Option ℚ := do
  let position := ((i + 1 : Nat) : ℚ) * frames / adjusted - 1
  let a := ⌊position⌋
  let b := min (a + 1).toNat (frames - 1)
  let fraction := position - a
  let left ← leftWithin previous input a c
  let right ← input[b * 2 + c]?
  return mixture left right fraction

/-- Both samples of one frame. -/
def frameWithin (previous : ℚ × ℚ) (input : List ℚ) (frames adjusted i : Nat) :
    Option (List ℚ) := do
  let left ← sampleWithin previous input frames adjusted i 0
  let right ← sampleWithin previous input frames adjusted i 1
  return [left, right]

def resultWithin (previous : ℚ × ℚ) (input : List ℚ) (frames adjusted : Nat) :
    Option (List ℚ) :=
  if frames ≠ adjusted then
    ((List.range adjusted).mapM (frameWithin previous input frames adjusted)).map List.flatten
  else some input

/-- The two samples at an index. -/
def pairWithin (input : List ℚ) (index : Nat) : Option (ℚ × ℚ) := do
  let left ← input[index]?
  let right ← input[index + 1]?
  return (left, right)

def previousWithin (retimer : StereoRetimer ℚ) (input : List ℚ) : Option (ℚ × ℚ) :=
  if retimer.havePrevious then some retimer.previous else pairWithin input 0

/-- `process` in exact arithmetic, with the samples behind the pointer that it returns. -/
def processWithin (retimer : StereoRetimer ℚ) (input : List ℚ) (frames adjusted : Nat) :
    Option (StereoRetimer ℚ × List ℚ) :=
  if frames = 0 ∨ adjusted = 0 then some (retimer, input)
  else do
    let previous ← retimer.previousWithin input
    let result ← resultWithin previous input frames adjusted
    let last ← pairWithin input ((frames - 1) * 2)
    return (⟨true, last⟩, result)

/-- A block, and the length it is asked for in. -/
structure Call where
  frames : List (ℚ × ℚ)
  adjusted : Nat

def Call.shape (call : Call) : Nat × Nat := (call.frames.length, call.adjusted)

/-- The samples of both channels in turn. -/
def interleaved (frames : List (ℚ × ℚ)) : List ℚ := frames.flatMap fun frame => [frame.1, frame.2]

/-- Calls in order. -/
def serve : StereoRetimer ℚ → List Call → Option (List (List ℚ))
  | _, [] => some []
  | retimer, call :: rest => do
    let (after, output) ←
      retimer.processWithin (interleaved call.frames) call.frames.length call.adjusted
    let outputs ← after.serve rest
    return output :: outputs

/-- The sample of a frame in a channel. -/
def channel (c : Nat) (frame : ℚ × ℚ) : ℚ := if c = 0 then frame.1 else frame.2

theorem interleaved_get (frames : List (ℚ × ℚ)) (index : Nat) {c : Nat} (stereo : c < 2) :
    (interleaved frames)[index * 2 + c]? = frames[index]?.map (channel c) := by
  induction frames generalizing index with
  | nil => rfl
  | cons frame rest ih =>
    have unfolded : interleaved (frame :: rest) = frame.1 :: frame.2 :: interleaved rest := rfl
    cases index with
    | zero => interval_cases c <;> rfl
    | succ index =>
      rw [unfolded, Nat.add_mul, Nat.one_mul, Nat.add_right_comm, List.getElem?_cons_succ,
        List.getElem?_cons_succ, ih, List.getElem?_cons_succ]

theorem pairWithin_eq {frames : List (ℚ × ℚ)} {index : Nat} {frame : ℚ × ℚ}
    (found : frames[index]? = some frame) :
    pairWithin (interleaved frames) (index * 2) = some frame := by
  have left := interleaved_get frames index Nat.zero_lt_two
  have right := interleaved_get frames index Nat.one_lt_two
  rw [found] at left right
  rw [Nat.add_zero] at left
  rw [pairWithin, left, right]
  rfl

section Frame

variable {before left right : ℚ × ℚ} {frames : List (ℚ × ℚ)} {adjusted i : Nat}

theorem leftWithin_eq {a : ℤ} {c : Nat} (low : -1 ≤ a) (stereo : c < 2)
    (below : (before :: frames)[(a + 1).toNat]? = some left) :
    leftWithin before (interleaved frames) a c = some (channel c left) := by
  rw [leftWithin]
  by_cases first : a < 0
  · obtain rfl : a = -1 := by omega
    obtain rfl : before = left := by simpa using below
    rfl
  · rw [show (a + 1).toNat = a.toNat + 1 by omega, List.getElem?_cons_succ] at below
    rw [if_neg first, interleaved_get _ _ stereo, below]
    rfl

/-- The two neighbours that the code takes, for both channels. -/
theorem frameWithin_eq {a : ℤ} (low : -1 ≤ a)
    (floor : ⌊((i + 1 : Nat) : ℚ) * frames.length / adjusted - 1⌋ = a)
    (below : (before :: frames)[(a + 1).toNat]? = some left)
    (above : frames[min (a + 1).toNat (frames.length - 1)]? = some right) :
    let fraction := ((i + 1 : Nat) : ℚ) * frames.length / adjusted - 1 - a
    frameWithin before (interleaved frames) frames.length adjusted i =
      some [mixture left.1 right.1 fraction, mixture left.2 right.2 fraction] := by
  intro fraction
  have sample (c : Nat) (stereo : c < 2) :
      sampleWithin before (interleaved frames) frames.length adjusted i c =
        some (mixture (channel c left) (channel c right) fraction) := by
    rw [sampleWithin]
    simp only [floor, leftWithin_eq low stereo below, interleaved_get _ _ stereo, above]
    rfl
  rw [frameWithin, sample 0 Nat.zero_lt_two, sample 1 Nat.one_lt_two]
  rfl

/-- A frame is made where `stretched` says, from the block and the frame before it. -/
theorem frameWithin_between (before : ℚ × ℚ) (some : frames ≠ []) (inside : i < adjusted) :
    ∃ frame : ℚ × ℚ,
      frameWithin before (interleaved frames) frames.length adjusted i =
        .some [frame.1, frame.2] ∧
      Between (before :: frames)
        (((0 : ℕ) : ℚ) + (((i + 1 : ℕ) : ℚ) * frames.length / adjusted - 1) + 1) frame := by
  have many : 0 < frames.length := List.length_pos_iff.mpr some
  have positive : (0 : ℚ) < adjusted := Nat.cast_pos.mpr (by omega)
  obtain ⟨place, same⟩ : ∃ place : ℚ, ((i + 1 : ℕ) : ℚ) * frames.length / adjusted - 1 = place :=
    ⟨_, rfl⟩
  have low : -1 < place := by
    have : (0 : ℚ) < ((i + 1 : ℕ) : ℚ) * frames.length / adjusted := by positivity
    linarith
  have high : place ≤ frames.length - 1 := by
    have : ((i + 1 : ℕ) : ℚ) * frames.length / adjusted ≤ frames.length := by
      rw [div_le_iff₀ positive, mul_comm]
      exact mul_le_mul_of_nonneg_left (by exact_mod_cast inside) (by positivity)
    linarith
  obtain ⟨a, floor⟩ : ∃ a : ℤ, ⌊place⌋ = a := ⟨_, rfl⟩
  obtain ⟨under, beyond⟩ := Int.floor_eq_iff.mp floor
  have first : -1 ≤ a := by
    rw [← floor, Int.le_floor]
    exact_mod_cast low.le
  obtain ⟨k, rfl⟩ : ∃ k : ℕ, a = (k : ℤ) - 1 := ⟨(a + 1).toNat, by omega⟩
  have end_ : k ≤ frames.length := by
    have : ((k - 1 : ℤ) : ℚ) ≤ frames.length - 1 := under.trans high
    push_cast at this
    exact_mod_cast (by linarith : (k : ℚ) ≤ frames.length)
  have index : ((k : ℤ) - 1 + 1).toNat = k := by omega
  obtain ⟨left, below⟩ : ∃ left, (before :: frames)[k]? = .some left :=
    ⟨_, List.getElem?_eq_getElem (by simp; omega)⟩
  obtain ⟨right, above⟩ : ∃ right, frames[min k (frames.length - 1)]? = .some right :=
    ⟨_, List.getElem?_eq_getElem (by omega)⟩
  have floored : ⌊((i + 1 : ℕ) : ℚ) * frames.length / adjusted - 1⌋ = (k : ℤ) - 1 := by
    rw [same, floor]
  have made := frameWithin_eq first floored (by rwa [index]) (by rwa [index])
  rw [same] at made ⊢
  push_cast at made under beyond
  refine ⟨(_, _), made, ?_⟩
  have held : Between (before :: frames) (place + 1) _ :=
    between_held (by linarith) (by linarith) (by linarith) below above
  rw [Nat.cast_zero, zero_add]
  convert held using 1
  ext <;> simp <;> ring

end Frame

/-- One call after the frame `before`: its output, and that the block's last frame is retained. -/
theorem processWithin_continuous (before : ℚ × ℚ) (call : Call) {last : ℚ × ℚ}
    (final : call.frames.getLast? = some last) (room : 0 < call.adjusted) :
    ∃ made : List (ℚ × ℚ),
      processWithin ⟨true, before⟩ (interleaved call.frames) call.frames.length call.adjusted =
        some (⟨true, last⟩, interleaved made) ∧
      List.Forall₂ (fun place frame => Between (before :: call.frames) (place + 1) frame)
        (stretched 0 call.shape) made ∧
      (call.adjusted = call.frames.length → made = call.frames) := by
  have some : call.frames ≠ [] := by
    rintro empty
    rw [empty] at final
    cases final
  have many := List.length_pos_iff.mpr some
  have retained : pairWithin (interleaved call.frames) ((call.frames.length - 1) * 2) =
      .some last := pairWithin_eq (by rwa [← List.getLast?_eq_getElem?])
  have outcome {made : List (ℚ × ℚ)}
      (result : resultWithin before (interleaved call.frames) call.frames.length call.adjusted =
        .some (interleaved made)) :
      processWithin ⟨true, before⟩ (interleaved call.frames) call.frames.length call.adjusted =
        .some (⟨true, last⟩, interleaved made) := by
    rw [processWithin, if_neg (by omega), previousWithin, if_pos rfl, Option.bind_eq_bind,
      Option.bind_some]
    simp only [result, retained, Option.bind_eq_bind, Option.bind_some, Option.pure_def]
  by_cases changed : call.frames.length ≠ call.adjusted
  · choose! frame made between using fun i (inside : i < call.adjusted) =>
      frameWithin_between before some inside
    refine ⟨(List.range call.adjusted).map frame, outcome ?_, ?_,
      fun same => absurd same.symm changed⟩
    · rw [resultWithin, if_pos changed, mapM_eq_map (fun i => [(frame i).1, (frame i).2])
        fun i member => made i (List.mem_range.mp member)]
      rw [Option.map_some, interleaved, List.flatMap_map, List.flatMap_def]
    · rw [stretched, List.forall₂_map_left_iff, List.forall₂_map_right_iff]
      refine List.forall₂_same.mpr fun i member => between i (List.mem_range.mp member)
  · rw [not_not] at changed
    refine ⟨call.frames, outcome (if_neg (not_not.mpr changed)), ?_, fun _ => rfl⟩
    rw [Call.shape, ← changed]
    exact between_points before call.frames

/-- Calls after the frame `before`. Each block continues from the last frame of the one
before it. -/
theorem serve_continuous (calls : List Call)
    (proper : ∀ call ∈ calls, call.frames ≠ [] ∧ 0 < call.adjusted) (before : ℚ × ℚ) :
    ∃ made : List (List (ℚ × ℚ)),
      serve ⟨true, before⟩ calls = some (made.map interleaved) ∧
      made.map List.length = calls.map Call.adjusted ∧
      List.Forall₂
        (fun place frame => Between (before :: calls.flatMap Call.frames) (place + 1) frame)
        (places 0 (calls.map Call.shape)) made.flatten ∧
      ((∀ call ∈ calls, call.adjusted = call.frames.length) → made = calls.map Call.frames) := by
  induction calls generalizing before with
  | nil => exact ⟨[], rfl, rfl, List.Forall₂.nil, fun _ => rfl⟩
  | cons call rest ih =>
    obtain ⟨some, room⟩ := proper call List.mem_cons_self
    have final := List.getLast?_eq_some_getLast some
    obtain ⟨block, served, first, whole⟩ := processWithin_continuous before call final room
    obtain ⟨made, later, sizes, second, others⟩ := ih
      (fun other member => proper other (List.mem_cons_of_mem _ member)) (call.frames.getLast some)
    refine ⟨block :: made, ?_, ?_, ?_, fun unadjusted => ?_⟩
    · rw [serve, served, Option.bind_eq_bind, Option.bind_some]
      simp only [later, Option.bind_eq_bind, Option.bind_some, Option.pure_def, List.map_cons]
    · rw [List.map_cons, List.map_cons, sizes, ← first.length_eq, length_stretched, Call.shape]
    · rw [List.map_cons, places, List.flatten_cons, places_shift, List.flatMap_cons]
      refine List.rel_append (first.imp fun place frame between => between.append _) ?_
      rw [List.forall₂_map_left_iff]
      refine second.imp fun place frame between => ?_
      have moved := between.prepend (before :: call.frames.dropLast)
      have joined : before :: (call.frames ++ rest.flatMap Call.frames) =
          before :: call.frames.dropLast ++
            call.frames.getLast some :: rest.flatMap Call.frames := by
        conv_lhs => rw [← List.dropLast_append_getLast some]
        simp
      have size : (before :: call.frames.dropLast).length = call.frames.length := by
        have := List.length_pos_iff.mpr some
        simp
        omega
      rw [joined, Call.shape, zero_add, add_assoc]
      rwa [size] at moved
    · rw [List.map_cons, whole (unadjusted call List.mem_cons_self),
        others fun other member => unadjusted other (List.mem_cons_of_mem _ member)]

/-- Before the first block stands its own first frame. -/
theorem processWithin_fresh (previous : ℚ × ℚ) {frames : List (ℚ × ℚ)} {first : ℚ × ℚ}
    (begins : frames.head? = some first) (count adjusted : Nat)
    (some : count ≠ 0 ∧ adjusted ≠ 0) :
    processWithin ⟨false, previous⟩ (interleaved frames) count adjusted =
      processWithin ⟨true, first⟩ (interleaved frames) count adjusted := by
  have taken : pairWithin (interleaved frames) 0 = .some first :=
    pairWithin_eq (show frames[0]? = .some first by rwa [← List.head?_eq_getElem?])
  have proper : ¬ (count = 0 ∨ adjusted = 0) := by omega
  rw [processWithin, processWithin, if_neg proper, if_neg proper, previousWithin, previousWithin,
    if_pos rfl, if_neg Bool.false_ne_true, taken]

theorem serve_reset (retimer : StereoRetimer ℚ) (calls : List Call)
    (proper : ∀ call ∈ calls, call.frames ≠ [] ∧ 0 < call.adjusted) :
    retimer.reset.serve calls =
      serve ⟨true, (calls.flatMap Call.frames).headD retimer.previous⟩ calls := by
  cases calls with
  | nil => rfl
  | cons call rest =>
    obtain ⟨some, room⟩ := proper call List.mem_cons_self
    obtain ⟨first, others, same⟩ := List.exists_cons_of_ne_nil some
    have begins : call.frames.head? = .some first := by rw [same, List.head?_cons]
    have head : ((call :: rest).flatMap Call.frames).headD retimer.previous = first := by
      rw [List.flatMap_cons, same, List.cons_append, List.headD_cons]
    rw [head, serve, serve, reset, processWithin_fresh _ begins _ _ ⟨?_, room.ne'⟩]
    exact (List.length_pos_iff.mpr some).ne'

/-- All frames of the calls, with the first one also before itself. -/
def waveform (calls : List Call) : List (ℚ × ℚ) :=
  (calls.flatMap Call.frames).head?.toList ++ calls.flatMap Call.frames

section Faithful

variable {retimer after : StereoRetimer ℚ} {previous frame : ℚ × ℚ} {input output : List ℚ}
variable {frames adjusted i c : Nat} {sample : ℚ}

theorem pairWithin_getD {index : Nat} (found : pairWithin input index = some frame) :
    (input.getD index 0, input.getD (index + 1) 0) = frame := by
  simp only [pairWithin, Option.bind_eq_bind, Option.bind_eq_some_iff, Option.pure_def,
    Option.some.injEq] at found
  obtain ⟨left, first, right, second, rfl⟩ := found
  simp [List.getD_eq_getElem?_getD, first, second]

theorem sampleWithin_interpolateWith
    (found : sampleWithin previous input frames adjusted i c = some sample) :
    interpolateWith mixture id id previous (fun j => input.getD j 0) frames adjusted i c =
      sample := by
  simp only [sampleWithin, Option.bind_eq_bind, Option.bind_eq_some_iff, Option.pure_def,
    Option.some.injEq] at found
  obtain ⟨left, below, right, above, rfl⟩ := found
  simp only [interpolateWith, id_eq, List.getD_eq_getElem?_getD, above, Option.getD_some]
  rw [leftWithin] at below
  split at below
  · rw [if_pos ‹_›, Option.some.inj below]
  · rw [if_neg ‹_›, below, Option.getD_some]

theorem resultWithin_getElem (found : resultWithin previous input frames adjusted = some output)
    {j : Nat} (inside : j < output.length) :
    output[j]? = some (if frames ≠ adjusted then
        interpolateWith mixture id id previous (fun k => input.getD k 0) frames adjusted
          (j / 2) (j % 2)
      else input.getD j 0) := by
  rw [resultWithin] at found
  split at found
  · rename_i changed
    obtain ⟨pairs, made, rfl⟩ := Option.map_eq_some_iff.mp found
    let sample (i c : Nat) :=
      interpolateWith mixture id id previous (fun k => input.getD k 0) frames adjusted i c
    have one (i) (member : i ∈ List.range adjusted) :
        frameWithin previous input frames adjusted i = some [sample i 0, sample i 1] := by
      cases read : frameWithin previous input frames adjusted i with
      | none => rw [mapM_eq_none member read] at made; cases made
      | some pair =>
        simp only [frameWithin, Option.bind_eq_bind, Option.bind_eq_some_iff, Option.pure_def,
          Option.some.injEq] at read
        obtain ⟨left, first, right, second, rfl⟩ := read
        rw [← sampleWithin_interpolateWith first, ← sampleWithin_interpolateWith second]
    rw [mapM_eq_map _ one] at made
    obtain rfl := Option.some.inj made
    have all : ((List.range adjusted).map fun i => [sample i 0, sample i 1]).flatten =
        interleaved ((List.range adjusted).map fun i => (sample i 0, sample i 1)) := by
      rw [interleaved, List.flatMap_map, List.flatMap_def]
    rw [all] at inside ⊢
    have least : j / 2 < adjusted := by
      have : j < adjusted * 2 := by simpa [interleaved, Function.comp_def] using inside
      omega
    have place : j = j / 2 * 2 + j % 2 := by omega
    conv_lhs => rw [place, interleaved_get _ _ (Nat.mod_lt _ Nat.two_pos), List.getElem?_map,
      List.getElem?_range least]
    rw [if_pos changed]
    rcases Nat.mod_two_eq_zero_or_one j with even | odd
    · rw [even]; rfl
    · rw [odd]; rfl
  · obtain rfl := Option.some.inj found
    rw [if_neg ‹_›, List.getElem?_eq_getElem inside, List.getD_eq_getElem _ _ inside]

/-- The exact calls are the code without rounding, on the samples of the block. -/
theorem processWithin_processWith
    (served : retimer.processWithin input frames adjusted = some (after, output)) :
    let computed := retimer.processWith mixture id id (fun j => input.getD j 0) frames adjusted
    computed.1 = after ∧ ∀ j < output.length, output[j]? = some (computed.2 j) := by
  rw [processWithin] at served
  rw [processWith]
  split at served
  · cases served
    rw [if_pos ‹_›]
    refine ⟨rfl, fun j inside => ?_⟩
    rw [List.getElem?_eq_getElem inside]
    exact congrArg some (List.getD_eq_getElem _ _ inside).symm
  · simp only [Option.bind_eq_bind, Option.bind_eq_some_iff, Option.pure_def,
      Option.some.injEq] at served
    obtain ⟨previous, before, result, made, last, final, same⟩ := served
    obtain ⟨rfl, rfl⟩ := Prod.mk.inj same
    have taken : (if retimer.havePrevious then retimer.previous
        else (input.getD 0 0, input.getD 1 0)) = previous := by
      rw [previousWithin] at before
      split at before
      · rw [if_pos ‹_›, Option.some.inj before]
      · rw [if_neg ‹_›, pairWithin_getD before]
    rw [if_neg ‹_›]
    refine ⟨by rw [pairWithin_getD final], fun j inside => ?_⟩
    rw [resultWithin_getElem made inside, taken]
    simp only [apply_ite (fun f : Nat → ℚ => f j)]

end Faithful

end StereoRetimer

open StereoRetimer in
/-- After a reset, blocks of two frames or more that are stretched or shrunk by one frame at most
are read within their bounds as one continuous sequence. -/
theorem retiming_continuous (retimer : StereoRetimer ℚ) (calls : List Call)
    (blocks : ∀ call ∈ calls, 2 ≤ call.frames.length)
    (near : ∀ call ∈ calls, call.adjusted + 1 = call.frames.length ∨
      call.adjusted = call.frames.length ∨ call.adjusted = call.frames.length + 1) :
    ∃ made : List (List (ℚ × ℚ)),
      retimer.reset.serve calls = some (made.map interleaved) ∧
      made.map List.length = calls.map Call.adjusted ∧
      List.Forall₂ (fun place frame => Between (waveform calls) (place + 1) frame)
        (places 0 (calls.map Call.shape)) made.flatten ∧
      (places 0 (calls.map Call.shape)).IsChain Onward ∧
      (∀ front back, calls = front ++ back → front ≠ [] →
        (places 0 (front.map Call.shape)).getLast? =
          some (((front.flatMap Call.frames).length : ℚ) - 1)) ∧
      ((∀ call ∈ calls, call.adjusted = call.frames.length) → made = calls.map Call.frames) := by
  have proper (call) (member : call ∈ calls) : call.frames ≠ [] ∧ 0 < call.adjusted := by
    have := blocks call member
    have := near call member
    exact ⟨List.length_pos_iff.mp (by omega), by omega⟩
  have shaped : ∀ shape ∈ calls.map Call.shape, Shape shape := by
    rw [List.forall_mem_map]
    intro call member
    have := blocks call member
    have := near call member
    refine ⟨?_, ?_, ?_⟩ <;> simp only [Call.shape] <;> omega
  have ends (front back) (split : calls = front ++ back) (some : front ≠ []) :
      (places 0 (front.map Call.shape)).getLast? =
        .some (((front.flatMap Call.frames).length : ℚ) - 1) := by
    have part : ∀ shape ∈ front.map Call.shape, Shape shape := fun shape member =>
      shaped shape (by rw [split, List.map_append]; exact List.mem_append_left _ member)
    rw [places_last _ part (by simpa using some), List.map_map, Nat.cast_zero, zero_add,
      List.length_flatMap]
    rfl
  have onward := (List.isChain_cons.mp (places_onward _ shaped 0)).2
  obtain ⟨made, served, sizes, between, whole⟩ :=
    serve_continuous calls proper ((calls.flatMap Call.frames).headD retimer.previous)
  refine ⟨made, ?_, sizes, ?_, onward, ends, whole⟩
  · rw [serve_reset retimer calls proper, served]
  · rw [waveform]
    cases input : calls.flatMap Call.frames with
    | nil =>
      -- a single frame has no neighbours
      refine between.imp fun place frame between => ?_
      rw [input] at between
      obtain ⟨k, _, _, _, _, above, _⟩ := between
      cases above
    | cons first others => rwa [input] at between

open StereoRetimer in
/-- A block of two frames in three, then one of three frames in two. -/
theorem retiming_continuous_two : ∃ made : List (List (ℚ × ℚ)),
    (reset ⟨true, (9, 9)⟩).serve [⟨[(0, 1), (3, 1)], 3⟩, ⟨[(1, 0), (2, 0), (3, 0)], 2⟩] =
      some (made.map interleaved) ∧ made.map List.length = [3, 2] := by
  obtain ⟨made, served, sizes, _⟩ := retiming_continuous ⟨true, (9, 9)⟩
    [⟨[(0, 1), (3, 1)], 3⟩, ⟨[(1, 0), (2, 0), (3, 0)], 2⟩]
    (by simp) (by simp)
  exact ⟨made, served, sizes⟩

end VbanStream
