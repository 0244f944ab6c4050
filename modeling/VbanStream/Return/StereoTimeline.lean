import VbanStream.Library.Window
import VbanStream.Library.Observe

/-! `StereoTimeline`, the store of one source's frames by their time. It refines a map from
time to frame, which forgets nothing until it is cleared or given another size. -/

namespace VbanStream

open Library

/-- `StereoTimeline::Frame`. -/
structure StereoFrame (S : Type*) where
  tag : Int
  left : S
  right : S

/-- `data_`: its size, and its frames by index. -/
structure StereoTimeline (S : Type*) where
  size : Nat
  data : Nat → StereoFrame S

/-- `static_cast<size_t>` of an `int64_t`. -/
def sizeOfTime (time : Int) : Nat := (if time < 0 then time + 2 ^ 64 else time).toNat

namespace StereoTimeline

section Operations

variable {S : Type*} [Zero S] [Add S] [Mul S]

def blank : StereoFrame S := ⟨-1, 0, 0⟩

def empty : StereoTimeline S := ⟨0, fun _ => blank⟩

def resize (timeline : StereoTimeline S) (frames : Nat) : StereoTimeline S :=
  if frames ≠ timeline.size then ⟨frames, fun _ => blank⟩ else timeline

def clear (timeline : StereoTimeline S) : StereoTimeline S :=
  { timeline with data := fun cell => { timeline.data cell with tag := -1 } }

/-- The index of a time in `data_`. -/
def index (timeline : StereoTimeline S) (time : Int) : Nat := sizeOfTime time % timeline.size

/-- One turn of the loop in `put`: the timeline and the frames that came too late. -/
def putFrame (start : Int) (samples : Nat → S) (gain : S) (cursor : Int)
    (state : StereoTimeline S × Nat) (i : Nat) : StereoTimeline S × Nat :=
  let (timeline, late) := state
  let time := start + i
  if time < cursor then (timeline, late + 1)
  else if time ≥ cursor + timeline.size then state
  else if (timeline.data (timeline.index time)).tag = time then state
  else
    let frame := ⟨time, samples (i * 2) * gain, samples (i * 2 + 1) * gain⟩
    ({ timeline with data := Function.update timeline.data (timeline.index time) frame }, late)

def put (timeline : StereoTimeline S) (start : Int) (samples : Nat → S) (frames : Nat) (gain : S)
    (cursor : Int) : StereoTimeline S × Nat :=
  if timeline.size = 0 then (timeline, 0)
  else (List.range frames).foldl (putFrame start samples gain cursor) (timeline, 0)

/-- One turn of the loop in `mix`. -/
def mixFrame (start : Int) (state : StereoTimeline S × (Nat → S)) (i : Nat) :
    StereoTimeline S × (Nat → S) :=
  let (timeline, out) := state
  let time := start + i
  let frame := timeline.data (timeline.index time)
  if frame.tag ≠ time then state
  else
    let louder := Function.update out (i * 2) (out (i * 2) + frame.left)
    ({ timeline with
        data := Function.update timeline.data (timeline.index time) { frame with tag := -1 } },
      Function.update louder (i * 2 + 1) (louder (i * 2 + 1) + frame.right))

def mix (timeline : StereoTimeline S) (start : Int) (out : Nat → S) (frames : Nat) :
    StereoTimeline S × (Nat → S) :=
  if timeline.size = 0 then (timeline, out)
  else (List.range frames).foldl (mixFrame start) (timeline, out)

/-- The times at which `mix` finds a frame. -/
def heard (timeline : StereoTimeline S) (start : Int) (out : Nat → S) (frames : Nat) : List Int :=
  (List.range frames).filterMap fun i =>
    let before := (timeline.mix start out i).1
    if (before.data (before.index (start + i))).tag = start + i then some (start + i) else none

/-- What the service loop of a source does: it puts blocks at the current cursor, and mixes
at most once from there, which moves the cursor past the mixed frames. -/
inductive Call (S : Type*) where
  | resize (frames : Nat)
  | clear
  | put (start : Int) (samples : Nat → S) (frames : Nat) (gain : S)
  | mix (out : Nat → S) (frames : Nat)
  | advance (cursor : Int)

/-- The timeline and the cursor of the service loop. -/
structure Service (S : Type*) where
  timeline : StereoTimeline S
  cursor : Int

def step (state : Service S) : Call S → Option (Service S)
  | .resize frames =>
    if 0 < frames then some { state with timeline := state.timeline.resize frames } else none
  | .clear => some { state with timeline := state.timeline.clear }
  | .put start samples frames gain =>
    some { state with timeline := (state.timeline.put start samples frames gain state.cursor).1 }
  | .mix out frames =>
    if frames ≤ state.timeline.size then
      some ⟨(state.timeline.mix state.cursor out frames).1, state.cursor + frames⟩
    else none
  | .advance cursor => if state.cursor ≤ cursor then some { state with cursor } else none

/-- The first `resize` of a new timeline, and where the cursor is then. -/
def opened (frames : Nat) (cursor : Int) : Service S := ⟨empty.resize frames, cursor⟩

/-- The frames that a call adds to the output, by time. -/
def sounds (state : Service S) : Call S → List Int
  | .mix out frames => state.timeline.heard state.cursor out frames
  | _ => []

/-- A map from time to frame, with the window of times that it accepts. -/
structure Score (S : Type*) where
  size : Nat
  cursor : Int
  planned : Int → Option (S × S)

/-- The frame that a block offers for a time, scaled by the gain. -/
def offered (start : Int) (samples : Nat → S) (frames : Nat) (gain : S) (time : Int) :
    Option (S × S) :=
  if start ≤ time ∧ time < start + frames then
    some (samples ((time - start).toNat * 2) * gain, samples ((time - start).toNat * 2 + 1) * gain)
  else none

/-- What is planned already stays; the rest of the window takes what is offered. -/
def admitted (planned : Int → Option (S × S)) (cursor : Int) (size : Nat)
    (offer : Int → Option (S × S)) : Int → Option (S × S) := fun time =>
  (planned time).or <| if cursor ≤ time ∧ time < cursor + size then offer time else none

namespace Score

/-- The first frame offered for a time inside the window stays there. -/
def after (score : Score S) : Call S → Score S
  | .resize frames =>
    if frames = score.size then score else { score with size := frames, planned := fun _ => none }
  | .clear => { score with planned := fun _ => none }
  | .put start samples frames gain =>
    { score with
      planned := admitted score.planned score.cursor score.size
        (offered start samples frames gain) }
  | .mix _ frames => { score with cursor := score.cursor + frames }
  | .advance cursor => { score with cursor }

/-- The output with the planned frames added, from the cursor on. -/
def played (score : Score S) (out : Nat → S) (frames : Nat) : Nat → S := fun j =>
  if j < frames * 2 then
    match score.planned (score.cursor + (j / 2 : Nat)) with
    | some frame => out j + if j % 2 = 0 then frame.1 else frame.2
    | none => out j
  else out j

end Score

end Operations

variable {S : Type*} {timeline : StereoTimeline S} {cursor start : Int}
  {planned : Int → Option (S × S)}

/-- The frame of a cell without its names. -/
def entry (timeline : StereoTimeline S) (cell : Nat) : Tagged (S × S) :=
  ⟨(timeline.data cell).tag, (timeline.data cell).left, (timeline.data cell).right⟩

/-- The timeline stands for the planned frames. -/
def Tells (timeline : StereoTimeline S) (cursor : Int) (planned : Int → Option (S × S)) : Prop :=
  Represents timeline.size timeline.entry cursor planned

theorem index_of_nonneg (timeline : StereoTimeline S) {time : Int} (nonneg : 0 ≤ time) :
    timeline.index time = cellAt timeline.size time := by
  rw [index, cellAt, sizeOfTime, if_neg (Int.not_lt.mpr nonneg)]

theorem entry_update (timeline : StereoTimeline S) (cell : Nat) (frame : StereoFrame S) :
    entry { timeline with data := Function.update timeline.data cell frame } =
      Function.update timeline.entry cell ⟨frame.tag, frame.left, frame.right⟩ := by
  funext other
  by_cases here : other = cell
  · subst here
    simp [entry]
  · simp [entry, Function.update_of_ne here]

theorem Tells.clear (tells : Tells timeline cursor planned) :
    Tells timeline.clear cursor fun _ => none :=
  .blank tells.nonneg fun _ => rfl

theorem Tells.lookup (tells : Tells timeline cursor planned) {time : Int}
    (reached : cursor ≤ time) :
    planned time = if (timeline.data (timeline.index time)).tag = time
      then some ((timeline.data (timeline.index time)).left,
        (timeline.data (timeline.index time)).right) else none := by
  rw [index_of_nonneg timeline (tells.nonneg.trans reached)]
  exact Represents.lookup tells reached

section Putting

variable [Mul S]

/-- What a block offers grows by its last frame. -/
theorem offered_succ (samples : Nat → S) (frames : Nat) (gain : S) :
    offered start samples (frames + 1) gain = Function.update
      (offered start samples frames gain) (start + frames)
      (some (samples (frames * 2) * gain, samples (frames * 2 + 1) * gain)) := by
  funext time
  by_cases last : time = start + frames
  · subst last
    simp [offered]
  · rw [Function.update_of_ne last, offered, offered]
    congr 1
    simp only [Nat.cast_succ, eq_iff_iff]
    omega

/-- One frame is put: counted when it is late, kept when it is the first for its time. -/
theorem Tells.putFrame (tells : Tells timeline cursor planned) (start : Int) (samples : Nat → S)
    (gain : S) (late i : Nat) :
    let put := putFrame start samples gain cursor (timeline, late) i
    Tells put.1 cursor (Function.update planned (start + i) ((planned (start + i)).or <|
        if cursor ≤ start + i ∧ start + i < cursor + timeline.size then
          some (samples (i * 2) * gain, samples (i * 2 + 1) * gain)
        else none)) ∧
      put.1.size = timeline.size ∧ put.2 = late + if start + i < cursor then 1 else 0 := by
  have same {value : Option (S × S)} (equal : planned (start + i) = value) :
      Tells timeline cursor (Function.update planned (start + i) value) := by
    rwa [← equal, Function.update_eq_self]
  simp only [StereoTimeline.putFrame]
  split
  · rename_i early
    refine ⟨same ?_, rfl, rfl⟩
    rw [if_neg (by omega), Option.or_none]
  · rename_i reached
    have reached := Int.not_lt.mp reached
    split
    · rename_i far
      refine ⟨same ?_, rfl, rfl⟩
      rw [if_neg (by omega), Option.or_none]
    · rename_i near
      have near := Int.not_le.mp near
      have inside : cursor ≤ start + i ∧ start + i < cursor + timeline.size := ⟨reached, near⟩
      rw [if_pos inside]
      split
      · rename_i taken
        refine ⟨same ?_, rfl, rfl⟩
        rw [tells.lookup reached, if_pos taken, Option.some_or]
      · rename_i free
        have fresh := tells.lookup reached
        rw [if_neg free] at fresh
        refine ⟨?_, rfl, rfl⟩
        rw [fresh, Option.none_or, Tells, entry_update,
          index_of_nonneg timeline (tells.nonneg.trans reached)]
        exact Represents.store tells reached near fresh _

theorem admitted_succ (samples : Nat → S) (frames size : Nat) (gain : S) :
    admitted planned cursor size (offered start samples (frames + 1) gain) =
      Function.update (admitted planned cursor size (offered start samples frames gain))
        (start + frames)
        ((admitted planned cursor size (offered start samples frames gain) (start + frames)).or <|
          if cursor ≤ start + frames ∧ start + frames < cursor + size then
            some (samples (frames * 2) * gain, samples (frames * 2 + 1) * gain)
          else none) := by
  rw [offered_succ]
  funext time
  by_cases last : time = start + frames
  · subst last
    have beyond : offered start samples frames gain (start + frames) = none := by simp [offered]
    simp only [admitted, Function.update_self, beyond, ite_self, Option.or_none]
  · simp only [admitted, Function.update_of_ne last]

/-- The loop of `put`, frame by frame. -/
theorem Tells.putFrames (tells : Tells timeline cursor planned) (samples : Nat → S) (gain : S)
    (frames : Nat) :
    let put := (List.range frames).foldl (StereoTimeline.putFrame start samples gain cursor)
      (timeline, 0)
    Tells put.1 cursor (admitted planned cursor timeline.size
        (offered start samples frames gain)) ∧ put.1.size = timeline.size ∧
      put.2 = (List.range frames).countP fun i : Nat => start + i < cursor := by
  induction frames with
  | zero =>
    have nothing : admitted planned cursor timeline.size (offered start samples 0 gain) =
        planned := by
      funext time
      have outside : ¬ (start ≤ time ∧ time < start + (0 : Nat)) := by omega
      rw [admitted, offered, if_neg outside, ite_self, Option.or_none]
    rw [nothing]
    exact ⟨tells, rfl, rfl⟩
  | succ frames ih =>
    obtain ⟨told, size, late⟩ := ih
    have next := told.putFrame start samples gain
      ((List.range frames).countP fun i : Nat => start + i < cursor) frames
    rw [← late, size, Prod.mk.eta] at next
    rw [List.range_succ, List.foldl_append, List.countP_append, ← late, admitted_succ]
    refine ⟨next.1, next.2.1, next.2.2.trans ?_⟩
    simp [List.countP_cons]

theorem Tells.put (tells : Tells timeline cursor planned) (positive : 0 < timeline.size)
    (start : Int) (samples : Nat → S) (frames : Nat) (gain : S) :
    let put := timeline.put start samples frames gain cursor
    Tells put.1 cursor (admitted planned cursor timeline.size
        (offered start samples frames gain)) ∧ put.1.size = timeline.size ∧
      put.2 = (List.range frames).countP fun i : Nat => start + i < cursor := by
  rw [StereoTimeline.put, if_neg (Nat.pos_iff_ne_zero.mp positive)]
  exact tells.putFrames samples gain frames

end Putting

section Mixing

variable [Add S]

/-- One frame is mixed: what is planned at the cursor is added, and the cursor moves on. -/
theorem Tells.mixFrame (tells : Tells timeline cursor planned) {i : Nat}
    (here : cursor = start + i) (out : Nat → S) :
    let mixed := StereoTimeline.mixFrame start (timeline, out) i
    Tells mixed.1 (cursor + 1) planned ∧ mixed.1.size = timeline.size ∧
      mixed.2 = match planned cursor with
        | some frame => Function.update (Function.update out (i * 2) (out (i * 2) + frame.1))
            (i * 2 + 1) (out (i * 2 + 1) + frame.2)
        | none => out := by
  have found := tells.lookup le_rfl
  subst here
  simp only [StereoTimeline.mixFrame]
  split
  · rename_i other
    rw [if_neg other] at found
    rw [found]
    exact ⟨tells.advance (by omega), rfl, rfl⟩
  · rename_i same
    rw [if_pos (not_not.mp same)] at found
    rw [found]
    refine ⟨?_, rfl, ?_⟩
    · rw [Tells, entry_update, index_of_nonneg timeline tells.nonneg]
      exact Represents.take tells _
    · simp

theorem played_succ (size : Nat) (out : Nat → S) (frames : Nat) :
    Score.played ⟨size, cursor, planned⟩ out (frames + 1) =
      match planned (cursor + frames) with
        | some frame => Function.update (Function.update
            (Score.played ⟨size, cursor, planned⟩ out frames) (frames * 2)
              (Score.played ⟨size, cursor, planned⟩ out frames (frames * 2) + frame.1))
            (frames * 2 + 1)
              (Score.played ⟨size, cursor, planned⟩ out frames (frames * 2 + 1) + frame.2)
        | none => Score.played ⟨size, cursor, planned⟩ out frames := by
  have even : frames * 2 / 2 = frames := by omega
  have odd : (frames * 2 + 1) / 2 = frames := by omega
  funext j
  rcases Nat.lt_trichotomy j (frames * 2) with inside | rfl | beyond
  · have other : j ≠ frames * 2 + 1 := by omega
    have still : j < (frames + 1) * 2 := by omega
    cases found : planned (cursor + frames) <;>
      simp [Score.played, inside, inside.ne, other, still]
  · cases found : planned (cursor + frames) <;> simp [Score.played, even, found]
  · by_cases last : j = frames * 2 + 1
    · subst last
      have still : frames * 2 + 1 < (frames + 1) * 2 := by omega
      cases found : planned (cursor + frames) <;> simp [Score.played, odd, found, still]
    · have outside : ¬ j < (frames + 1) * 2 := by omega
      cases found : planned (cursor + frames) <;>
        simp [Score.played, outside, last, beyond.ne', Nat.not_lt_of_gt beyond]

theorem Tells.mixFrames (tells : Tells timeline cursor planned) (out : Nat → S) (frames : Nat) :
    let mixed := (List.range frames).foldl (StereoTimeline.mixFrame cursor) (timeline, out)
    Tells mixed.1 (cursor + frames) planned ∧ mixed.1.size = timeline.size ∧
      mixed.2 = Score.played ⟨timeline.size, cursor, planned⟩ out frames := by
  induction frames with
  | zero =>
    refine ⟨by simpa using tells, rfl, ?_⟩
    funext j
    simp [Score.played]
  | succ frames ih =>
    obtain ⟨told, size, sound⟩ := ih
    have next := told.mixFrame rfl (Score.played ⟨timeline.size, cursor, planned⟩ out frames)
    rw [← sound, Prod.mk.eta, sound, size] at next
    rw [List.range_succ, List.foldl_append, played_succ, Nat.cast_succ, ← Int.add_assoc]
    exact next

theorem Tells.mix (tells : Tells timeline cursor planned) (positive : 0 < timeline.size)
    (out : Nat → S) (frames : Nat) :
    let mixed := timeline.mix cursor out frames
    Tells mixed.1 (cursor + frames) planned ∧ mixed.1.size = timeline.size ∧
      mixed.2 = Score.played ⟨timeline.size, cursor, planned⟩ out frames := by
  rw [StereoTimeline.mix, if_neg (Nat.pos_iff_ne_zero.mp positive)]
  exact tells.mixFrames out frames

theorem mem_heard {out : Nat → S} {frames : Nat} {time : Int}
    (found : time ∈ timeline.heard start out frames) : start ≤ time ∧ time < start + frames := by
  obtain ⟨i, inside, here⟩ := List.mem_filterMap.mp found
  obtain ⟨_, same⟩ := Option.ite_none_right_eq_some.mp here
  cases same
  have bound := List.mem_range.mp inside
  omega

theorem heard_increasing (timeline : StereoTimeline S) (start : Int) (out : Nat → S)
    (frames : Nat) : (timeline.heard start out frames).Pairwise (· < ·) := by
  refine List.pairwise_lt_range.filterMap _ ?_
  intro first second order early found late hears
  obtain ⟨_, sooner⟩ := Option.ite_none_right_eq_some.mp found
  obtain ⟨_, later⟩ := Option.ite_none_right_eq_some.mp hears
  cases sooner
  cases later
  omega

end Mixing

/-- The concrete service and the score agree on the window. -/
structure Follows (state : Service S) (score : Score S) : Prop where
  tells : Tells state.timeline state.cursor score.planned
  size : state.timeline.size = score.size
  cursor : state.cursor = score.cursor
  positive : 0 < score.size

variable [Zero S]

theorem tells_blank (size : Nat) (nonneg : 0 ≤ cursor) :
    Tells (⟨size, fun _ => blank⟩ : StereoTimeline S) cursor fun _ => none :=
  .blank nonneg fun _ => rfl

theorem follows_opened {frames : Nat} (positive : 0 < frames) (nonneg : 0 ≤ cursor) :
    Follows (opened frames cursor : Service S) ⟨frames, cursor, fun _ => none⟩ := by
  have fresh : frames ≠ (empty : StereoTimeline S).size := Nat.pos_iff_ne_zero.mp positive
  rw [opened, resize, if_pos fresh]
  exact ⟨tells_blank frames nonneg, rfl, rfl, positive⟩

variable [Add S] [Mul S]

theorem Follows.step {state next : Service S} {score : Score S} (follows : Follows state score)
    {call : Call S} (taken : StereoTimeline.step state call = some next) :
    Follows next (score.after call) := by
  obtain ⟨tells, size, same, positive⟩ := follows
  obtain ⟨timeline, _⟩ := state
  obtain ⟨_, cursor, planned⟩ := score
  simp only at tells size same positive
  subst size same
  cases call with
  | resize frames =>
    obtain ⟨valid, made⟩ := Option.ite_none_right_eq_some.mp taken
    cases made
    by_cases kept : frames = timeline.size
    · simp only [resize, Score.after, kept, ne_eq, not_true, if_false, if_true]
      exact ⟨tells, rfl, rfl, positive⟩
    · simp only [resize, Score.after, if_neg kept, if_pos kept]
      exact ⟨tells_blank frames tells.nonneg, rfl, rfl, valid⟩
  | clear =>
    cases taken
    exact ⟨tells.clear, rfl, rfl, positive⟩
  | put start samples frames gain =>
    cases taken
    obtain ⟨told, size, _⟩ := tells.put positive start samples frames gain
    exact ⟨told, size, rfl, positive⟩
  | mix out frames =>
    obtain ⟨_, made⟩ := Option.ite_none_right_eq_some.mp taken
    cases made
    obtain ⟨told, size, _⟩ := tells.mix positive out frames
    exact ⟨told, size, rfl, positive⟩
  | advance cursor =>
    obtain ⟨order, made⟩ := Option.ite_none_right_eq_some.mp taken
    cases made
    exact ⟨tells.advance order, rfl, rfl, positive⟩

theorem Follows.run {state final : Service S} {score : Score S} (follows : Follows state score)
    {calls : List (Call S)} (ran : Library.run StereoTimeline.step state calls = some final) :
    Follows final (calls.foldl Score.after score) := by
  induction calls generalizing state score with
  | nil => cases ran; exact follows
  | cons call rest ih =>
    obtain ⟨next, taken, later⟩ := run_cons.mp ran
    exact ih (follows.step taken) later

/-- A call never moves the cursor back, and adds only frames that it then leaves behind. -/
theorem sounds_between {state next : Service S} {call : Call S}
    (taken : step state call = some next) :
    state.cursor ≤ next.cursor ∧
      ∀ time ∈ sounds state call, state.cursor ≤ time ∧ time < next.cursor := by
  cases call with
  | mix out frames =>
    obtain ⟨_, made⟩ := Option.ite_none_right_eq_some.mp taken
    cases made
    refine ⟨?_, fun time found => mem_heard found⟩
    show state.cursor ≤ state.cursor + frames
    omega
  | advance cursor =>
    obtain ⟨order, made⟩ := Option.ite_none_right_eq_some.mp taken
    cases made
    exact ⟨order, nofun⟩
  | resize frames =>
    obtain ⟨_, made⟩ := Option.ite_none_right_eq_some.mp taken
    cases made
    exact ⟨le_rfl, nofun⟩
  | clear => cases taken; exact ⟨le_rfl, nofun⟩
  | put start samples frames gain => cases taken; exact ⟨le_rfl, nofun⟩

/-- Over a whole run the added frames have rising times, from the first cursor on. -/
theorem sounds_rise {state final : Service S} {calls : List (Call S)}
    (ran : Library.run step state calls = some final) :
    (observed step sounds state calls).Pairwise (· < ·) ∧
      ∀ time ∈ observed step sounds state calls, state.cursor ≤ time := by
  induction calls generalizing state with
  | nil => exact ⟨.nil, nofun⟩
  | cons call rest ih =>
    obtain ⟨next, taken, later⟩ := run_cons.mp ran
    obtain ⟨rising, after⟩ := ih later
    obtain ⟨forward, between⟩ := sounds_between taken
    rw [observed_cons taken]
    refine ⟨List.pairwise_append.mpr ⟨?_, rising, ?_⟩, ?_⟩
    · cases call with
      | mix out frames => exact heard_increasing ..
      | _ => exact .nil
    · intro early now late afterwards
      exact lt_of_lt_of_le (between early now).2 (after late afterwards)
    · intro time found
      rcases List.mem_append.mp found with now | afterwards
      · exact (between time now).1
      · exact forward.trans (after time afterwards)

/-- After any calls a mix adds at each time the first frame offered for it inside the window
since the last clear or change of size, and nothing where there was none; `put` counts the
frames before the cursor; no frame is added twice, nor once the cursor has passed it. -/
theorem timeline_refines (frames : Nat) (cursor : Int) (positive : 0 < frames)
    (nonneg : 0 ≤ cursor) (calls : List (Call S)) (state : Service S)
    (ran : run step (opened frames cursor) calls = some state) :
    let score := calls.foldl Score.after ⟨frames, cursor, fun _ => none⟩
    state.cursor = score.cursor ∧ state.timeline.size = score.size ∧
      (∀ out length, (state.timeline.mix state.cursor out length).2 = score.played out length) ∧
      (∀ start samples length gain,
        (state.timeline.put start samples length gain state.cursor).2 =
          (List.range length).countP fun i : Nat => start + i < state.cursor) ∧
      (observed step sounds (opened frames cursor) calls).Pairwise (· < ·) ∧
      ∀ later final, run step state later = some final →
        ∀ time ∈ observed step sounds state later, state.cursor ≤ time := by
  have follows := (follows_opened (S := S) positive nonneg).run ran
  have full : 0 < state.timeline.size := follows.size ▸ follows.positive
  refine ⟨follows.cursor, follows.size, ?_, ?_, (sounds_rise ran).1, ?_⟩
  · intro out length
    obtain ⟨_, _, sound⟩ := follows.tells.mix full out length
    rw [sound, follows.size, follows.cursor]
  · intro start samples length gain
    exact (follows.tells.put full start samples length gain).2.2
  · intro later final went
    exact (sounds_rise went).2

/-- Two frames of room, a frame that is offered twice, and one that the cursor jumps over. -/
theorem timeline_refines_jump : ∃ state : Service Int,
    run step (opened 2 0) [.put 0 (fun i => (i : Int)) 2 3, .advance 1, .put 1 (fun _ => 9) 2 1,
      .advance 2] = some state ∧
    ∀ out, (state.timeline.mix 2 out 2).2 0 = out 0 + 9 ∧
      (state.timeline.mix 2 out 2).2 2 = out 2 := by
  refine ⟨_, rfl, fun out => ?_⟩
  obtain ⟨_, _, mixed, _⟩ := timeline_refines 2 0 (by decide) le_rfl
    [.put 0 (fun i => (i : Int)) 2 3, .advance 1, .put 1 (fun _ => 9) 2 1, .advance 2] _ rfl
  exact ⟨congrFun (mixed out 2) 0, congrFun (mixed out 2) 2⟩

end StereoTimeline

end VbanStream
