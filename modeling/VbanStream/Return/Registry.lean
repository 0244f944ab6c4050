import VbanStream.Library.Run

/-! Which taps exist and which of them OBS calls: `track` and `shutdown`, the worker's pass over
the registry, and sources that come, go and leave their addresses to others. -/

namespace VbanStream

open Library

/-- The life of an OBS source. Weak references to a dying source cannot be upgraded; OBS clears the
capture callbacks of it before it signals `destroy`. -/
inductive SourcePhase where
  | unborn | living | dying | cleared | gone
deriving DecidableEq

/-- The memory of the source is in use. -/
def SourcePhase.occupied : SourcePhase → Bool
  | .unborn | .gone => false
  | .living | .dying | .cleared => true

/-- OBS may call the capture callbacks of the source. -/
def SourcePhase.captures : SourcePhase → Bool
  | .unborn | .cleared | .gone => false
  | .living | .dying => true

/-- The progress of one call of `track`. -/
inductive TrackCall where
  | entered (source : Nat)
  | building (source : Nat)
  | inserting (source tap : Nat)
deriving DecidableEq

def TrackCall.source : TrackCall → Nat
  | .entered source | .building source | .inserting source _ => source

/-- The source of a `Tap`, and its flags `dead` and `attached`. -/
structure TrackedTap where
  source : Nat := 0
  dead : Bool := false
  attached : Bool := false

/-- How far `shutdown` is: it joins the worker, detaches the taps, waits until no destruction is in
progress, detaches again and clears the registry. -/
inductive Shutdown where
  | running
  | detaching (remaining : List Nat)
  | waiting
  | again (remaining : List Nat)
  | cleared
deriving DecidableEq

/-- The sources and taps that there have been, by their numbers, and the registry `taps` that finds
a tap under the address of its source. -/
structure TapRegistry where
  born : Nat := 0
  address : Nat → Nat := fun _ => 0
  phase : Nat → SourcePhase := fun _ => .unborn
  made : Nat := 0
  tap : Nat → TrackedTap := fun _ => {}
  registry : Nat → Option Nat := fun _ => none
  live : List Nat := []
  calls : List TrackCall := []
  callbacks : List (Nat × Nat) := []
  shutdown : Shutdown := .running
  tracked : List Nat := []

namespace TapRegistry

inductive Label where
  | create (address : Nat)
  | release (source : Nat)
  | clear (source : Nat)
  | destroy (source : Nat)
  | track (source : Nat)
  | look (source : Nat)
  | build (source : Nat)
  | insert (source tap : Nat)
  | sweep
  | service (tap : Nat) (wanted : Bool)
  | stop
  | detach
  | wait

/-- OBS creates and destroys sources. The caller of `track` holds a reference to the source. -/
def sourceStep (s : TapRegistry) : Label → Option TapRegistry
  | .create address =>
    if (List.range s.born).all fun n => !((s.phase n).occupied && s.address n == address) then
      some { s with
        born := s.born + 1
        address := Function.update s.address s.born address
        phase := Function.update s.phase s.born .living }
    else none
  | .release source =>
    if s.phase source = .living ∧ s.calls.all (fun call => call.source != source) = true then
      some { s with phase := Function.update s.phase source .dying }
    else none
  | .clear source =>
    if s.phase source = .dying then
      some { s with
        phase := Function.update s.phase source .cleared
        callbacks := s.callbacks.filter fun entry => entry.1 != source }
    else none
  | .destroy source =>
    if s.phase source = .cleared then
      some { s with
        phase := Function.update s.phase source .gone
        tap := fun t =>
          if t < s.made ∧ (s.tap t).source = source then { s.tap t with dead := true }
          else s.tap t }
    else none
  | _ => none

/-- The call returns. -/
def returns (s : TapRegistry) (call : TrackCall) : TapRegistry :=
  { s with calls := s.calls.erase call, tracked := s.tracked ++ [call.source] }

/-- `track`, for `source_create` and for `obs_enum_sources`. -/
def trackStep (s : TapRegistry) : Label → Option TapRegistry
  | .track source =>
    if s.phase source = .living ∧ s.shutdown = .running then
      some { s with calls := s.calls ++ [.entered source] }
    else none
  | .look source =>
    if .entered source ∈ s.calls then
      let calls := s.calls.erase (.entered source) ++ [.building source]
      match s.registry (s.address source) with
      | none => some { s with calls }
      | some t =>
        if (s.tap t).dead then
          some { s with calls, registry := Function.update s.registry (s.address source) none }
        else some (s.returns (.entered source))
    else none
  | .build source =>
    if .building source ∈ s.calls then
      some { s with
        calls := s.calls.erase (.building source) ++ [.inserting source s.made]
        made := s.made + 1
        tap := Function.update s.tap s.made { source } }
    else none
  | .insert source t =>
    if .inserting source t ∈ s.calls then
      match s.registry (s.address source) with
      | none =>
        some { s.returns (.inserting source t) with
          registry := Function.update s.registry (s.address source) (some t) }
      | some _ => some (s.returns (.inserting source t))
    else none
  | _ => none

/-- The taps of the registry. -/
def registered (s : TapRegistry) : List Nat :=
  (List.range s.made).filter fun t => s.registry (s.address (s.tap t).source) = some t

def attach (s : TapRegistry) (t : Nat) : TapRegistry :=
  { s with
    tap := Function.update s.tap t { s.tap t with attached := true }
    callbacks := s.callbacks ++ [((s.tap t).source, t)] }

/-- `detach` -/
def detachTap (s : TapRegistry) (t : Nat) : TapRegistry :=
  if (s.tap t).attached = false then s
  else if s.phase (s.tap t).source = .living then
    { s with
      tap := Function.update s.tap t { s.tap t with attached := false }
      callbacks := s.callbacks.erase ((s.tap t).source, t) }
  else if (s.tap t).dead then
    { s with tap := Function.update s.tap t { s.tap t with attached := false } }
  else s

/-- The worker: its pass over the registry, and what `service` does to the callbacks. -/
def workerStep (s : TapRegistry) : Label → Option TapRegistry
  | .sweep =>
    if s.shutdown = .running then
      some { s with
        live := s.registered.filter fun t => !(s.tap t).dead
        registry := fun a => (s.registry a).filter fun t => !(s.tap t).dead }
    else none
  | .service t wanted =>
    if t ∈ s.live then
      if wanted && !(s.tap t).dead then
        if s.phase (s.tap t).source = .living ∧ (s.tap t).attached = false then some (s.attach t)
        else some s
      else some (s.detachTap t)
    else none
  | _ => none

/-- `shutdown`. The signal `source_create` is disconnected and the worker is joined first. -/
def shutdownStep (s : TapRegistry) : Label → Shutdown → Option TapRegistry
  | .stop, .running =>
    if s.calls = [] then some { s with shutdown := .detaching s.registered, live := [] } else none
  | .detach, .detaching (t :: remaining) =>
    some { s.detachTap t with shutdown := .detaching remaining }
  | .detach, .detaching [] => some { s with shutdown := .waiting }
  | .wait, .waiting =>
    if (List.range s.born).all fun n => s.phase n != .dying && s.phase n != .cleared then
      some { s with shutdown := .again s.registered }
    else none
  | .detach, .again (t :: remaining) =>
    some { s.detachTap t with shutdown := .again remaining }
  | .detach, .again [] => some { s with shutdown := .cleared, registry := fun _ => none }
  | _, _ => none

def step (s : TapRegistry) (label : Label) : Option TapRegistry :=
  match label with
  | .create _ | .release _ | .clear _ | .destroy _ => s.sourceStep label
  | .track _ | .look _ | .build _ | .insert _ _ => s.trackStep label
  | .sweep | .service _ _ => s.workerStep label
  | .stop | .detach | .wait => s.shutdownStep label s.shutdown

/-- What `shutdown` has reached: first no living source has a callback left, at last no source. -/
def Quiet (s : TapRegistry) : Shutdown → Prop
  | .running => True
  | .detaching remaining => s.live = [] ∧ s.calls = [] ∧
    ∀ t < s.made, (s.tap t).attached = true → t ∈ remaining ∨ s.phase (s.tap t).source ≠ .living
  | .waiting => s.live = [] ∧ s.calls = [] ∧
    ∀ t < s.made, (s.tap t).attached = true → s.phase (s.tap t).source ≠ .living
  | .again _ | .cleared => s.live = [] ∧ s.calls = [] ∧
    ∀ t < s.made, (s.tap t).attached = true → s.phase (s.tap t).source = .gone

structure Kept (s : TapRegistry) : Prop where
  below : ∀ n, s.phase n ≠ .unborn → n < s.born
  alone : ∀ n m, (s.phase n).occupied = true → (s.phase m).occupied = true →
    s.address n = s.address m → n = m
  real : ∀ t < s.made, s.phase (s.tap t).source ≠ .unborn
  dead : ∀ t < s.made, ((s.tap t).dead = true ↔ s.phase (s.tap t).source = .gone)
  keyed : ∀ a t, s.registry a = some t → t < s.made ∧ s.address (s.tap t).source = a
  owned : ∀ t < s.made, t ∈ s.live ∨ (s.tap t).attached = true →
    s.phase (s.tap t).source = .gone ∨ s.registry (s.address (s.tap t).source) = some t
  live : ∀ t ∈ s.live, t < s.made
  calls : ∀ call ∈ s.calls, s.phase call.source = .living
  looked : ∀ call ∈ s.calls, call ≠ .entered call.source →
    ∀ t, s.registry (s.address call.source) = some t → (s.tap t).dead = false
  inserting : ∀ n t, .inserting n t ∈ s.calls → t < s.made ∧ (s.tap t).source = n
  tracked : s.shutdown ≠ .cleared → ∀ n ∈ s.tracked, (s.phase n).occupied = true →
    ∃ t, s.registry (s.address n) = some t ∧ (s.tap t).source = n
  known : ∀ n ∈ s.tracked, s.phase n ≠ .unborn
  callbacks : ∀ n t, (n, t) ∈ s.callbacks →
    t < s.made ∧ (s.tap t).source = n ∧ (s.tap t).attached = true ∧ (s.phase n).captures = true
  once : s.callbacks.Nodup
  attached : ∀ t < s.made, (s.tap t).attached = true →
    (s.phase (s.tap t).source).captures = true → ((s.tap t).source, t) ∈ s.callbacks
  quiet : s.Quiet s.shutdown

variable {s next : TapRegistry}

theorem Kept.initial : Kept {} := by
  constructor <;> simp [SourcePhase.occupied, Quiet]

theorem Quiet.mono {shutdown : Shutdown} (quiet : s.Quiet shutdown)
    (live : s.live = [] → next.live = []) (calls : s.calls = [] → next.calls = [])
    (taps : ∀ t < next.made, (next.tap t).attached = true → t < s.made ∧ (s.tap t).attached = true ∧
      (s.phase (s.tap t).source ≠ .living → next.phase (next.tap t).source ≠ .living) ∧
      (s.phase (s.tap t).source = .gone → next.phase (next.tap t).source = .gone)) :
    next.Quiet shutdown := by
  cases shutdown with
  | running => trivial
  | detaching remaining =>
    refine ⟨live quiet.1, calls quiet.2.1, fun t below attached => ?_⟩
    obtain ⟨below, attached, passed, _⟩ := taps t below attached
    exact (quiet.2.2 t below attached).imp_right passed
  | waiting =>
    refine ⟨live quiet.1, calls quiet.2.1, fun t below attached => ?_⟩
    obtain ⟨below, attached, passed, _⟩ := taps t below attached
    exact passed (quiet.2.2 t below attached)
  | again | cleared =>
    refine ⟨live quiet.1, calls quiet.2.1, fun t below attached => ?_⟩
    obtain ⟨below, attached, _, passed⟩ := taps t below attached
    exact passed (quiet.2.2 t below attached)

/-- A source changes that no tap, call or callback belongs to. -/
theorem Kept.create (kept : Kept s) {address : Nat}
    (free : ∀ n, (s.phase n).occupied = true → s.address n ≠ address) :
    Kept { s with
      born := s.born + 1
      address := Function.update s.address s.born address
      phase := Function.update s.phase s.born .living } := by
  have unborn : s.phase s.born = .unborn := by
    by_contra born
    exact absurd (kept.below _ born) (Nat.lt_irrefl _)
  have old (n : Nat) (born : s.phase n ≠ .unborn) :
      Function.update s.phase s.born .living n = s.phase n ∧
        Function.update s.address s.born address n = s.address n := by
    have apart : n ≠ s.born := fun same => born (same ▸ unborn)
    exact ⟨Function.update_of_ne apart _ _, Function.update_of_ne apart _ _⟩
  have source (t : Nat) (made : t < s.made) := old _ (kept.real t made)
  have user (call : TrackCall) (member : call ∈ s.calls) :=
    old call.source (by rw [kept.calls call member]; exact nofun)
  have tracked (n : Nat) (member : n ∈ s.tracked) := old n (kept.known n member)
  refine { kept with
    below := ?_, alone := ?_, real := ?_, dead := ?_, keyed := ?_, owned := ?_, calls := ?_,
    looked := ?_, tracked := ?_, known := ?_, callbacks := ?_, attached := ?_, quiet := ?_ }
  · intro n born
    have below := kept.below n
    grind [Function.update_apply]
  · intro n m
    have alone := kept.alone n m
    have first := free n
    have second := free m
    grind [Function.update_apply]
  · intro t made
    simpa only [(source t made).1] using kept.real t made
  · intro t made
    simpa only [(source t made).1] using kept.dead t made
  · intro a t found
    obtain ⟨made, here⟩ := kept.keyed a t found
    exact ⟨made, (source t made).2.trans here⟩
  · intro t made
    simpa only [(source t made).1, (source t made).2] using kept.owned t made
  · intro call member
    simpa only [(user call member).1] using kept.calls call member
  · intro call member
    simpa only [(user call member).2] using kept.looked call member
  · intro running n member
    simpa only [(tracked n member).1, (tracked n member).2] using kept.tracked running n member
  · intro n member
    simpa only [(tracked n member).1] using kept.known n member
  · intro n t member
    obtain ⟨made, rfl, attached, captures⟩ := kept.callbacks n t member
    refine ⟨made, rfl, attached, ?_⟩
    simpa only [(source t made).1] using captures
  · intro t made
    simpa only [(source t made).1] using kept.attached t made
  · refine kept.quiet.mono id id fun t made attached => ⟨made, attached, ?_⟩
    simp only [(source t made).1]
    exact ⟨id, id⟩

/-- A source gets on in its life, and nobody calls `track` for it. -/
theorem Kept.age (kept : Kept s) (source : Nat) (later : SourcePhase) (tap : Nat → TrackedTap)
    (occupied : (s.phase source).occupied = true) (born : later ≠ .unborn) (past : later ≠ .living)
    (free : ∀ call ∈ s.calls, call.source ≠ source)
    (captures : later.captures = true → (s.phase source).captures = true)
    (sources : ∀ t, (tap t).source = (s.tap t).source ∧ (tap t).attached = (s.tap t).attached)
    (dead : ∀ t < s.made, ((tap t).dead = true ↔
      (s.tap t).dead = true ∨ (s.tap t).source = source ∧ later = .gone)) :
    Kept { s with
      phase := Function.update s.phase source later
      tap := tap
      callbacks := s.callbacks.filter fun entry => later.captures || entry.1 != source } := by
  have gone : s.phase source ≠ .gone := fun gone => by rw [gone] at occupied; cases occupied
  have phase (n : Nat) : (n = source ∧ Function.update s.phase source later n = later) ∨
      (n ≠ source ∧ Function.update s.phase source later n = s.phase n) := by
    by_cases here : n = source
    · exact .inl ⟨here, here ▸ Function.update_self _ _ _⟩
    · exact .inr ⟨here, Function.update_of_ne here _ _⟩
  refine { kept with
    below := ?_, alone := ?_, real := ?_, dead := ?_, keyed := ?_, owned := ?_, calls := ?_,
    looked := ?_, inserting := ?_, tracked := ?_, known := ?_, callbacks := ?_,
    once := kept.once.filter _, attached := ?_, quiet := ?_ }
  · intro n
    have below := kept.below n
    rcases phase n with ⟨rfl, new⟩ | ⟨_, old⟩
    · exact fun _ => below fun unborn => by rw [unborn] at occupied; cases occupied
    · simpa only [old] using below
  · intro n m first second
    have before (k : Nat) (used : (Function.update s.phase source later k).occupied = true) :
        (s.phase k).occupied = true := by
      rcases phase k with ⟨rfl, _⟩ | ⟨_, old⟩
      · exact occupied
      · exact old ▸ used
    exact kept.alone n m (before n first) (before m second)
  · intro t made
    rcases phase (s.tap t).source with ⟨_, new⟩ | ⟨_, old⟩
    · simpa only [(sources t).1, new] using born
    · simpa only [(sources t).1, old] using kept.real t made
  · intro t made
    have flag := kept.dead t made
    simp only [dead t made, (sources t).1]
    rcases phase (s.tap t).source with ⟨here, new⟩ | ⟨here, old⟩
    · rw [new, flag, here]
      simp [gone]
    · rw [old, flag]
      simp [here]
  · intro a t found
    simpa only [(sources t).1] using kept.keyed a t found
  · intro t made
    simp only [(sources t).1, (sources t).2]
    refine fun held => (kept.owned t made held).imp_left fun ended => ?_
    rcases phase (s.tap t).source with ⟨here, _⟩ | ⟨_, old⟩
    · exact absurd (here ▸ ended) gone
    · exact old.trans ended
  · intro call member
    rcases phase call.source with ⟨here, _⟩ | ⟨_, old⟩
    · exact absurd here (free call member)
    · exact old.trans (kept.calls call member)
  · intro call member other t found
    have flag := kept.looked call member other t found
    obtain ⟨made, here⟩ := kept.keyed _ t found
    by_contra ended
    rcases (dead t made).mp (Bool.not_eq_false _ ▸ ended) with before | ⟨rfl, _⟩
    · exact absurd (flag.symm.trans before) nofun
    · -- The call's source is at this address, too.
      have used : (s.phase call.source).occupied = true := by rw [kept.calls call member]; rfl
      exact free call member (kept.alone _ _ used occupied here.symm)
  · intro n t member
    simpa only [(sources t).1] using kept.inserting n t member
  · intro running n member used
    obtain ⟨t, found, same⟩ := kept.tracked running n member (by
      rcases phase n with ⟨rfl, _⟩ | ⟨_, old⟩
      · exact occupied
      · exact old ▸ used)
    exact ⟨t, found, (sources t).1.trans same⟩
  · intro n member
    rcases phase n with ⟨_, new⟩ | ⟨_, old⟩
    · simpa only [new] using born
    · simpa only [old] using kept.known n member
  · intro n t member
    obtain ⟨old, stays⟩ := List.mem_filter.mp member
    obtain ⟨made, here, attached, captured⟩ := kept.callbacks n t old
    refine ⟨made, (sources t).1.trans here, (sources t).2.trans attached, ?_⟩
    rcases phase n with ⟨same, new⟩ | ⟨_, old⟩
    · simpa [new, same] using stays
    · simpa only [old] using captured
  · intro t made
    simp only [(sources t).1, (sources t).2]
    intro attached captured
    refine List.mem_filter.mpr ?_
    rcases phase (s.tap t).source with ⟨here, new⟩ | ⟨here, old⟩
    · rw [new] at captured
      exact ⟨kept.attached t made attached (here ▸ captures captured), by simp [captured]⟩
    · exact ⟨kept.attached t made attached (old ▸ captured), by simp [here]⟩
  · refine kept.quiet.mono id id fun t made attached => ?_
    refine ⟨made, (sources t).2 ▸ attached, ?_, ?_⟩
    · intro passed
      simp only [(sources t).1]
      rcases phase (s.tap t).source with ⟨_, new⟩ | ⟨_, old⟩
      · simpa only [new] using past
      · simpa only [old] using passed
    · intro ended
      simp only [(sources t).1]
      rcases phase (s.tap t).source with ⟨here, _⟩ | ⟨_, old⟩
      · exact absurd (here ▸ ended) gone
      · exact old.trans ended

theorem Kept.running (kept : Kept s) (busy : s.calls ≠ [] ∨ s.live ≠ []) :
    s.shutdown = .running := by
  have quiet := kept.quiet
  cases stage : s.shutdown with
  | running => rfl
  | detaching | waiting | again | cleared =>
    rw [stage] at quiet
    rcases busy with calls | live
    · exact absurd quiet.2.1 calls
    · exact absurd quiet.1 live

theorem Kept.mine (kept : Kept s) {source t : Nat} (occupied : (s.phase source).occupied = true)
    (found : s.registry (s.address source) = some t) (alive : (s.tap t).dead = false) :
    (s.tap t).source = source := by
  obtain ⟨made, here⟩ := kept.keyed _ t found
  refine kept.alone _ _ ?_ occupied here
  cases phase : s.phase (s.tap t).source with
  | living | dying | cleared => rfl
  | unborn => exact absurd phase (kept.real t made)
  | gone =>
    rw [(kept.dead t made).mpr phase] at alive
    cases alive

theorem Kept.alive (kept : Kept s) {t : Nat} (made : t < s.made)
    (occupied : (s.phase (s.tap t).source).occupied = true) : (s.tap t).dead = false := by
  by_contra ended
  rw [(kept.dead t made).mp (Bool.not_eq_false _ ▸ ended)] at occupied
  cases occupied

theorem Kept.used (kept : Kept s) {call : TrackCall} (member : call ∈ s.calls) :
    (s.phase call.source).occupied = true := by
  rw [kept.calls call member]
  rfl

theorem Kept.apart (kept : Kept s) {source : Nat} (ended : s.phase source ≠ .living) :
    ∀ call ∈ s.calls, call.source ≠ source := by
  rintro call member rfl
  exact ended (kept.calls call member)

theorem Kept.track (kept : Kept s) {source : Nat} (living : s.phase source = .living)
    (running : s.shutdown = .running) : Kept { s with calls := s.calls ++ [.entered source] } := by
  have members (call : TrackCall) (member : call ∈ s.calls ++ [.entered source]) :
      call ∈ s.calls ∨ call = .entered source :=
    (List.mem_append.mp member).imp_right List.mem_singleton.mp
  refine { kept with calls := ?_, looked := ?_, inserting := ?_, quiet := ?_ }
  · intro call member
    rcases members call member with old | rfl
    · exact kept.calls call old
    · exact living
  · intro call member other
    rcases members call member with old | rfl
    · exact kept.looked call old other
    · exact absurd rfl other
  · intro n t member
    rcases members _ member with old | new
    · exact kept.inserting n t old
    · cases new
  · simp only [running]
    trivial

/-- A call goes on to build its tap, where no dead tap is in its way any more. -/
theorem Kept.pass (kept : Kept s) {source : Nat} (entered : .entered source ∈ s.calls)
    {registry : Nat → Option Nat}
    (fewer : ∀ a t, registry a = some t → s.registry a = some t)
    (kept' : ∀ t, s.registry (s.address (s.tap t).source) = some t → (s.tap t).dead = false →
      registry (s.address (s.tap t).source) = some t)
    (free : registry (s.address source) = none) :
    Kept { s with
      registry := registry
      calls := s.calls.erase (.entered source) ++ [.building source] } := by
  have members (call : TrackCall)
      (member : call ∈ s.calls.erase (.entered source) ++ [.building source]) :
      call ∈ s.calls ∨ call = .building source :=
    (List.mem_append.mp member).imp List.mem_of_mem_erase List.mem_singleton.mp
  refine { kept with
    keyed := ?_, owned := ?_, calls := ?_, looked := ?_, inserting := ?_, tracked := ?_,
    quiet := ?_ }
  · exact fun a t found => kept.keyed a t (fewer a t found)
  · intro t made held
    rcases kept.owned t made held with ended | found
    · exact .inl ended
    · cases flag : (s.tap t).dead with
      | true => exact .inl ((kept.dead t made).mp flag)
      | false => exact .inr (kept' t found flag)
  · intro call member
    rcases members call member with old | rfl
    · exact kept.calls call old
    · exact (kept.calls _ entered : s.phase source = .living)
  · intro call member other t found
    rcases members call member with old | rfl
    · exact kept.looked call old other t (fewer _ t found)
    · exact absurd (free.symm.trans found) nofun
  · intro n t member
    rcases members _ member with old | new
    · exact kept.inserting n t old
    · cases new
  · intro stage n member occupied
    obtain ⟨t, found, rfl⟩ := kept.tracked stage n member occupied
    exact ⟨t, kept' t found (kept.alive (kept.keyed _ t found).1 occupied), rfl⟩
  · simp only [kept.running (.inl (List.ne_nil_of_mem entered))]
    trivial

theorem Kept.returns (kept : Kept s) {call : TrackCall} (member : call ∈ s.calls) {t : Nat}
    (found : s.registry (s.address call.source) = some t) (mine : (s.tap t).source = call.source) :
    Kept (s.returns call) := by
  refine { kept with
    calls := fun other inside => kept.calls other (List.mem_of_mem_erase inside)
    looked := fun other inside => kept.looked other (List.mem_of_mem_erase inside)
    inserting := fun n t inside => kept.inserting n t (List.mem_of_mem_erase inside)
    tracked := ?_, known := ?_, quiet := ?_ }
  · intro stage n tracked occupied
    rcases List.mem_append.mp tracked with old | new
    · exact kept.tracked stage n old occupied
    · cases List.mem_singleton.mp new
      exact ⟨t, found, mine⟩
  · intro n tracked
    rcases List.mem_append.mp tracked with old | new
    · exact kept.known n old
    · cases List.mem_singleton.mp new
      simp only [TapRegistry.returns]
      rw [kept.calls call member]
      exact nofun
  · have running := kept.running (.inl (List.ne_nil_of_mem member))
    simp only [TapRegistry.returns, running]
    trivial

theorem Kept.look (kept : Kept s) {source : Nat}
    (taken : s.trackStep (.look source) = some next) : Kept next := by
  simp only [trackStep] at taken
  split at taken
  · rename_i entered
    split at taken
    · rename_i free
      cases taken
      exact kept.pass entered (fun _ _ => id) (fun _ found _ => found) free
    · rename_i t found
      obtain ⟨made, here⟩ := kept.keyed _ t found
      split at taken
      · rename_i ended
        cases taken
        refine kept.pass entered ?_ ?_ (Function.update_self _ _ _)
        · intro a other stays
          by_cases same : a = s.address source
          · subst same
            rw [Function.update_self] at stays
            cases stays
          · rwa [Function.update_of_ne same] at stays
        · intro other stays alive
          by_cases same : s.address (s.tap other).source = s.address source
          · rw [same, found] at stays
            cases stays
            exact absurd (alive.symm.trans ended) nofun
          · rwa [Function.update_of_ne same]
      · rename_i alive
        cases taken
        exact kept.returns entered found
          (kept.mine (kept.used entered) found (Bool.not_eq_true _ ▸ alive))
  · cases taken

theorem Kept.build (kept : Kept s) {source : Nat} (building : .building source ∈ s.calls) :
    Kept { s with
      calls := s.calls.erase (.building source) ++ [.inserting source s.made]
      made := s.made + 1
      tap := Function.update s.tap s.made { source } } := by
  have living := kept.calls _ building
  have older (t : Nat) (made : t < s.made) :
      Function.update s.tap s.made { source } t = s.tap t :=
    Function.update_of_ne (Nat.ne_of_lt made) _ _
  have either (t : Nat) (made : t < s.made + 1) : t < s.made ∨ t = s.made := by omega
  have members (call : TrackCall)
      (member : call ∈ s.calls.erase (.building source) ++ [.inserting source s.made]) :
      call ∈ s.calls ∨ call = .inserting source s.made :=
    (List.mem_append.mp member).imp List.mem_of_mem_erase List.mem_singleton.mp
  refine { kept with
    real := ?_, dead := ?_, keyed := ?_, owned := ?_, live := ?_, calls := ?_, looked := ?_,
    inserting := ?_, tracked := ?_, callbacks := ?_, attached := ?_, quiet := ?_ }
  · intro t made
    rcases either t made with old | rfl
    · simpa only [older t old] using kept.real t old
    · simp only [Function.update_self]
      rw [show s.phase source = .living from living]
      exact nofun
  · intro t made
    rcases either t made with old | rfl
    · simpa only [older t old] using kept.dead t old
    · simp only [Function.update_self]
      rw [show s.phase source = .living from living]
      simp
  · intro a t found
    obtain ⟨made, here⟩ := kept.keyed a t found
    exact ⟨Nat.lt_succ_of_lt made, by simpa only [older t made] using here⟩
  · intro t made
    rcases either t made with old | rfl
    · simpa only [older t old] using kept.owned t old
    · simp only [Function.update_self]
      rintro (served | ⟨⟨⟩⟩)
      exact absurd (kept.live _ served) (Nat.lt_irrefl _)
  · exact fun t served => Nat.lt_succ_of_lt (kept.live t served)
  · intro call member
    rcases members call member with old | rfl
    · exact kept.calls call old
    · exact living
  · intro call member other t found
    have made := (kept.keyed _ t found).1
    simp only [older t made]
    rcases members call member with old | rfl
    · exact kept.looked call old other t found
    · exact kept.looked _ building nofun t found
  · intro n t member
    rcases members _ member with old | new
    · obtain ⟨made, same⟩ := kept.inserting n t old
      exact ⟨Nat.lt_succ_of_lt made, by simpa only [older t made] using same⟩
    · cases new
      exact ⟨Nat.lt_succ_self _, by simp only [Function.update_self]⟩
  · intro stage n member occupied
    obtain ⟨t, found, same⟩ := kept.tracked stage n member occupied
    exact ⟨t, found, by simpa only [older t (kept.keyed _ t found).1] using same⟩
  · intro n t member
    obtain ⟨made, facts⟩ := kept.callbacks n t member
    exact ⟨Nat.lt_succ_of_lt made, by simpa only [older t made] using facts⟩
  · intro t made
    rcases either t made with old | rfl
    · simpa only [older t old] using kept.attached t old
    · simp only [Function.update_self]
      exact nofun
  · simp only [kept.running (.inl (List.ne_nil_of_mem building))]
    trivial

theorem Kept.insert (kept : Kept s) {source t : Nat}
    (taken : s.trackStep (.insert source t) = some next) : Kept next := by
  simp only [trackStep] at taken
  split at taken
  · rename_i inserting
    obtain ⟨made, mine⟩ := kept.inserting source t inserting
    split at taken
    · rename_i free
      cases taken
      have apart {a : Nat} {other : Nat} (found : s.registry a = some other) :
          a ≠ s.address source := by
        rintro rfl
        exact absurd (free.symm.trans found) nofun
      have placed : Kept { s with
          registry := Function.update s.registry (s.address source) (some t) } := by
        refine { kept with keyed := ?_, owned := ?_, looked := ?_, tracked := ?_ }
        · intro a other found
          by_cases same : a = s.address source
          · subst same
            simp only [Function.update_self, Option.some.injEq] at found
            subst found
            exact ⟨made, by rw [mine]⟩
          · simp only [Function.update_of_ne same] at found
            exact kept.keyed a other found
        · intro other below held
          refine (kept.owned other below held).imp_right fun found => ?_
          simp only [Function.update_of_ne (apart found)]
          exact found
        · intro call member other u found
          by_cases same : s.address call.source = s.address source
          · simp only [same, Function.update_self, Option.some.injEq] at found
            subst found
            exact kept.alive made (mine ▸ kept.used inserting)
          · simp only [Function.update_of_ne same] at found
            exact kept.looked call member other u found
        · intro stage n member occupied
          obtain ⟨u, found, same⟩ := kept.tracked stage n member occupied
          exact ⟨u, by simpa only [Function.update_of_ne (apart found)] using found, same⟩
      exact placed.returns inserting (Function.update_self _ _ _) mine
    · rename_i u found
      cases taken
      have alive := kept.looked _ inserting nofun u found
      exact kept.returns inserting found (kept.mine (kept.used inserting) found alive)
  · cases taken

theorem mem_registered (kept : Kept s) {t : Nat} :
    t ∈ s.registered ↔ s.registry (s.address (s.tap t).source) = some t := by
  rw [registered, List.mem_filter, List.mem_range, decide_eq_true_iff]
  exact ⟨And.right, fun found => ⟨(kept.keyed _ t found).1, found⟩⟩

theorem Kept.sweep (kept : Kept s) (running : s.shutdown = .running) :
    Kept { s with
      live := s.registered.filter fun t => !(s.tap t).dead
      registry := fun a => (s.registry a).filter fun t => !(s.tap t).dead } := by
  have stays {a t : Nat} (found : s.registry a = some t) (alive : (s.tap t).dead = false) :
      (s.registry a).filter (fun t => !(s.tap t).dead) = some t := by
    simp [found, alive]
  refine { kept with
    keyed := ?_, owned := ?_, live := ?_, looked := ?_, tracked := ?_, quiet := ?_ }
  · intro a t found
    exact kept.keyed a t (Option.filter_eq_some_iff.mp found).1
  · intro t made held
    have registered : s.phase (s.tap t).source = .gone ∨
        s.registry (s.address (s.tap t).source) = some t := by
      rcases held with served | attached
      · exact .inr ((mem_registered kept).mp (List.mem_filter.mp served).1)
      · exact kept.owned t made (.inr attached)
    rcases registered with ended | found
    · exact .inl ended
    · cases flag : (s.tap t).dead with
      | true => exact .inl ((kept.dead t made).mp flag)
      | false => exact .inr (stays found flag)
  · intro t served
    exact (kept.keyed _ t ((mem_registered kept).mp (List.mem_filter.mp served).1)).1
  · intro call member other t found
    exact kept.looked call member other t (Option.filter_eq_some_iff.mp found).1
  · intro stage n member occupied
    obtain ⟨t, found, rfl⟩ := kept.tracked stage n member occupied
    exact ⟨t, stays found (kept.alive (kept.keyed _ t found).1 occupied), rfl⟩
  · simp only [running]
    trivial

/-- A tap whose flag `attached` changes, with the callback. -/
theorem Kept.hook (kept : Kept s) {t : Nat} {attached : Bool} {callbacks : List (Nat × Nat)}
    (owned : attached = true → s.phase (s.tap t).source = .gone ∨
      s.registry (s.address (s.tap t).source) = some t)
    (once : callbacks.Nodup)
    (others : ∀ n u, u ≠ t → ((n, u) ∈ callbacks ↔ (n, u) ∈ s.callbacks))
    (own : ∀ n, (n, t) ∈ callbacks → t < s.made ∧ (s.tap t).source = n ∧ attached = true ∧
      (s.phase n).captures = true)
    (hooked : t < s.made → attached = true → (s.phase (s.tap t).source).captures = true →
      ((s.tap t).source, t) ∈ callbacks)
    (quiet : attached = true → s.shutdown = .running) :
    Kept { s with
      tap := Function.update s.tap t { s.tap t with attached }
      callbacks := callbacks } := by
  have same (u : Nat) :
      (Function.update s.tap t { s.tap t with attached } u).source = (s.tap u).source ∧
        (Function.update s.tap t { s.tap t with attached } u).dead = (s.tap u).dead ∧
        (Function.update s.tap t { s.tap t with attached } u).attached =
          if u = t then attached else (s.tap u).attached := by
    by_cases here : u = t
    · subst here
      simp
    · simp [here]
  have source (u : Nat) := (same u).1
  have dead (u : Nat) := (same u).2.1
  have flag (u : Nat) := (same u).2.2
  refine { kept with
    real := ?_, dead := ?_, keyed := ?_, owned := ?_, looked := ?_, inserting := ?_,
    tracked := ?_, callbacks := ?_, once := once, attached := ?_, quiet := ?_ }
  · simpa only [source] using kept.real
  · simpa only [source, dead] using kept.dead
  · simpa only [source] using kept.keyed
  · intro u made held
    simp only [source, flag] at held ⊢
    by_cases here : u = t
    · subst here
      rw [if_pos rfl] at held
      exact held.elim (fun served => kept.owned u made (.inl served)) owned
    · rw [if_neg here] at held
      exact kept.owned u made held
  · simpa only [dead] using kept.looked
  · simpa only [source] using kept.inserting
  · simpa only [source] using kept.tracked
  · intro n u member
    simp only [source, flag]
    by_cases here : u = t
    · subst here
      rw [if_pos rfl]
      exact own n member
    · rw [if_neg here]
      exact kept.callbacks n u ((others n u here).mp member)
  · intro u made
    simp only [source, flag]
    by_cases here : u = t
    · subst here
      rw [if_pos rfl]
      exact hooked made
    · rw [if_neg here]
      exact fun attached captured =>
        (others _ u here).mpr (kept.attached u made attached captured)
  · cases on : attached with
    | true =>
      rw [quiet on]
      trivial
    | false =>
      refine kept.quiet.mono id id fun u made attached' => ?_
      by_cases here : u = t
      · subst here
        simp at attached'
      · simp only [Function.update_of_ne here] at attached' ⊢
        exact ⟨made, attached', id, id⟩

theorem Kept.attach (kept : Kept s) {t : Nat} (served : t ∈ s.live)
    (living : s.phase (s.tap t).source = .living) (free : (s.tap t).attached = false) :
    Kept (s.attach t) := by
  have absent (n : Nat) (member : (n, t) ∈ s.callbacks) : False := by
    have on := (kept.callbacks n t member).2.2.1
    exact absurd (free.symm.trans on) nofun
  refine kept.hook (fun _ => kept.owned t (kept.live t served) (.inl served)) ?_ ?_ ?_ ?_ ?_
  · refine kept.once.append (List.nodup_singleton _) ?_
    rw [List.disjoint_singleton]
    exact absent _
  · intro n u other
    simp [other]
  · intro n member
    rcases List.mem_append.mp member with old | new
    · exact (absent n old).elim
    · cases List.mem_singleton.mp new
      exact ⟨kept.live t served, rfl, rfl, by rw [living]; rfl⟩
  · exact fun _ _ _ => List.mem_append_right _ List.mem_cons_self
  · exact fun _ => kept.running (.inr (List.ne_nil_of_mem served))

/-- `detach` takes the callback away, if it is there and the source can still be reached. -/
theorem Kept.detachTap (kept : Kept s) (t : Nat) :
    Kept (s.detachTap t) ∧ (s.detachTap t).shutdown = s.shutdown ∧
      (s.detachTap t).registry = s.registry ∧ (s.detachTap t).made = s.made ∧
      (s.detachTap t).phase = s.phase ∧ (s.detachTap t).live = s.live ∧
      (s.detachTap t).calls = s.calls ∧
      ∀ u < s.made, ((s.detachTap t).tap u).source = (s.tap u).source ∧
        (((s.detachTap t).tap u).attached = true → (s.tap u).attached = true ∧
          (u = t → s.phase (s.tap u).source ≠ .living)) := by
  have unhooked {callbacks : List (Nat × Nat)} (once : callbacks.Nodup)
      (others : ∀ n u, u ≠ t → ((n, u) ∈ callbacks ↔ (n, u) ∈ s.callbacks))
      (own : ∀ n, (n, t) ∉ callbacks) :
      Kept { s with
        tap := Function.update s.tap t { s.tap t with attached := false }
        callbacks := callbacks } :=
    kept.hook nofun once others (fun n member => absurd member (own n)) nofun nofun
  have taps (u : Nat) :
      (Function.update s.tap t { s.tap t with attached := false } u).source = (s.tap u).source ∧
        ((Function.update s.tap t { s.tap t with attached := false } u).attached = true →
          (s.tap u).attached = true ∧ (u = t → s.phase (s.tap u).source ≠ .living)) := by
    by_cases here : u = t
    · subst here
      simp
    · simp [here]
  rw [TapRegistry.detachTap]
  split
  · rename_i free
    refine ⟨kept, rfl, rfl, rfl, rfl, rfl, rfl, fun u _ => ⟨rfl, fun on => ⟨on, ?_⟩⟩⟩
    rintro rfl
    exact absurd (free.symm.trans on) nofun
  · split
    · refine ⟨unhooked (kept.once.erase _) ?_ ?_, rfl, rfl, rfl, rfl, rfl, rfl, fun u _ => taps u⟩
      · intro n u other
        exact List.mem_erase_of_ne fun same => other (congrArg Prod.snd same)
      · intro n member
        have here := (kept.callbacks n t (List.mem_of_mem_erase member)).2.1
        rw [here] at member
        exact absurd rfl (kept.once.mem_erase_iff.mp member).1
    · rename_i unreachable
      split
      · rename_i ended
        refine ⟨unhooked kept.once (fun _ _ _ => .rfl) ?_, rfl, rfl, rfl, rfl, rfl, rfl,
          fun u _ => taps u⟩
        intro n member
        obtain ⟨made, rfl, _, captured⟩ := kept.callbacks n t member
        rw [(kept.dead t made).mp ended] at captured
        cases captured
      · refine ⟨kept, rfl, rfl, rfl, rfl, rfl, rfl, fun u _ => ⟨rfl, fun on => ⟨on, ?_⟩⟩⟩
        rintro rfl
        exact unreachable

theorem Kept.move (kept : Kept s) {stage : Shutdown} (quiet : s.Quiet stage)
    (later : s.shutdown ≠ .cleared) : Kept { s with shutdown := stage } := by
  refine { kept with tracked := fun _ => kept.tracked later, quiet := ?_ }
  cases stage <;> exact quiet

theorem Kept.shutdownStep (kept : Kept s) {label : Label}
    (taken : s.shutdownStep label s.shutdown = some next) : Kept next := by
  have quiet := kept.quiet
  generalize stage : s.shutdown = place at taken quiet
  rw [TapRegistry.shutdownStep.eq_def] at taken
  split at taken
  · split at taken
    · rename_i idle
      cases taken
      have stopped : Kept { s with live := [] } := { kept with
        owned := fun t made held => kept.owned t made (held.imp_left nofun)
        live := nofun
        quiet := by simp only [stage]; trivial }
      refine stopped.move ⟨rfl, idle, fun t made on => ?_⟩ (by simp only [stage]; exact nofun)
      rcases kept.owned t made (.inr on) with ended | found
      · exact .inr (by simp only [ended]; exact nofun)
      · exact .inl ((mem_registered kept).mpr found)
    · cases taken
  · rename_i t remaining
    cases taken
    obtain ⟨detached, same, _, made', phase, live, calls, taps⟩ := kept.detachTap t
    refine detached.move ⟨live.trans quiet.1, calls.trans quiet.2.1, fun u made on => ?_⟩
      (by rw [same, stage]; exact nofun)
    rw [made'] at made
    obtain ⟨source, held⟩ := taps u made
    rw [phase, source]
    rcases quiet.2.2 u made (held on).1 with visited | passed
    · rcases List.mem_cons.mp visited with here | later
      · exact .inr ((held on).2 here)
      · exact .inl later
    · exact .inr passed
  · cases taken
    refine kept.move ⟨quiet.1, quiet.2.1, fun t made on => ?_⟩ (by rw [stage]; exact nofun)
    exact (quiet.2.2 t made on).resolve_left List.not_mem_nil
  · split at taken
    · rename_i settled
      cases taken
      refine kept.move ⟨quiet.1, quiet.2.1, fun t made on => ?_⟩ (by rw [stage]; exact nofun)
      have born := kept.real t made
      have unreachable := quiet.2.2 t made on
      have ended := List.all_eq_true.mp settled _ (List.mem_range.mpr (kept.below _ born))
      cases phase : s.phase (s.tap t).source with
      | gone => rfl
      | unborn => exact absurd phase born
      | living => exact absurd phase unreachable
      | dying | cleared => simp [phase] at ended
    · cases taken
  · rename_i t remaining
    cases taken
    obtain ⟨detached, same, _, made', phase, live, calls, taps⟩ := kept.detachTap t
    refine detached.move ⟨live.trans quiet.1, calls.trans quiet.2.1, fun u made on => ?_⟩
      (by rw [same, stage]; exact nofun)
    rw [made'] at made
    obtain ⟨source, held⟩ := taps u made
    rw [phase, source]
    exact quiet.2.2 u made (held on).1
  · cases taken
    refine { kept with
      keyed := nofun
      owned := fun t made held => .inl ?_
      looked := fun _ _ _ _ found => absurd found nofun
      tracked := fun later => absurd rfl later
      quiet := quiet }
    rcases held with served | on
    · rw [quiet.1] at served
      cases served
    · exact quiet.2.2 t made on
  · cases taken

theorem Kept.step (kept : Kept s) {label : Label} (taken : s.step label = some next) :
    Kept next := by
  cases label with
  | create address =>
    simp only [TapRegistry.step, sourceStep] at taken
    split at taken
    · rename_i free
      cases taken
      refine kept.create fun n used same => ?_
      have below : n < s.born := kept.below n fun unborn => by rw [unborn] at used; cases used
      have other := List.all_eq_true.mp free n (List.mem_range.mpr below)
      simp [used, same] at other
    · cases taken
  | release source =>
    simp only [TapRegistry.step, sourceStep] at taken
    split at taken
    · rename_i allowed
      cases taken
      have free : ∀ call ∈ s.calls, call.source ≠ source := by
        intro call member
        have other := List.all_eq_true.mp allowed.2 call member
        simpa using other
      have aged := kept.age source .dying s.tap (by rw [allowed.1]; rfl) nofun nofun free
        (fun _ => by rw [allowed.1]; rfl) (fun _ => ⟨rfl, rfl⟩) (fun t _ => by simp)
      simpa [SourcePhase.captures] using aged
    · cases taken
  | clear source =>
    simp only [TapRegistry.step, sourceStep] at taken
    split at taken
    · rename_i dying
      cases taken
      have aged := kept.age source .cleared s.tap (by rw [dying]; rfl) nofun nofun
        (kept.apart (by rw [dying]; exact nofun)) nofun (fun _ => ⟨rfl, rfl⟩) (fun t _ => by simp)
      simpa [SourcePhase.captures] using aged
    · cases taken
  | destroy source =>
    simp only [TapRegistry.step, sourceStep] at taken
    split at taken
    · rename_i cleared
      cases taken
      have aged := kept.age source .gone
        (fun t => if t < s.made ∧ (s.tap t).source = source then { s.tap t with dead := true }
          else s.tap t)
        (by rw [cleared]; rfl) nofun nofun (kept.apart (by rw [cleared]; exact nofun)) nofun
        (fun t => by dsimp only; split <;> exact ⟨rfl, rfl⟩)
        (fun t made => by dsimp only; split <;> simp_all)
      have silent : s.callbacks.filter (fun entry =>
          SourcePhase.gone.captures || entry.1 != source) = s.callbacks := by
        refine List.filter_eq_self.mpr fun entry member => ?_
        have captured := (kept.callbacks entry.1 entry.2 member).2.2.2
        rw [SourcePhase.captures, Bool.false_or, bne_iff_ne]
        rintro rfl
        rw [cleared] at captured
        cases captured
      rw [silent] at aged
      exact aged
    · cases taken
  | track source =>
    simp only [TapRegistry.step, trackStep] at taken
    split at taken
    · rename_i allowed
      cases taken
      exact kept.track allowed.1 allowed.2
    · cases taken
  | look source => exact kept.look taken
  | build source =>
    simp only [TapRegistry.step, trackStep] at taken
    split at taken
    · rename_i building
      cases taken
      exact kept.build building
    · cases taken
  | insert source t => exact kept.insert taken
  | sweep =>
    simp only [TapRegistry.step, workerStep] at taken
    split at taken
    · rename_i running
      cases taken
      exact kept.sweep running
    · cases taken
  | service t wanted =>
    simp only [TapRegistry.step, workerStep] at taken
    split at taken
    · rename_i served
      split at taken
      · split at taken
        · rename_i free
          cases taken
          exact kept.attach served free.1 free.2
        · cases taken
          exact kept
      · cases taken
        exact (kept.detachTap t).1
    · cases taken
  | stop | detach | wait => exact kept.shutdownStep taken

/-- In every state that sources, `track`, the worker and `shutdown` can reach, however they
interleave and whatever addresses OBS uses again: a tap that OBS may call is in the registry under
its source, so it has not been freed, and no source calls two; until the registry is cleared, each
living source that has been tracked has a tap of its own that is not dead; a tap that is not dead
belongs to a source in use at its address; and after `shutdown` OBS calls no tap. -/
theorem registry_owns_callbacks {labels : List Label} {s : TapRegistry}
    (success : run step {} labels = some s) :
    (∀ n t, (n, t) ∈ s.callbacks → s.registry (s.address n) = some t ∧ (s.tap t).source = n) ∧
    (s.callbacks.map Prod.fst).Nodup ∧
    (s.shutdown ≠ .cleared → ∀ n ∈ s.tracked, s.phase n = .living →
      ∃ t, s.registry (s.address n) = some t ∧ (s.tap t).source = n ∧ (s.tap t).dead = false) ∧
    (∀ a t, s.registry a = some t → (s.tap t).dead = false →
      s.address (s.tap t).source = a ∧ (s.phase (s.tap t).source).occupied = true) ∧
    (s.shutdown = .cleared → s.callbacks = []) := by
  have kept : Kept s :=
    run_invariant (fun _ _ _ kept taken => Kept.step kept taken) .initial success
  have registered (n t : Nat) (member : (n, t) ∈ s.callbacks) :
      s.registry (s.address n) = some t := by
    obtain ⟨made, rfl, on, captured⟩ := kept.callbacks n t member
    refine (kept.owned t made (.inr on)).resolve_left fun ended => ?_
    rw [ended] at captured
    cases captured
  refine ⟨fun n t member => ⟨registered n t member, (kept.callbacks n t member).2.1⟩,
    ?_, ?_, ?_, ?_⟩
  · refine (List.nodup_map_iff_inj_on kept.once).mpr ?_
    rintro ⟨n, t⟩ first ⟨m, u⟩ second same
    obtain rfl : n = m := same
    have one := (registered n t first).symm.trans (registered n u second)
    rw [Option.some.inj one]
  · intro stage n member living
    have occupied : (s.phase n).occupied = true := by rw [living]; rfl
    obtain ⟨t, found, rfl⟩ := kept.tracked stage n member occupied
    exact ⟨t, found, rfl, kept.alive (kept.keyed _ t found).1 occupied⟩
  · intro a t found alive
    obtain ⟨made, here⟩ := kept.keyed a t found
    refine ⟨here, ?_⟩
    cases phase : s.phase (s.tap t).source with
    | living | dying | cleared => rfl
    | unborn => exact absurd phase (kept.real t made)
    | gone =>
      rw [(kept.dead t made).mpr phase] at alive
      cases alive
  · intro cleared
    have quiet := kept.quiet
    rw [cleared] at quiet
    refine List.eq_nil_iff_forall_not_mem.mpr fun entry member => ?_
    obtain ⟨made, here, on, captured⟩ := kept.callbacks entry.1 entry.2 member
    rw [← here, quiet.2.2 _ made on] at captured
    cases captured

/-- A second source takes the address of the first before the worker has swept its tap away. -/
def reusedRun : List Label :=
  [.create 7, .track 0, .look 0, .build 0, .insert 0 0, .sweep, .service 0 true,
    .release 0, .clear 0, .destroy 0, .create 7, .track 1, .look 1, .build 1, .insert 1 1,
    .service 0 true, .sweep, .service 1 true]

theorem registry_owns_callbacks_reusedRun :
    ∃ s, run step {} reusedRun = some s ∧ s.callbacks = [(1, 1)] ∧
      s.registry (s.address 1) = some 1 := by
  obtain ⟨s, success, seen⟩ : ∃ s, run step {} reusedRun = some s ∧
      (s.callbacks == [(1, 1)]) = true := by
    refine (Option.any_eq_true _ _).mp
      (?_ : (run step {} reusedRun).any (fun s => s.callbacks == [(1, 1)]) = true)
    decide +kernel
  have one : s.callbacks = [(1, 1)] := beq_iff_eq.mp seen
  refine ⟨s, success, one, ((registry_owns_callbacks success).1 1 1 ?_).1⟩
  rw [one]
  exact List.mem_cons_self

end TapRegistry

end VbanStream
