import VbanStream.Return.Fencing

/-! Neither thread waits for the other: the callback and the worker can always take their next
step, and each is done after a bounded number of its own steps. Only to detach its callback the
worker waits, until the callback has returned. -/

namespace VbanStream

open Library

/-- The worker has made a ring and is about to attach the callback. -/
def Service.Prepares : Service → Prop
  | .counting _ | .renewing _ | .attaching _ => True
  | _ => False

/-- The worker takes what the callback has captured. -/
def Service.Serves : Service → Prop
  | .activity _ | .comparing _ _ | .stale _ _ | .rating _ _ | .next _ _ _ | .fronting _ _ _
  | .judging _ _ _ _ | .placing _ _ _ _ | .popping _ _ _ _ | .checkingMonitored _ _
  | .checkingRemoved _ _ _ | .checkingEpoch _ _ _ _ => True
  | _ => False

/-- How many steps of its own the worker has at most until it is done. -/
def Service.rank : Service → Nat
  | .idle => 0
  | .restarting | .unwanted => 1
  | .detachingDead => 2
  | .detaching => 3
  | .checkingEpoch .. => 1
  | .checkingRemoved .. => 2
  | .checkingMonitored .. => 3
  | .next _ _ processed => 5 * (129 - processed) + 5
  | .fronting _ _ processed => 5 * (129 - processed) + 4
  | .judging _ _ processed _ => 5 * (129 - processed) + 8
  | .placing _ _ processed _ => 5 * (129 - processed) + 7
  | .popping _ _ processed _ => 5 * (129 - processed) + 6
  | .rating .. => 651
  | .stale .. => 652
  | .comparing .. => 653
  | .activity _ => 654
  | .attaching _ => 655
  | .renewing _ => 656
  | .counting _ => 657
  | .upgrading _ => 658
  | .wantsDead _ => 659
  | .wantsRemoved _ => 660
  | .wantsMonitored _ => 661
  | .entering _ => 662

/-- The blocks of a callback from `start` on. -/
def CaptureCall.left {V : Type*} (call : CaptureCall V) (start : UInt32) : Nat :=
  (call.callback.frames.toNat - start.toNat + 255) / 256

/-- How many steps of its own the callback has at most until it returns. -/
def Capture.rank {V : Type*} : Capture V → Nat
  | .idle => 0
  | .next call _ start => 6 * call.left start + 1
  | .sizing call _ start => 6 * call.left (start + 256) + 2
  | .published call _ start => 6 * call.left (start + 256) + 3
  | .filled call _ start => 6 * call.left (start + 256) + 4
  | .filling call _ start => 6 * call.left (start + 256) + 5
  | .claiming call _ start => 6 * call.left (start + 256) + 6
  | .generation call => 6 * call.left 0 + 2
  | .removed call => 6 * call.left 0 + 3
  | .monitored call => 6 * call.left 0 + 4

def Capture.call {V : Type*} : Capture V → Option (CaptureCall V)
  | .idle => none
  | .next call _ _ | .sizing call _ _ | .published call _ _ | .filled call _ _ | .filling call _ _
  | .claiming call _ _ | .generation call | .removed call | .monitored call => some call

/-- A callback whose counter does not wrap. -/
def Capture.Short {V : Type*} (capture : Capture V) : Prop :=
  ∀ call, capture.call = some call → call.callback.frames.toNat + 256 ≤ 2 ^ 32

namespace FencedTap

variable {V : Type*}

/-- There is a ring whenever one is used. -/
structure Backed (s : FencedTap V) : Prop where
  ring : s.attached = true ∨ s.service.Prepares → s.ring.isSome = true
  serves : s.service.Serves → s.attached = true

variable {around : Surroundings V} {s next : FencedTap V}

theorem onRing_isSome {action : AudioRing.Action (StampedBlock V)} {ring : CaptureRing V}
    (present : s.ring = some ring)
    (works : (AudioRing.step captureBlocks ring action).isSome = true) :
    (s.onRing action).isSome = true := by
  rw [onRing, present, Option.bind_some, Option.isSome_map, works]

section Callback

theorem Backed.work (backed : s.Backed) (ring : CaptureRing V) (capture : Capture V) :
    ({ s with ring := some ring, capture } : FencedTap V).Backed :=
  ⟨fun _ => rfl, backed.serves⟩

theorem Backed.captureStep (backed : s.Backed) (taken : s.captureStep s.capture = some next) :
    next.Backed := by
  generalize s.capture = place at taken
  cases place with
  | idle => cases taken
  | monitored | removed | generation =>
    cases taken
    exact ⟨backed.ring, backed.serves⟩
  | next call stamp start =>
    simp only [FencedTap.captureStep] at taken
    split at taken
    · obtain ⟨ring, ring', present, worked, rfl⟩ := onRing_map taken
      exact backed.work ring' _
    · cases taken
      exact ⟨backed.ring, backed.serves⟩
  | claiming | filling | filled | published | sizing =>
    obtain ⟨ring, ring', present, worked, rfl⟩ := onRing_map taken
    exact backed.work ring' _

/-- The callback never waits, and finds its ring. -/
theorem captureStep_enabled (sound : Sound around s) (backed : s.Backed)
    (calling : s.capture ≠ .idle) : (s.captureStep s.capture).isSome = true := by
  have attached : s.attached = true := by
    by_contra detached
    exact calling (sound.quiet (.inl (Bool.not_eq_true _ ▸ detached)))
  obtain ⟨ring, present⟩ := Option.isSome_iff_exists.mp (backed.ring (.inl attached))
  have produced := (sound.ring ring present).produces
  generalize s.capture = place at calling produced ⊢
  cases place with
  | idle => exact absurd rfl calling
  | monitored | removed | generation => rfl
  | next call stamp start =>
    have idle : ring.producer = .idle := produced
    simp only [FencedTap.captureStep]
    split
    · rw [Option.isSome_map]
      exact onRing_isSome present (by simp [AudioRing.step, idle])
    · rfl
  | claiming call stamp start =>
    obtain ⟨w, loaded⟩ := produced
    rw [FencedTap.captureStep, Option.isSome_map]
    refine onRing_isSome present ?_
    simp only [AudioRing.step, loaded]
    split <;> rfl
  | filling call stamp start =>
    obtain ⟨cell, filling⟩ := produced
    rw [FencedTap.captureStep, Option.isSome_map]
    exact onRing_isSome present (by simp [AudioRing.step, filling])
  | filled call stamp start =>
    obtain ⟨cell, filling, -⟩ := produced
    rw [FencedTap.captureStep, Option.isSome_map]
    exact onRing_isSome present (by simp [AudioRing.step, filling])
  | published call stamp start =>
    have idle : ring.producer = .idle := produced
    rw [FencedTap.captureStep, Option.isSome_map]
    exact onRing_isSome present (by simp [AudioRing.step, idle])
  | sizing call stamp start =>
    obtain ⟨w, sizing⟩ := produced
    rw [FencedTap.captureStep, Option.isSome_map]
    exact onRing_isSome present (by simp [AudioRing.step, sizing])

theorem left_next (call : CaptureCall V) {start : UInt32} (inside : start < call.callback.frames)
    (short : call.callback.frames.toNat + 256 ≤ 2 ^ 32) :
    call.left (start + 256) + 1 ≤ call.left start := by
  have order := UInt32.lt_iff_toNat_lt.mp inside
  have added : (start + 256).toNat = start.toNat + 256 := by
    rw [UInt32.toNat_add, show (256 : UInt32).toNat = 256 from rfl]
    exact Nat.mod_eq_of_lt (by omega)
  rw [CaptureCall.left, CaptureCall.left, added]
  omega

/-- Every step of the callback brings it nearer to its end. -/
theorem captureStep_rank
    (short : ∀ call, s.capture.call = some call → call.callback.frames.toNat + 256 ≤ 2 ^ 32)
    (taken : s.captureStep s.capture = some next) :
    next.capture.rank < s.capture.rank ∧
      ∀ call, next.capture.call = some call → s.capture.call = some call := by
  generalize s.capture = place at short taken
  cases place with
  | idle => cases taken
  | monitored call | removed call =>
    cases taken
    dsimp only
    split
    · exact ⟨Nat.lt_succ_self _, fun _ same => same⟩
    · exact ⟨Nat.succ_pos _, (by rintro _ ⟨⟩)⟩
  | generation call =>
    cases taken
    exact ⟨Nat.lt_succ_self _, fun _ same => same⟩
  | next call stamp start =>
    simp only [FencedTap.captureStep] at taken
    split at taken
    · rename_i inside
      obtain ⟨ring, ring', present, worked, rfl⟩ := onRing_map taken
      have fewer := left_next call inside (short call rfl)
      refine ⟨?_, fun _ same => same⟩
      simp only [Capture.rank]
      omega
    · cases taken
      exact ⟨Nat.succ_pos _, (by rintro _ ⟨⟩)⟩
  | claiming call stamp start =>
    obtain ⟨ring, ring', present, worked, rfl⟩ := onRing_map taken
    dsimp only
    split
    · exact ⟨Nat.succ_pos _, (by rintro _ ⟨⟩)⟩
    · exact ⟨Nat.lt_succ_self _, fun _ same => same⟩
  | filling | filled | published | sizing =>
    obtain ⟨ring, ring', present, worked, rfl⟩ := onRing_map taken
    exact ⟨Nat.lt_succ_self _, fun _ same => same⟩

end Callback

section Worker

theorem unwant_facts (s : FencedTap V) :
    ¬s.unwant.Prepares ∧ ¬s.unwant.Serves ∧ s.unwant.rank ≤ 3 := by
  rw [unwant]
  split <;> simp [Service.Prepares, Service.Serves, Service.rank]

theorem finish_facts (call : ServiceCall) (active : Bool) :
    ¬(finish call active).Prepares ∧ (finish call active).rank ≤ 3 := by
  rw [finish]
  split <;> simp [Service.Prepares, Service.rank]

theorem Backed.move (backed : s.Backed) {after : Service} (prepares : ¬after.Prepares)
    (serves : after.Serves → s.attached = true) :
    ({ s with service := after } : FencedTap V).Backed :=
  ⟨fun uses => backed.ring (.inl (uses.resolve_right prepares)), serves⟩

theorem backed_consume (s : FencedTap V) (ring : CaptureRing V) {after : Service}
    (serves : after.Serves → s.attached = true) :
    ({ s with ring := some ring, service := after } : FencedTap V).Backed :=
  ⟨fun _ => rfl, serves⟩

theorem captureStep_service (taken : s.captureStep s.capture = some next) :
    next.service = s.service := by
  generalize s.capture = place at taken
  cases place with
  | idle => cases taken
  | monitored | removed | generation =>
    cases taken
    rfl
  | next call stamp start =>
    simp only [FencedTap.captureStep] at taken
    split at taken
    · obtain ⟨ring, ring', present, worked, rfl⟩ := onRing_map taken
      rfl
    · cases taken
      rfl
  | claiming | filling | filled | published | sizing =>
    obtain ⟨ring, ring', present, worked, rfl⟩ := onRing_map taken
    rfl

variable [Zero V] [Add V] [Mul V] {answers : SourceAnswers}

theorem Backed.serviceStep (backed : s.Backed)
    (taken : s.serviceStep around answers s.service = some next) : next.Backed := by
  obtain ⟨calm, quiet, -⟩ := s.unwant_facts
  have served := backed.serves
  have ringed := backed.ring
  generalize s.service = place at taken served ringed
  have unwanted : ({ s with service := s.unwant } : FencedTap V).Backed :=
    backed.move calm fun serves => absurd serves quiet
  cases place with
  | idle => cases taken
  | entering call =>
    cases taken
    split
    · split
      · exact backed.move id (by rintro ⟨⟩)
      · exact unwanted
    · exact backed.move id (by rintro ⟨⟩)
  | wantsMonitored call =>
    cases taken
    split
    · exact backed.move id (by rintro ⟨⟩)
    · exact unwanted
  | wantsRemoved call | wantsDead call =>
    cases taken
    split
    · exact unwanted
    · exact backed.move id (by rintro ⟨⟩)
  | detaching =>
    simp only [FencedTap.serviceStep] at taken
    split at taken
    · split at taken
      · cases taken
        exact ⟨by rintro (⟨⟨⟩⟩ | ⟨⟨⟩⟩), (by rintro ⟨⟩)⟩
      · cases taken
    · cases taken
      exact backed.move id (by rintro ⟨⟩)
  | detachingDead =>
    cases taken
    refine ⟨?_, (by rintro ⟨⟩)⟩
    rintro (attached | ⟨⟨⟩⟩)
    exact backed.ring (.inl (Bool.and_eq_true_iff.mp attached).1)
  | unwanted =>
    cases taken
    refine ⟨?_, (by rintro ⟨⟩)⟩
    rintro (attached | ⟨⟨⟩⟩)
    have kept : s.attached = true := attached
    simp only [kept, if_true]
    exact backed.ring (.inl kept)
  | upgrading call =>
    simp only [FencedTap.serviceStep] at taken
    split at taken
    · cases taken
      exact backed.move id (by rintro ⟨⟩)
    · split at taken
      · rename_i attached
        cases taken
        exact backed.move id fun _ => attached
      · cases taken
        exact backed_consume s _ (by rintro ⟨⟩)
  | counting call | renewing call =>
    cases taken
    exact ⟨fun _ => ringed (.inr trivial), (by rintro ⟨⟩)⟩
  | attaching call =>
    cases taken
    exact ⟨fun _ => ringed (.inr trivial), fun _ => rfl⟩
  | activity call =>
    cases taken
    exact backed.move id fun _ => served trivial
  | comparing call active =>
    cases taken
    split
    · exact backed.move id fun _ => served trivial
    · exact backed.move id fun _ => served trivial
  | stale call active =>
    cases taken
    exact ⟨fun _ => ringed (.inl (served trivial)), fun _ => served trivial⟩
  | rating call active =>
    simp only [FencedTap.serviceStep] at taken
    cases taken
    split
    · exact ⟨fun _ => ringed (.inl (served trivial)), fun _ => served trivial⟩
    · exact backed.move id fun _ => served trivial
  | next call active processed =>
    obtain ⟨ring, ring', present, worked, rfl⟩ := onRing_map taken
    exact backed_consume s ring' fun _ => served trivial
  | fronting call active processed =>
    obtain ⟨_, read, rest⟩ := Option.bind_eq_some_iff.mp taken
    obtain ⟨ring, present, moved⟩ := Option.bind_eq_some_iff.mp read
    obtain ⟨ring', worked, rfl⟩ := Option.map_eq_some_iff.mp moved
    split at rest
    · split at rest
      · obtain ⟨ring, ring'', same, left, rfl⟩ := onRing_map rest
        exact backed_consume s ring'' fun _ => served trivial
      · cases rest
        exact backed_consume s ring' fun _ => served trivial
    · cases rest
      exact backed_consume s ring' fun _ => served trivial
  | judging call active processed cell =>
    obtain ⟨ring, present, rfl⟩ := Option.map_eq_some_iff.mp taken
    dsimp only
    split
    · exact backed.move id fun _ => served trivial
    · exact backed.move id fun _ => served trivial
  | placing call active processed cell =>
    obtain ⟨ring, present, rfl⟩ := Option.map_eq_some_iff.mp taken
    exact ⟨fun _ => ringed (.inl (served trivial)), fun _ => served trivial⟩
  | popping call active processed cell =>
    obtain ⟨ring, ring', present, worked, rfl⟩ := onRing_map taken
    exact backed_consume s ring' fun _ => served trivial
  | checkingMonitored call active =>
    cases taken
    split
    · exact backed.move id fun _ => served trivial
    · exact backed.move id (by rintro ⟨⟩)
  | checkingRemoved call active monitored =>
    cases taken
    split
    · exact backed.move id (by rintro ⟨⟩)
    · exact backed.move id fun _ => served trivial
  | checkingEpoch call active monitored removed =>
    simp only [FencedTap.serviceStep] at taken
    split at taken
    · cases taken
      exact ⟨fun _ => ringed (.inl (served trivial)), (by rintro ⟨⟩)⟩
    · cases taken
      exact backed.move id (by rintro ⟨⟩)
  | restarting =>
    cases taken
    exact ⟨fun uses => ringed (uses.imp_right (by rintro ⟨⟩)), (by rintro ⟨⟩)⟩

/-- The worker never waits but for a callback that it detaches, and finds its ring. -/
theorem serviceStep_enabled (sound : Sound around s) (backed : s.Backed)
    (serving : s.service ≠ .idle) (free : s.service = .detaching → s.capture = .idle)
    (answers : SourceAnswers) : (s.serviceStep around answers s.service).isSome = true := by
  have served := backed.serves
  have consumed := sound.ring
  generalize s.service = place at serving free served consumed ⊢
  have ringed (serves : place.Serves) : ∃ ring, s.ring = some ring ∧
      place.Consumes s.workerEpoch ring := by
    obtain ⟨ring, present⟩ := Option.isSome_iff_exists.mp (backed.ring (.inl (served serves)))
    exact ⟨ring, present, (consumed ring present).consumes⟩
  cases place with
  | idle => exact absurd rfl serving
  | detaching =>
    simp only [FencedTap.serviceStep, free rfl]
    split <;> rfl
  | upgrading call =>
    simp only [FencedTap.serviceStep]
    split
    · rfl
    · split <;> rfl
  | next call active processed =>
    obtain ⟨ring, present, idle⟩ := ringed trivial
    have idle : ring.consumer = .idle := idle
    rw [FencedTap.serviceStep, Option.isSome_map]
    exact onRing_isSome present (by simp [AudioRing.step, idle])
  | fronting call active processed =>
    obtain ⟨ring, present, r, loaded⟩ := ringed trivial
    simp only [FencedTap.serviceStep, onRing, present, Option.bind_some, AudioRing.step, loaded]
    split
    · rfl
    · simp only [Option.map_some, Option.bind_some]
      split <;> rfl
  | judging call active processed cell | placing call active processed cell =>
    obtain ⟨ring, present, -⟩ := ringed trivial
    rw [FencedTap.serviceStep, Option.isSome_map, present]
    rfl
  | popping call active processed cell =>
    obtain ⟨ring, present, holding⟩ := ringed trivial
    have holding : ring.consumer = .holding cell := holding
    rw [FencedTap.serviceStep, Option.isSome_map]
    exact onRing_isSome present (by simp [AudioRing.step, holding])
  | checkingEpoch call active monitored removed =>
    simp only [FencedTap.serviceStep]
    split <;> rfl
  | _ => rfl

theorem serviceStep_rank (taken : s.serviceStep around answers s.service = some next) :
    next.service.rank < s.service.rank := by
  obtain ⟨-, -, low⟩ := s.unwant_facts
  have unwanted {rank : Nat} (long : 3 < rank) : s.unwant.rank < rank :=
    Nat.lt_of_le_of_lt low long
  have finished (call : ServiceCall) (active : Bool) {rank : Nat} (long : 3 < rank) :
      (finish call active).rank < rank :=
    Nat.lt_of_le_of_lt (finish_facts call active).2 long
  generalize s.service = place at taken
  cases place with
  | idle => cases taken
  | entering call =>
    cases taken
    dsimp only
    split
    · split
      · exact Nat.lt_succ_self _
      · exact unwanted (by simp [Service.rank])
    · exact Nat.succ_pos _
  | wantsMonitored call =>
    cases taken
    dsimp only
    split
    · exact Nat.lt_succ_self _
    · exact unwanted (by simp [Service.rank])
  | wantsRemoved call | wantsDead call =>
    cases taken
    dsimp only
    split
    · exact unwanted (by simp [Service.rank])
    · exact Nat.lt_succ_self _
  | detaching =>
    simp only [FencedTap.serviceStep] at taken
    split at taken
    · split at taken <;> cases taken
      simp [Service.rank]
    · cases taken
      exact Nat.lt_succ_self _
  | detachingDead | unwanted | restarting | counting | renewing | attaching | activity | stale =>
    cases taken
    exact Nat.lt_succ_self _
  | upgrading call =>
    simp only [FencedTap.serviceStep] at taken
    split at taken
    · cases taken
      exact Nat.succ_pos _
    · split at taken <;> cases taken <;> simp [Service.rank]
  | comparing call active =>
    cases taken
    dsimp only
    split <;> simp [Service.rank]
  | rating call active =>
    simp only [FencedTap.serviceStep] at taken
    cases taken
    simp [Service.rank]
  | next call active processed | popping call active processed cell =>
    obtain ⟨ring, ring', present, worked, rfl⟩ := onRing_map taken
    exact Nat.lt_succ_self _
  | fronting call active processed =>
    obtain ⟨_, read, rest⟩ := Option.bind_eq_some_iff.mp taken
    obtain ⟨ring, present, moved⟩ := Option.bind_eq_some_iff.mp read
    obtain ⟨ring', worked, rfl⟩ := Option.map_eq_some_iff.mp moved
    split at rest
    · split at rest
      · obtain ⟨ring, ring'', same, left, rfl⟩ := onRing_map rest
        exact finished call active (by simp [Service.rank])
      · rename_i few
        have bound : captureBlocks.toNat = 128 := rfl
        cases rest
        simp only [Service.rank]
        omega
    · cases rest
      exact finished call active (by simp [Service.rank])
  | judging call active processed cell =>
    obtain ⟨ring, present, rfl⟩ := Option.map_eq_some_iff.mp taken
    dsimp only
    split <;> simp [Service.rank]
  | placing call active processed cell =>
    obtain ⟨ring, present, rfl⟩ := Option.map_eq_some_iff.mp taken
    exact Nat.lt_succ_self _
  | checkingMonitored call active =>
    cases taken
    dsimp only
    split <;> simp [Service.rank]
  | checkingRemoved call active monitored =>
    cases taken
    dsimp only
    split <;> simp [Service.rank]
  | checkingEpoch call active monitored removed =>
    simp only [FencedTap.serviceStep] at taken
    split at taken <;> cases taken <;> exact Nat.succ_pos _

theorem Backed.step (backed : s.Backed) {label : Label V}
    (taken : s.step around label = some next) :
    next.Backed := by
  cases label with
  | monitoring | deactivate | remove =>
    cases taken
    exact ⟨backed.ring, backed.serves⟩
  | destroy =>
    simp only [FencedTap.step] at taken
    split at taken <;> cases taken
    exact ⟨backed.ring, backed.serves⟩
  | count =>
    obtain ⟨_, same⟩ := Option.ite_none_right_eq_some.mp taken
    cases same
    exact ⟨backed.ring, backed.serves⟩
  | capture call =>
    simp only [FencedTap.step] at taken
    split at taken
    · obtain ⟨_, same⟩ := Option.ite_none_right_eq_some.mp taken
      cases same
      exact ⟨backed.ring, backed.serves⟩
    · cases taken
  | captureStep => exact backed.captureStep taken
  | service | restart =>
    simp only [FencedTap.step] at taken
    split at taken <;> cases taken
    exact backed.move id (by rintro ⟨⟩)
  | serviceStep => exact backed.serviceStep taken

theorem serviceStep_capture (taken : s.serviceStep around answers s.service = some next) :
    next.capture = s.capture := by
  generalize s.service = place at taken
  cases place with
  | idle => cases taken
  | detaching =>
    simp only [FencedTap.serviceStep] at taken
    split at taken
    · split at taken <;> cases taken
      rfl
    · cases taken
      rfl
  | upgrading =>
    simp only [FencedTap.serviceStep] at taken
    split at taken
    · cases taken
      rfl
    · split at taken <;> cases taken <;> rfl
  | rating call active =>
    simp only [FencedTap.serviceStep] at taken
    cases taken
    split <;> rfl
  | next | popping =>
    obtain ⟨ring, ring', present, worked, rfl⟩ := onRing_map taken
    rfl
  | fronting call active processed =>
    obtain ⟨_, read, rest⟩ := Option.bind_eq_some_iff.mp taken
    obtain ⟨ring, present, moved⟩ := Option.bind_eq_some_iff.mp read
    obtain ⟨ring', worked, rfl⟩ := Option.map_eq_some_iff.mp moved
    split at rest
    · split at rest
      · obtain ⟨ring, ring'', same, left, rfl⟩ := onRing_map rest
        rfl
      · cases rest
        rfl
    · cases rest
      rfl
  | judging | placing =>
    obtain ⟨ring, present, rfl⟩ := Option.map_eq_some_iff.mp taken
    rfl
  | checkingEpoch call active monitored removed =>
    simp only [FencedTap.serviceStep] at taken
    split at taken <;> cases taken <;> rfl
  | _ =>
    cases taken
    rfl

/-- Whether a label is a step of the worker, and whether it may give the worker new work. -/
def Label.serves : Label V → Bool
  | .serviceStep _ => true
  | _ => false

def Label.asks : Label V → Bool
  | .service _ | .restart => true
  | _ => false

/-- Whether a label is a step of the callback, and whether it starts one. -/
def Label.captures : Label V → Bool
  | .captureStep => true
  | _ => false

def Label.calls : Label V → Bool
  | .capture _ => true
  | _ => false

theorem step_service_rank {label : Label V} (asked : label.asks = false)
    (taken : s.step around label = some next) :
    next.service.rank + (if label.serves then 1 else 0) ≤ s.service.rank := by
  cases label with
  | service | restart => cases asked
  | serviceStep answers => exact serviceStep_rank taken
  | captureStep => exact (congrArg Service.rank (captureStep_service taken)).le
  | monitoring | deactivate | remove =>
    cases taken
    exact le_rfl
  | destroy =>
    simp only [FencedTap.step] at taken
    split at taken <;> cases taken
    exact le_rfl
  | count =>
    obtain ⟨_, same⟩ := Option.ite_none_right_eq_some.mp taken
    cases same
    exact le_rfl
  | capture call =>
    simp only [FencedTap.step] at taken
    split at taken
    · obtain ⟨_, same⟩ := Option.ite_none_right_eq_some.mp taken
      cases same
      exact le_rfl
    · cases taken

theorem step_capture_rank {label : Label V} (short : s.capture.Short)
    (called : label.calls = false) (taken : s.step around label = some next) :
    next.capture.Short ∧
      next.capture.rank + (if label.captures then 1 else 0) ≤ s.capture.rank := by
  have same (kept : next.capture = s.capture) :
      next.capture.Short ∧ next.capture.rank ≤ s.capture.rank := by
    rw [kept]
    exact ⟨short, le_rfl⟩
  cases label with
  | capture => cases called
  | captureStep =>
    obtain ⟨lower, kept⟩ := captureStep_rank short taken
    exact ⟨fun call here => short call (kept call here), lower⟩
  | serviceStep answers => exact same (serviceStep_capture taken)
  | monitoring | deactivate | remove =>
    cases taken
    exact same rfl
  | destroy =>
    simp only [FencedTap.step] at taken
    split at taken <;> cases taken
    exact same rfl
  | count =>
    obtain ⟨_, kept⟩ := Option.ite_none_right_eq_some.mp taken
    cases kept
    exact same rfl
  | service | restart =>
    simp only [FencedTap.step] at taken
    split at taken <;> cases taken
    exact same rfl

end Worker

theorem Backed.initial [Zero V] (monitored : Bool) : (start monitored : FencedTap V).Backed :=
  ⟨by rintro (⟨⟨⟩⟩ | ⟨⟨⟩⟩), nofun⟩

end FencedTap

theorem Service.rank_le (service : Service) : service.rank ≤ 662 := by
  cases service <;> simp only [Service.rank] <;> omega

/-- In every state that is reached, the callback can take its next step, and so can the worker
unless it detaches a callback that runs. Whatever the others do, the worker is done after at most
662 steps of its own, and the callback after six for each block that is left, and a few more. -/
theorem taps_progress {V : Type*} [Zero V] [Add V] [Mul V] (around : FencedTap.Surroundings V)
    (monitored : Bool) {labels : List (FencedTap.Label V)} {s : FencedTap V}
    (ran : run (FencedTap.step around) (FencedTap.start monitored) labels = some s) :
    (s.capture ≠ .idle → (s.step around .captureStep).isSome = true) ∧
      (s.service ≠ .idle → (s.service = .detaching → s.capture = .idle) →
        ∀ answers, (s.step around (.serviceStep answers)).isSome = true) ∧
      ∀ more final, run (FencedTap.step around) s more = some final →
        ((∀ label ∈ more, label.asks = false) →
          more.countP FencedTap.Label.serves ≤ s.service.rank ∧ s.service.rank ≤ 662) ∧
        ((∀ label ∈ more, label.calls = false) → s.capture.Short →
          more.countP FencedTap.Label.captures ≤ s.capture.rank) := by
  have sound : s.Sound around :=
    run_invariant (fun _ _ _ before taken => before.step taken) (.initial around monitored) ran
  have backed : s.Backed :=
    run_invariant (fun _ _ _ before taken => before.step taken) (.initial monitored) ran
  refine ⟨FencedTap.captureStep_enabled sound backed, fun serving free answers =>
    FencedTap.serviceStep_enabled sound backed serving free answers, fun more final onward => ?_⟩
  constructor
  · intro asked
    have few := run_rank (fun _ => True) (fun state => state.service.rank)
      FencedTap.Label.serves (fun label => !label.asks) (fun state label next _ quiet taken =>
        ⟨trivial, FencedTap.step_service_rank (by simpa using quiet) taken⟩) trivial
      (fun label member => by simp [asked label member]) onward
    exact ⟨Nat.le_of_add_right_le few, s.service.rank_le⟩
  · intro called short
    have few := run_rank (fun state => state.capture.Short)
      (fun state => state.capture.rank) FencedTap.Label.captures (fun label => !label.calls)
      (fun state label next short quiet taken =>
        FencedTap.step_capture_rank short (by simpa using quiet) taken) short
      (fun label member => by simp [called label member]) onward
    exact Nat.le_of_add_right_le few

open FencedTap in
/-- A callback that has been called and a worker in its loop. -/
theorem taps_progress_both : ∃ s, run (FencedTap.step plain) (.start true)
      (serving 15600 16 ++ calling 3 ++ serving 15600 8) = some s ∧
    (s.step plain .captureStep).isSome = true ∧
    (s.step plain (.serviceStep {})).isSome = true ∧
    ∀ more final, run (FencedTap.step plain) s more = some final →
      (∀ label ∈ more, label.asks = false) → more.countP Label.serves ≤ 662 := by
  have found : (run (FencedTap.step plain) (.start true)
      (serving 15600 16 ++ calling 3 ++ serving 15600 8)).any (fun s =>
        s.capture.rank ≠ 0 ∧ 3 < s.service.rank) = true := by
    decide +kernel
  obtain ⟨s, ran, busy⟩ := (Option.any_eq_true _ _).mp found
  obtain ⟨calling, serving⟩ := of_decide_eq_true busy
  obtain ⟨callback, worker, bounded⟩ := taps_progress plain true ran
  refine ⟨s, ran, callback ?_, worker ?_ ?_ {}, fun more final onward quiet => ?_⟩
  · intro idle
    exact calling (by rw [idle]; rfl)
  · intro idle
    rw [idle] at serving
    exact absurd serving (by decide)
  · intro detaching
    rw [detaching] at serving
    exact absurd serving (by decide)
  · obtain ⟨few, bound⟩ := (bounded more final onward).1 quiet
    exact few.trans bound

end VbanStream
