import VbanStream.Library.Observe
import VbanStream.Receiver.Reconfigure

/-! The two loops as one slot and its consumers see them, and the runs in which
they work for other slots only. -/

namespace VbanStream

open Library

/-- What passes between the two loops and one slot, and what a new generation costs it. -/
inductive SlotEvent where
  | read (d : Datagram)
  | handed (d : Datagram) (now : UInt64)
  | pulled (block : AudioBlock)
  | delivered (block : AudioBlock)
  | overtaken (d : Datagram)
  | withheld (block : AudioBlock)

namespace SlotEvent

def read? : SlotEvent → Option Datagram
  | .read d => some d
  | _ => none

def handed? : SlotEvent → Option Datagram
  | .handed d _ => some d
  | _ => none

def pulled? : SlotEvent → Option AudioBlock
  | .pulled block => some block
  | _ => none

def delivered? : SlotEvent → Option AudioBlock
  | .delivered block => some block
  | _ => none

/-- The datagram goes to the buffer, or is lost on the way. -/
def settled? : SlotEvent → Option Datagram
  | .handed d _ | .overtaken d => some d
  | _ => none

/-- The block goes to the consumers, or is lost on the way. -/
def released? : SlotEvent → Option AudioBlock
  | .delivered block | .withheld block => some block
  | _ => none

/-- What the slot's buffer takes part in. -/
def buffered? : SlotEvent → Option SlotEvent
  | .handed d now => some (.handed d now)
  | .pulled block => some (.pulled block)
  | _ => none

end SlotEvent

/-- Where `receive_loop` is with a datagram for one slot. -/
inductive Incoming where
  | away
  | taken (d : Datagram)
  | routed (d : Datagram)

/-- A new generation comes before the push. -/
def Incoming.raised : Incoming → Incoming
  | .away | .routed _ => .away
  | .taken d => .taken d

/-- Where `audio_loop` is with one slot in its current pass, and whether the
generation that the pass began with is still in force. -/
inductive Turn where
  | away
  | ahead (now : UInt64) (current : Bool)
  | holding (block : AudioBlock) (current : Bool)
  | playing (block : AudioBlock)

/-- A new generation makes the pass outdated. -/
def Turn.raised : Turn → Turn
  | .away => .away
  | .ahead now _ => .ahead now false
  | .holding block _ => .holding block false
  | .playing block => .playing block

/-- The time of the pass in which a slot's service is still due. -/
def Turn.due : Turn → Option UInt64
  | .ahead now _ => some now
  | _ => none

namespace Receiver

def Label.configures : Label → Bool
  | .prepare _ | .bump | .reset | .publish => true
  | _ => false

/-- The datagram matches the slot: protocol, sender, name and port. -/
def accepts (s : Receiver) (i : Fin slotCount) (d : Datagram) : Bool :=
  s.routing.hears d i && d.audio && s.routing.socket == some d.socket

def incoming (s : Receiver) (i : Fin slotCount) : Incoming :=
  match s.network with
  | .idle | .polling _ => .away
  | .received _ d => if s.accepts i d then .taken d else .away
  | .visiting route d remaining =>
    if i ∈ remaining ∧ route.hears d i = true ∧ route.generation = s.generation then .routed d
    else .away

def turn (s : Receiver) (i : Fin slotCount) : Turn :=
  match s.audio with
  | .idle => .away
  | .running now generation remaining =>
    if i ∈ remaining then .ahead now (generation == s.generation) else .away
  | .holding now generation j block _ remaining =>
    if j = i then .holding block (generation == s.generation)
    else if i ∈ remaining then .ahead now (generation == s.generation) else .away
  | .playing now generation j block _ remaining =>
    if j = i then .playing block
    else if i ∈ remaining then .ahead now (generation == s.generation) else .away

def observe (i : Fin slotCount) (s : Receiver) : Label → List SlotEvent
  | .arrive bytes sender =>
    match s.network with
    | .polling route =>
      (route.socket.toList.map fun socket => Datagram.mk bytes sender socket).filter (s.accepts i)
        |>.map .read
    | _ => []
  | .visit now =>
    match s.network with
    | .visiting route d (j :: _) =>
      if j = i ∧ route.hears d i = true ∧ route.generation = s.generation then [.handed d now]
      else []
    | _ => []
  | .service =>
    match s.audio with
    | .running now _ (j :: _) =>
      if j = i then ((s.slots i).service now).2.toList.map .pulled else []
    | _ => []
  | .output =>
    match s.audio with
    | .playing _ _ j block _ _ => if j = i then [.delivered block] else []
    | _ => []
  | _ => []

/-- What a new generation costs the slot: a datagram that `receive_loop` has routed and not
yet pushed, a block that `audio_loop` has not yet checked, and the slot's block of a pass
that has come to be outdated. -/
def losses (i : Fin slotCount) (s : Receiver) : Label → List SlotEvent
  | .bump =>
    (match s.incoming i with
      | .routed d => [.overtaken d]
      | _ => []) ++
    match s.turn i with
    | .holding block true => [.withheld block]
    | _ => []
  | .service =>
    match s.audio with
    | .running now generation (j :: _) =>
      if j = i ∧ generation ≠ s.generation then
        ((s.slots i).service now).2.toList.map .withheld
      else []
    | _ => []
  | _ => []

def account (i : Fin slotCount) (s : Receiver) (label : Label) : List SlotEvent :=
  observe i s label ++ losses i s label

/-- A loop is between its look at the routing or the generation and the check
against the generation in force, on behalf of the slot. -/
def exposed (s : Receiver) (i : Fin slotCount) : Bool :=
  (match s.incoming i with
    | .routed _ => true
    | _ => false) ||
  match s.turn i with
  | .ahead _ current | .holding _ current => current
  | _ => false

/-- The datagram that `receive_loop` still owes the slot. -/
def inFlight (s : Receiver) (i : Fin slotCount) : List Datagram :=
  match s.incoming i with
  | .away => []
  | .taken d | .routed d => [d]

/-- The block that `audio_loop` still owes the slot's consumers. -/
def inHand (s : Receiver) (i : Fin slotCount) : List AudioBlock :=
  match s.turn i with
  | .holding block true | .playing block => [block]
  | _ => []

/-- Changes leave the slot alone. -/
def sparing (i : Fin slotCount) (s : Receiver) : Label → Bool
  | .prepare config => !s.routing.changes config i
  | _ => true

/-- Changes leave the slot alone, and no generation begins while it is exposed. -/
def undisturbed (i : Fin slotCount) (s : Receiver) : Label → Bool
  | .prepare config => !s.routing.changes config i
  | .bump => !s.exposed i
  | _ => true

/-- Two routings treat a slot the same. -/
structure Alike (i : Fin slotCount) (route other : Routing) : Prop where
  enabled : (route.config.slots i).enabled = (other.config.slots i).enabled
  name : (route.config.slots i).streamName = (other.config.slots i).streamName
  address : (route.config.slots i).enabled = true → route.addresses i = other.addresses i
  socket : (route.config.slots i).enabled = true → route.socket = other.socket

theorem Alike.refl (i : Fin slotCount) (route : Routing) : Alike i route route :=
  ⟨rfl, rfl, fun _ => rfl, fun _ => rfl⟩

theorem Alike.trans {i : Fin slotCount} {route other third : Routing} (first : Alike i route other)
    (second : Alike i other third) : Alike i route third := by
  refine ⟨first.enabled.trans second.enabled, first.name.trans second.name, ?_, ?_⟩
  · intro on
    exact (first.address on).trans (second.address (first.enabled ▸ on))
  · intro on
    exact (first.socket on).trans (second.socket (first.enabled ▸ on))

theorem Alike.hears {i : Fin slotCount} {route other : Routing} (alike : Alike i route other)
    (d : Datagram) : route.hears d i = other.hears d i := by
  unfold Routing.hears
  rw [← alike.enabled, ← alike.name]
  by_cases on : (route.config.slots i).enabled = true
  · rw [alike.address on]
  · simp [on]

theorem Alike.accepts {i : Fin slotCount} {s t : Receiver} (alike : Alike i t.routing s.routing)
    (d : Datagram) : t.accepts i d = s.accepts i d := by
  unfold Receiver.accepts
  rw [alike.hears]
  by_cases on : (t.routing.config.slots i).enabled = true
  · rw [alike.socket on]
  · have off : s.routing.hears d i = false := by
      rw [← alike.hears]
      simp [Routing.hears, on]
    simp [off]

/-- Every slot that listens has a socket to listen on. -/
def Bound (route : Routing) : Prop :=
  ∀ i, (route.config.slots i).enabled = true → route.socket.isSome = true

theorem listens_of_enabled {config : Config} {i : Fin slotCount}
    (on : (config.slots i).enabled = true) : Routing.listens config = true := by
  have some_slot : (List.finRange slotCount).any (fun i => (config.slots i).enabled) = true :=
    List.any_eq_true.mpr ⟨i, List.mem_finRange i, on⟩
  rw [Routing.listens, some_slot, Bool.true_or]

theorem prepare_bound (parse : Parse) (old : Routing) (config : Config) (fresh : Nat) :
    Bound (old.prepare parse config fresh) := by
  intro i on
  have listens : Routing.listens config = true := listens_of_enabled (i := i) on
  simp only [Routing.prepare]
  split
  · rename_i kept
    simp only [Routing.keepsSocket, Bool.and_eq_true] at kept
    exact kept.1.2
  · rfl

theorem prepare_alike {parse : Parse} {old : Routing} {config : Config} {i : Fin slotCount}
    (bound : Bound old) (addressed : old.Addressed parse) (same : old.changes config i = false)
    (fresh : Nat) : Alike i old (old.prepare parse config fresh) := by
  simp only [Routing.changes, Bool.or_eq_false_iff, bne_eq_false_iff_eq] at same
  obtain ⟨⟨⟨enabled, name⟩, ip⟩, port⟩ := same
  refine ⟨enabled, name, fun on => ?_, fun on => ?_⟩
  · have on' : (config.slots i).enabled = true := enabled ▸ on
    simp only [Routing.prepare, on', if_true]
    rw [← ip, addressed i on, Option.getD_some]
  · have kept : old.keepsSocket config = true := by
      simp [Routing.keepsSocket, listens_of_enabled (enabled ▸ on : _ = true), bound i on, port]
    simp only [Routing.prepare, kept, if_true]

def EditBound : Edit → Prop
  | .idle => True
  | .prepared next | .committing next _ => Bound next

def NetworkOnce : Network → Prop
  | .visiting _ _ remaining => remaining.Nodup
  | _ => True

def AudioOnce (latest : Nat) : Audio → Prop
  | .idle => True
  | .running _ generation remaining => generation ≤ latest ∧ remaining.Nodup
  | .holding _ generation i _ _ remaining | .playing _ generation i _ _ remaining =>
    generation ≤ latest ∧ (i :: remaining).Nodup

/-- Listening slots have sockets, and no loop comes to a slot twice in a pass. -/
structure Tidy (s : Receiver) : Prop where
  bound : Bound s.routing
  edit : EditBound s.edit
  network : NetworkOnce s.network
  audio : AudioOnce s.generation s.audio

theorem AudioOnce.later {latest : Nat} {audio : Audio} (once : AudioOnce latest audio) :
    AudioOnce (latest + 1) audio := by
  cases audio with
  | idle => trivial
  | running => exact ⟨Nat.le_succ_of_le once.1, once.2⟩
  | holding => exact ⟨Nat.le_succ_of_le once.1, once.2⟩
  | playing => exact ⟨Nat.le_succ_of_le once.1, once.2⟩

theorem tidy_initial : Tidy {} := by
  refine ⟨fun i on => ?_, trivial, trivial, trivial⟩
  cases on

theorem tidy_configure {parse : Parse} {s next : Receiver} {label : Label} (tidy : Tidy s)
    (taken : s.configureStep parse label s.edit = some next) : Tidy next := by
  obtain ⟨bound, edit, network, audio⟩ := tidy
  unfold configureStep at taken
  split at taken
  · split at taken
    · cases taken
      exact ⟨bound, prepare_bound _ _ _ _, network, audio⟩
    · cases taken
  · rename_i status
    cases taken
    rw [status] at edit
    exact ⟨bound, edit, network, audio.later⟩
  · rename_i status
    cases taken
    rw [status] at edit
    split
    · exact ⟨bound, edit, network, audio⟩
    · exact ⟨bound, edit, network, audio⟩
  · rename_i status
    cases taken
    rw [status] at edit
    exact ⟨edit, trivial, network, audio⟩
  · cases taken

theorem tidy_network {s next : Receiver} {label : Label} (tidy : Tidy s)
    (taken : s.networkStep label s.network = some next) : Tidy next := by
  obtain ⟨bound, edit, network, audio⟩ := tidy
  have away {network : Network} (once : NetworkOnce network) :
      Tidy { s with network := network } := ⟨bound, edit, once, audio⟩
  unfold networkStep at taken
  split at taken
  · split at taken
    · cases taken
    · cases taken
      exact away trivial
  · cases taken
    exact away trivial
  · obtain ⟨socket, _, rfl⟩ := Option.map_eq_some_iff.mp taken
    exact away trivial
  · split at taken
    · cases taken
    · split at taken
      · cases taken
        exact away trivial
      · split at taken
        · cases taken
          exact away (List.nodup_finRange _)
        · cases taken
          exact away trivial
  · rename_i status
    rw [status] at network
    have once := (List.nodup_cons.mp network).2
    split at taken
    · split at taken
      · cases taken
        exact away trivial
      · cases taken
        exact ⟨bound, edit, once, audio⟩
    · cases taken
      exact away once
  · cases taken
    exact away trivial
  · cases taken

theorem tidy_audio {s next : Receiver} {label : Label} (tidy : Tidy s)
    (taken : s.audioStep label s.audio = some next) : Tidy next := by
  obtain ⟨bound, edit, network, audio⟩ := tidy
  unfold audioStep at taken
  split at taken
  · cases taken
    exact ⟨bound, edit, network, Nat.le_refl _, List.nodup_finRange _⟩
  · rename_i status
    cases taken
    rw [status] at audio
    refine ⟨bound, edit, network, ?_⟩
    dsimp only
    split
    · exact ⟨audio.1, (List.nodup_cons.mp audio.2).2⟩
    · exact audio
  · cases taken
    exact ⟨bound, edit, network, trivial⟩
  · rename_i status
    rw [status] at audio
    split at taken
    · cases taken
      exact ⟨bound, edit, network, audio.1, (List.nodup_cons.mp audio.2).2⟩
    · cases taken
      exact ⟨bound, edit, network, audio⟩
  · rename_i status
    cases taken
    rw [status] at audio
    exact ⟨bound, edit, network, audio.1, (List.nodup_cons.mp audio.2).2⟩
  · cases taken

/-- The invariants of both runs that are compared. -/
structure Sound (parse : Parse) (s : Receiver) : Prop where
  main : Invariant parse s
  tidy : Tidy s

theorem sound_step {parse : Parse} (s : Receiver) (label : Label) (next : Receiver)
    (sound : Sound parse s) (taken : s.step parse label = some next) : Sound parse next := by
  refine ⟨invariant_step s label next sound.main taken, ?_⟩
  cases label with
  | prepare | bump | reset | publish => exact tidy_configure sound.tidy taken
  | snapshot | arrive | retry | reroute | visit => exact tidy_network sound.tidy taken
  | wake | service | check | output => exact tidy_audio sound.tidy taken

theorem sound_reachable {parse : Parse} {s : Receiver}
    (reached : Reachable (step parse) {} s) : Sound parse s :=
  reached.invariant sound_step ⟨invariant_initial parse, tidy_initial⟩

/-- What a slot and its consumers see of a run. -/
def seen (parse : Parse) (i : Fin slotCount) (s : Receiver) (labels : List Label) :
    List SlotEvent :=
  observed (step parse) (observe i) s labels

/-- A run without reconfiguration in which the slot and its consumers see exactly
these events. -/
abbrev Calm (parse : Parse) (i : Fin slotCount) : Receiver → List SlotEvent → Receiver → Prop :=
  Emits (step parse) (observe i) fun label => !label.configures

theorem run_sound {parse : Parse} {i : Fin slotCount} {t later : Receiver}
    {events : List SlotEvent} (emits : Calm parse i t events later) (sound : Sound parse t) :
    Sound parse later :=
  emits.invariant sound_step sound

/-- What the loops' work for other slots leaves as it is. -/
structure Keeps (i : Fin slotCount) (t later : Receiver) : Prop where
  routing : later.routing = t.routing
  generation : later.generation = t.generation
  edit : later.edit = t.edit
  slot : later.slots i = t.slots i

theorem Keeps.refl (i : Fin slotCount) (t : Receiver) : Keeps i t t := ⟨rfl, rfl, rfl, rfl⟩

theorem Keeps.trans {i : Fin slotCount} {t middle later : Receiver} (first : Keeps i t middle)
    (second : Keeps i middle later) : Keeps i t later :=
  ⟨second.routing.trans first.routing, second.generation.trans first.generation,
    second.edit.trans first.edit, second.slot.trans first.slot⟩

theorem keeps_touch {i j : Fin slotCount} (other : j ≠ i) (t : Receiver) (entry : Entry) :
    Keeps i t (t.touch j entry) :=
  ⟨rfl, rfl, rfl, Function.update_of_ne other.symm _ _⟩

/-- `receive_loop` passes a slot that does not get the datagram. -/
theorem visit_past (parse : Parse) {i j : Fin slotCount} {t : Receiver} {route : Routing}
    {d : Datagram} {remaining : List (Fin slotCount)}
    (status : t.network = .visiting route d (j :: remaining))
    (past : j = i → route.hears d i = true → route.generation ≠ t.generation) :
    ∃ later, Calm parse i t [] later ∧ Keeps i t later ∧ later.audio = t.audio ∧
      (later.network = .idle ∨ later.network = .visiting route d remaining) ∧
      (route.generation = t.generation → later.network = .visiting route d remaining) := by
  have unseen : observe i t (.visit 0) = [] := by
    simp only [observe, status]
    rw [if_neg]
    rintro ⟨here, hears, current⟩
    exact past here hears current
  by_cases hears : route.hears d j = true
  · by_cases current : route.generation = t.generation
    · have other : j ≠ i := by
        rintro rfl
        exact past rfl hears current
      have taken : t.step parse (.visit 0) = some { t.touch j (.received d 0 t.generation) with
          network := .visiting route d remaining } := by
        simp [step, networkStep, status, hears, current]
      have kept := keeps_touch other t (.received d 0 t.generation)
      exact ⟨_, Emits.shown rfl taken unseen, ⟨rfl, rfl, rfl, kept.slot⟩, rfl, .inr rfl,
        fun _ => rfl⟩
    · have taken : t.step parse (.visit 0) = some { t with network := .idle } := by
        simp [step, networkStep, status, hears, current]
      exact ⟨_, Emits.shown rfl taken unseen, ⟨rfl, rfl, rfl, rfl⟩, rfl, .inl rfl,
        fun current' => absurd current' current⟩
  · have taken : t.step parse (.visit 0) = some { t with
        network := .visiting route d remaining } := by
      simp [step, networkStep, status, hears]
    exact ⟨_, Emits.shown rfl taken unseen, ⟨rfl, rfl, rfl, rfl⟩, rfl, .inr rfl, fun _ => rfl⟩

/-- `receive_loop` can finish with a datagram that the slot does not get. -/
theorem visits_finish (parse : Parse) {i : Fin slotCount} {t : Receiver} {route : Routing}
    {d : Datagram} {remaining : List (Fin slotCount)}
    (status : t.network = .visiting route d remaining)
    (past : i ∈ remaining → route.hears d i = true → route.generation ≠ t.generation) :
    ∃ later, Calm parse i t [] later ∧ Keeps i t later ∧ later.audio = t.audio ∧
      later.network = .idle := by
  induction remaining generalizing t with
  | nil =>
    have taken : t.step parse (.visit 0) = some { t with network := .idle } := by
      simp [step, networkStep, status]
    have unseen : observe i t (.visit 0) = [] := by simp [observe, status]
    exact ⟨_, Emits.shown rfl taken unseen, ⟨rfl, rfl, rfl, rfl⟩, rfl, rfl⟩
  | cons j rest ih =>
    obtain ⟨middle, emits, keeps, audio, idle | visiting, _⟩ := visit_past parse
      (i := i) status fun here => past (here ▸ List.mem_cons_self)
    · exact ⟨middle, emits, keeps, audio, idle⟩
    · obtain ⟨later, emits', keeps', audio', idle⟩ := ih visiting fun member => by
        rw [keeps.generation]
        exact past (List.mem_cons_of_mem _ member)
      exact ⟨later, emits.trans emits', keeps.trans keeps', audio'.trans audio, idle⟩

/-- `receive_loop` can go on to a slot that gets the datagram. -/
theorem visits_reach (parse : Parse) {i : Fin slotCount} {t : Receiver} {route : Routing}
    {d : Datagram} {remaining : List (Fin slotCount)}
    (status : t.network = .visiting route d remaining) (member : i ∈ remaining)
    (current : route.generation = t.generation) :
    ∃ later rest, Calm parse i t [] later ∧ Keeps i t later ∧ later.audio = t.audio ∧
      later.network = .visiting route d (i :: rest) := by
  induction remaining generalizing t with
  | nil => cases member
  | cons j rest ih =>
    by_cases here : j = i
    · subst here
      exact ⟨t, rest, .refl t, .refl j t, rfl, status⟩
    · obtain ⟨middle, emits, keeps, audio, _, visiting⟩ := visit_past parse
        (i := i) status fun same => absurd same here
      have member' : i ∈ rest := (List.mem_cons.mp member).resolve_left (Ne.symm here)
      obtain ⟨later, rest', emits', keeps', audio', reached⟩ :=
        ih (visiting current) member' (current.trans keeps.generation.symm)
      exact ⟨later, rest', emits.trans emits', keeps.trans keeps', audio'.trans audio, reached⟩

/-- `audio_loop` passes another slot. -/
theorem holding_past (parse : Parse) {i j : Fin slotCount} (other : j ≠ i) {t : Receiver}
    {now : UInt64} {generation : Nat} {block : AudioBlock} {sources : List Entry}
    {remaining : List (Fin slotCount)}
    (status : t.audio = .holding now generation j block sources remaining) :
    ∃ later, Calm parse i t [] later ∧ Keeps i t later ∧ later.network = t.network ∧
      later.audio = .running now generation remaining := by
  by_cases current : generation = t.generation
  · let playing : Receiver :=
      { t with audio := .playing now generation j block sources remaining }
    have checked : t.step parse .check = some playing := by
      simp [step, audioStep, status, current, playing]
    have output : playing.step parse .output = some { t with
        audio := .running now generation remaining } := rfl
    have unseen : observe i playing .output = [] := if_neg other
    exact ⟨_, (Emits.shown rfl checked rfl).trans (Emits.shown rfl output unseen),
      ⟨rfl, rfl, rfl, rfl⟩, rfl, rfl⟩
  · have checked : t.step parse .check = some { t with
        audio := .running now generation remaining } := by
      simp [step, audioStep, status, current]
    exact ⟨_, Emits.shown rfl checked rfl, ⟨rfl, rfl, rfl, rfl⟩, rfl, rfl⟩

theorem playing_past (parse : Parse) {i j : Fin slotCount} (other : j ≠ i) {t : Receiver}
    {now : UInt64} {generation : Nat} {block : AudioBlock} {sources : List Entry}
    {remaining : List (Fin slotCount)}
    (status : t.audio = .playing now generation j block sources remaining) :
    ∃ later, Calm parse i t [] later ∧ Keeps i t later ∧ later.network = t.network ∧
      later.audio = .running now generation remaining := by
  have output : t.step parse .output = some { t with
      audio := .running now generation remaining } := by
    simp [step, audioStep, status]
  have unseen : observe i t .output = [] := by simp [observe, status, other]
  exact ⟨_, Emits.shown rfl output unseen, ⟨rfl, rfl, rfl, rfl⟩, rfl, rfl⟩

theorem service_past (parse : Parse) {i j : Fin slotCount} (other : j ≠ i) {t : Receiver}
    {now : UInt64} {generation : Nat} {remaining : List (Fin slotCount)}
    (status : t.audio = .running now generation (j :: remaining)) :
    ∃ later, Calm parse i t [] later ∧ Keeps i t later ∧ later.network = t.network ∧
      later.audio = .running now generation remaining := by
  have unseen : observe i t .service = [] := by simp [observe, status, other]
  have kept := keeps_touch other t (.serviced now)
  cases result : ((t.slots j).service now).2 with
  | none =>
    have serviced : t.step parse .service = some { t.touch j (.serviced now) with
        audio := .running now generation remaining } := by
      simp [step, audioStep, status, result]
    exact ⟨_, Emits.shown rfl serviced unseen, ⟨rfl, rfl, rfl, kept.slot⟩, rfl, rfl⟩
  | some block =>
    let holding : Receiver := { t.touch j (.serviced now) with
      audio := .holding now generation j block (t.history.log j) remaining }
    have serviced : t.step parse .service = some holding := by
      simp [step, audioStep, status, result, holding]
    obtain ⟨later, emits, keeps, network, audio⟩ :=
      holding_past parse (t := holding) other rfl
    have before : Keeps i t holding := ⟨rfl, rfl, rfl, kept.slot⟩
    exact ⟨later, (Emits.shown rfl serviced unseen).trans emits,
      before.trans keeps, network, audio⟩

/-- `audio_loop` can finish its pass without the slot. -/
theorem services_finish (parse : Parse) {i : Fin slotCount} {t : Receiver} {now : UInt64}
    {generation : Nat} {remaining : List (Fin slotCount)}
    (status : t.audio = .running now generation remaining) (past : i ∉ remaining) :
    ∃ later, Calm parse i t [] later ∧ Keeps i t later ∧ later.network = t.network ∧
      later.audio = .idle := by
  induction remaining generalizing t with
  | nil =>
    have taken : t.step parse .service = some { t with audio := .idle } := by
      simp [step, audioStep, status]
    have unseen : observe i t .service = [] := by simp [observe, status]
    exact ⟨_, Emits.shown rfl taken unseen, ⟨rfl, rfl, rfl, rfl⟩, rfl, rfl⟩
  | cons j rest ih =>
    have other : j ≠ i := fun same => past (same ▸ List.mem_cons_self)
    obtain ⟨middle, emits, keeps, network, running⟩ := service_past parse other status
    obtain ⟨later, emits', keeps', network', idle⟩ :=
      ih running fun member => past (List.mem_cons_of_mem _ member)
    exact ⟨later, emits.trans emits', keeps.trans keeps', network'.trans network, idle⟩

theorem services_reach (parse : Parse) {i : Fin slotCount} {t : Receiver} {now : UInt64}
    {generation : Nat} {remaining : List (Fin slotCount)}
    (status : t.audio = .running now generation remaining) (member : i ∈ remaining) :
    ∃ later rest, Calm parse i t [] later ∧ Keeps i t later ∧ later.network = t.network ∧
      later.audio = .running now generation (i :: rest) := by
  induction remaining generalizing t with
  | nil => cases member
  | cons j rest ih =>
    by_cases here : j = i
    · subst here
      exact ⟨t, rest, .refl t, .refl j t, rfl, status⟩
    · obtain ⟨middle, emits, keeps, network, running⟩ := service_past parse here status
      have member' : i ∈ rest := (List.mem_cons.mp member).resolve_left (Ne.symm here)
      obtain ⟨later, rest', emits', keeps', network', reached⟩ := ih running member'
      exact ⟨later, rest', emits.trans emits', keeps.trans keeps', network'.trans network, reached⟩

theorem turn_of_idle {s : Receiver} (status : s.audio = .idle) (i : Fin slotCount) :
    s.turn i = .away := by
  simp [turn, status]

/-- Behind a received datagram, the loop is on the socket that it was received on. -/
theorem reroute_visits {parse : Parse} {s : Receiver} (sound : Sound parse s) {route : Routing}
    {d : Datagram} (status : s.network = .received route d) (unlocked : s.locked = false)
    {i : Fin slotCount} (accepted : s.accepts i d = true) :
    s.step parse .reroute = some { s with
      network := .visiting s.routing d (List.finRange slotCount) } := by
  have network := sound.main.network
  rw [status] at network
  simp only [accepts, Bool.and_eq_true, beq_iff_eq] at accepted
  obtain ⟨⟨hears, audio⟩, socket⟩ := accepted
  simp only [Routing.hears, Bool.and_eq_true, beq_iff_eq] at hears
  have same : route.socket = s.routing.socket := network.trans socket.symm
  simp [step, networkStep, status, unlocked, same, hears.2, audio]

theorem network_settles (parse : Parse) {i : Fin slotCount} {t : Receiver} (sound : Sound parse t)
    (unlocked : t.edit = .idle) (away : t.incoming i = .away) :
    ∃ later, Calm parse i t [] later ∧ Keeps i t later ∧ later.audio = t.audio ∧
      later.network = .idle := by
  cases status : t.network with
  | idle => exact ⟨t, .refl t, .refl i t, rfl, status⟩
  | polling route =>
    have taken : t.step parse .retry = some { t with network := .idle } := by
      simp [step, networkStep, status]
    exact ⟨_, Emits.shown rfl taken rfl, ⟨rfl, rfl, rfl, rfl⟩, rfl, rfl⟩
  | received route d =>
    have network := sound.main.network
    rw [status] at network
    have refused : t.accepts i d = false := by
      by_contra accepted
      simp [incoming, status, accepted] at away
    have free : t.locked = false := by simp [locked, unlocked]
    by_cases routed : route.socket = t.routing.socket ∧ (d.name.isSome && d.audio) = true
    · obtain ⟨same, audio⟩ := routed
      let visiting : Receiver :=
        { t with network := .visiting t.routing d (List.finRange slotCount) }
      have taken : t.step parse .reroute = some visiting := by
        simp [step, networkStep, status, free, same, audio, visiting]
      obtain ⟨later, emits, keeps, audio', idle⟩ := visits_finish parse (i := i)
        (t := visiting) rfl fun _ hears => by
          rw [Bool.and_eq_true] at audio
          have socket : t.routing.socket = some d.socket := same ▸ network
          simp [accepts, hears, audio.2, socket] at refused
      have kept : Keeps i t visiting := ⟨rfl, rfl, rfl, rfl⟩
      exact ⟨later, (Emits.shown rfl taken rfl).trans emits, kept.trans keeps, audio', idle⟩
    · have taken : t.step parse .reroute = some { t with network := .idle } := by
        by_cases same : route.socket = t.routing.socket
        · simp only [step, networkStep, status, free, same, ne_eq, not_true_eq_false, if_false]
          rw [if_neg fun audio => routed ⟨same, audio⟩]
          rfl
        · simp [step, networkStep, status, free, same]
      exact ⟨_, Emits.shown rfl taken rfl, ⟨rfl, rfl, rfl, rfl⟩, rfl, rfl⟩
  | visiting route d remaining =>
    apply visits_finish parse status
    intro member hears current
    simp [incoming, status, member, hears, current] at away

/-- A pass without a block of the slot comes back to its loop, and the slot's turn is as before. -/
theorem audio_runs (parse : Parse) {i : Fin slotCount} {t : Receiver}
    (free : t.turn i = .away ∨ ∃ now current, t.turn i = .ahead now current) :
    t.audio = .idle ∨ ∃ middle now generation remaining, Calm parse i t [] middle ∧
      Keeps i t middle ∧ middle.network = t.network ∧
      middle.audio = .running now generation remaining ∧ middle.turn i = t.turn i := by
  cases status : t.audio with
  | idle => exact .inl rfl
  | running now generation remaining =>
    exact .inr ⟨t, now, generation, remaining, .refl t, .refl i t, rfl, status, rfl⟩
  | holding now generation j block sources remaining =>
    have other : j ≠ i := by
      rintro rfl
      simp [turn, status] at free
    obtain ⟨middle, emits, keeps, network, running⟩ := holding_past parse other status
    refine .inr ⟨middle, now, generation, remaining, emits, keeps, network, running, ?_⟩
    simp [turn, status, running, other, keeps.generation]
  | playing now generation j block sources remaining =>
    have other : j ≠ i := by
      rintro rfl
      simp [turn, status] at free
    obtain ⟨middle, emits, keeps, network, running⟩ := playing_past parse other status
    refine .inr ⟨middle, now, generation, remaining, emits, keeps, network, running, ?_⟩
    simp [turn, status, running, other, keeps.generation]

theorem audio_settles (parse : Parse) {i : Fin slotCount} {t : Receiver}
    (away : t.turn i = .away) :
    ∃ later, Calm parse i t [] later ∧ Keeps i t later ∧ later.network = t.network ∧
      later.audio = .idle := by
  rcases audio_runs parse (.inl away) with
    idle | ⟨middle, now, generation, remaining, emits, keeps, network, running, same⟩
  · exact ⟨t, .refl t, .refl i t, rfl, idle⟩
  · have past : i ∉ remaining := by
      intro member
      rw [away] at same
      simp [turn, running, member] at same
    obtain ⟨later, emits', keeps', network', idle⟩ := services_finish parse running past
    exact ⟨later, emits.trans emits', keeps.trans keeps', network'.trans network, idle⟩

theorem audio_reaches (parse : Parse) {i : Fin slotCount} {t : Receiver} {now : UInt64}
    {current : Bool} (ahead : t.turn i = .ahead now current) :
    ∃ later generation rest, Calm parse i t [] later ∧ Keeps i t later ∧
      later.network = t.network ∧ later.audio = .running now generation (i :: rest) ∧
      (generation == later.generation) = current := by
  rcases audio_runs parse (.inr ⟨now, current, ahead⟩) with
    idle | ⟨middle, now', generation, remaining, emits, keeps, network, running, same⟩
  · simp [turn, idle] at ahead
  · rw [ahead] at same
    by_cases member : i ∈ remaining
    · simp only [turn, running, member, if_true, Turn.ahead.injEq] at same
      obtain ⟨rfl, same⟩ := same
      obtain ⟨later, rest, emits', keeps', network', reached⟩ :=
        services_reach parse running member
      exact ⟨later, generation, rest, emits.trans emits', keeps.trans keeps',
        network'.trans network, reached, keeps'.generation ▸ same⟩
    · simp [turn, running, member] at same

end Receiver

end VbanStream
