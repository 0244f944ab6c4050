import VbanStream.Receiver.Threads

namespace VbanStream

open Library

/-- A datagram belongs to the slot of a configuration: address, name and socket. -/
structure Routing.Admits (parse : Parse) (route : Routing) (d : Datagram) (i : Fin slotCount) :
    Prop where
  enabled : (route.config.slots i).enabled = true
  sender : parse (route.config.ip i) = some d.sender
  name : d.name = some (route.config.slots i).streamName
  socket : route.socket = some d.socket

/-- The packets in a log all come from generation `least` on. -/
def Recent (least : Nat) (log : List Entry) : Prop :=
  ∀ d now generation, .received d now generation ∈ log → least ≤ generation

theorem recent_nil (least : Nat) : Recent least [] := by
  intro d now generation member
  cases member

theorem recent_append {least : Nat} {log : List Entry} (recent : Recent least log) {entry : Entry}
    (late : ∀ d now generation, entry = .received d now generation → least ≤ generation) :
    Recent least (log ++ [entry]) := by
  intro d now generation member
  rcases List.mem_append.mp member with old | new
  · exact recent d now generation old
  · exact late d now generation (List.mem_singleton.mp new).symm

/-- The addresses of a routing are those of its configuration. -/
def Routing.Addressed (parse : Parse) (route : Routing) : Prop :=
  ∀ i, (route.config.slots i).enabled = true →
    parse (route.config.ip i) = some (route.addresses i)

theorem prepare_addressed {parse : Parse} {config : Config} (valid : validate parse config = none)
    (old : Routing) (fresh : Nat) : (old.prepare parse config fresh).Addressed parse := by
  intro i enabled
  obtain ⟨address, parsed⟩ := Option.isSome_iff_exists.mp ((validate_slots valid).2 i enabled)
  change parse (config.ip i) = some (if (config.slots i).enabled then _ else _)
  have on : (config.slots i).enabled = true := enabled
  rw [parsed, if_pos on, Option.getD_some]

theorem admits_of_hears {parse : Parse} {route : Routing} {d : Datagram} {i : Fin slotCount}
    (addressed : route.Addressed parse) (socket : route.socket = some d.socket)
    (hears : route.hears d i = true) : route.Admits parse d i := by
  simp only [Routing.hears, Bool.and_eq_true, beq_iff_eq] at hears
  obtain ⟨⟨enabled, sender⟩, name⟩ := hears
  exact ⟨enabled, sender ▸ addressed i enabled, name, socket⟩

namespace Receiver

/-- The generation counter leads the routing exactly while a change commits,
and slots that the change has reset hold nothing older. -/
def EditSound (parse : Parse) (s : Receiver) : Edit → Prop
  | .idle => s.generation = s.routing.generation
  | .prepared next => s.generation = s.routing.generation ∧ next.Addressed parse
  | .committing next remaining =>
    s.generation = s.routing.generation + 1 ∧ next.generation = s.generation ∧
      next.Addressed parse ∧
      ∀ i, s.routing.changes next.config i = true → i ∉ remaining →
        Recent s.generation (s.history.log i)

/-- A routing held by the receive loop has been published, and its datagram was
received on its socket. -/
def NetworkSound (s : Receiver) : Network → Prop
  | .idle | .polling _ => True
  | .received route d => route.socket = some d.socket
  | .visiting route d _ => route.socket = some d.socket ∧
      s.history.published[route.generation]? = some route

theorem EditSound.frame {parse : Parse} {s after : Receiver} {edit : Edit}
    (sound : EditSound parse s edit) (routing : after.routing = s.routing)
    (generation : after.generation = s.generation)
    (log : ∀ i, Recent s.generation (s.history.log i) →
      Recent s.generation (after.history.log i)) : EditSound parse after edit := by
  cases edit with
  | idle => simpa only [EditSound, routing, generation] using sound
  | prepared => simpa only [EditSound, routing, generation] using sound
  | committing next remaining =>
    obtain ⟨lead, next', addressed, reset⟩ := sound
    simp only [EditSound, routing, generation]
    exact ⟨lead, next', addressed, fun i changed done => log i (reset i changed done)⟩

theorem NetworkSound.frame {s after : Receiver} {network : Network}
    (sound : NetworkSound s network)
    (published : after.history.published = s.history.published) : NetworkSound after network := by
  cases network with
  | idle | polling => trivial
  | received => exact sound
  | visiting => simpa only [NetworkSound, published] using sound

structure Invariant (parse : Parse) (s : Receiver) : Prop where
  current : s.history.published[s.routing.generation]? = some s.routing
  length : s.history.published.length = s.routing.generation + 1
  published : ∀ (generation : Nat) (route : Routing), s.history.published[generation]? = some route →
    route.generation = generation ∧ route.Addressed parse
  edit : EditSound parse s s.edit
  network : NetworkSound s s.network
  admitted : ∀ i d now (generation : Nat), .received d now generation ∈ s.history.log i →
    ∃ route : Routing, s.history.published[generation]? = some route ∧ route.Admits parse d i
  recent : ∀ i, Recent (s.history.since i) (s.history.log i)
  since : ∀ i, s.history.since i ≤ s.routing.generation
  replay : ∀ i, s.slots i = (s.history.log i).foldl Entry.apply (s.history.origin i)
  origin : ∀ i, ∃ slot : Slot, s.history.origin i = slot.reset

theorem invariant_initial (parse : Parse) : Invariant parse {} := by
  constructor
  · rfl
  · rfl
  · intro generation route found
    cases generation with
    | zero =>
      cases found
      exact ⟨rfl, fun i enabled => by cases enabled⟩
    | succ generation => cases found
  · rfl
  · trivial
  · intro i d now generation member
    cases member
  · exact fun _ => recent_nil _
  · exact fun _ => Nat.le_refl _
  · exact fun _ => rfl
  · exact fun _ => ⟨{}, rfl⟩

theorem generation_le {parse : Parse} {s : Receiver} (inv : Invariant parse s) :
    s.routing.generation ≤ s.generation := by
  have sound := inv.edit
  cases edit : s.edit with
  | idle => rw [edit] at sound; exact Nat.le_of_eq sound.symm
  | prepared next => rw [edit] at sound; exact Nat.le_of_eq sound.1.symm
  | committing next remaining => rw [edit] at sound; exact sound.1 ▸ Nat.le_succ _

/-- An entry on record keeps the invariant, if its packet was admitted by the
generation in force. -/
theorem invariant_touch {parse : Parse} {s : Receiver} (inv : Invariant parse s)
    (i : Fin slotCount) {entry : Entry}
    (sound : ∀ d now generation, entry = .received d now generation → generation = s.generation ∧
      ∃ route : Routing, s.history.published[generation]? = some route ∧ route.Admits parse d i) :
    Invariant parse (s.touch i entry) := by
  have logged (j : Fin slotCount) : (s.touch i entry).history.log j =
      if j = i then s.history.log i ++ [entry] else s.history.log j :=
    Function.update_apply _ _ _ _
  have grown (least : Nat) (bound : least ≤ s.generation) (j : Fin slotCount)
      (recent : Recent least (s.history.log j)) :
      Recent least ((s.touch i entry).history.log j) := by
    rw [logged]
    split
    · rename_i same
      subst same
      exact recent_append recent fun d now generation same =>
        (sound d now generation same).1 ▸ bound
    · exact recent
  constructor
  · exact inv.current
  · exact inv.length
  · exact inv.published
  · exact inv.edit.frame rfl rfl (grown s.generation (Nat.le_refl _))
  · exact inv.network.frame rfl
  · intro j d now generation member
    rw [logged] at member
    split at member
    · rename_i same
      subst same
      rcases List.mem_append.mp member with old | new
      · exact inv.admitted j d now generation old
      · exact (sound d now generation (List.mem_singleton.mp new).symm).2
    · exact inv.admitted j d now generation member
  · exact fun j => grown _ ((inv.since j).trans (generation_le inv)) j (inv.recent j)
  · exact inv.since
  · intro j
    rw [logged]
    change Function.update s.slots i (entry.apply (s.slots i)) j = _
    rw [Function.update_apply]
    split
    · rename_i same
      subst same
      rw [inv.replay j, List.foldl_append]
      rfl
    · exact inv.replay j
  · exact inv.origin

theorem invariant_reset {parse : Parse} {s : Receiver} (inv : Invariant parse s) {next : Routing}
    {i : Fin slotCount} {remaining : List (Fin slotCount)}
    (edit : s.edit = .committing next (i :: remaining)) :
    Invariant parse { s.resetSlot i with edit := .committing next remaining } := by
  have sound := inv.edit
  rw [edit] at sound
  obtain ⟨lead, next', addressed, reset⟩ := sound
  have logged (j : Fin slotCount) : (s.resetSlot i).history.log j =
      if j = i then [] else s.history.log j := Function.update_apply _ _ _ _
  have origin (j : Fin slotCount) : (s.resetSlot i).history.origin j =
      if j = i then (s.slots i).reset else s.history.origin j := Function.update_apply _ _ _ _
  constructor
  · exact inv.current
  · exact inv.length
  · exact inv.published
  · refine ⟨lead, next', addressed, fun j changed done => ?_⟩
    change Recent s.generation ((s.resetSlot i).history.log j)
    rw [logged]
    split
    · exact recent_nil _
    · rename_i other
      exact reset j changed (by simp [other, done])
  · exact inv.network.frame rfl
  · intro j d now generation member
    change _ ∈ (s.resetSlot i).history.log j at member
    rw [logged] at member
    split at member
    · cases member
    · exact inv.admitted j d now generation member
  · intro j
    change Recent (s.history.since j) ((s.resetSlot i).history.log j)
    rw [logged]
    split
    · exact recent_nil _
    · exact inv.recent j
  · exact inv.since
  · intro j
    change Function.update s.slots i (s.slots i).reset j =
      ((s.resetSlot i).history.log j).foldl Entry.apply ((s.resetSlot i).history.origin j)
    rw [logged, origin, Function.update_apply]
    split
    · rfl
    · exact inv.replay j
  · intro j
    change ∃ slot : Slot, (s.resetSlot i).history.origin j = slot.reset
    rw [origin]
    split
    · exact ⟨_, rfl⟩
    · exact inv.origin j

/-- Publishing the routing makes its generation the last one of every slot it
changed. -/
theorem invariant_publish {parse : Parse} {s : Receiver} (inv : Invariant parse s) {next : Routing}
    (edit : s.edit = .committing next []) :
    Invariant parse { s with
      routing := next
      edit := .idle
      history := { s.history with
        published := s.history.published ++ [next]
        since := fun i =>
          if s.routing.changes next.config i then next.generation else s.history.since i } } := by
  have sound := inv.edit
  rw [edit] at sound
  obtain ⟨lead, next', addressed, reset⟩ := sound
  have length := inv.length
  have last : (s.history.published ++ [next])[next.generation]? = some next := by
    have position : next.generation = s.history.published.length := by omega
    rw [position]
    simp
  have kept {generation : Nat} {route : Routing}
      (found : s.history.published[generation]? = some route) :
      (s.history.published ++ [next])[generation]? = some route := by
    rw [List.getElem?_append_left (List.getElem?_eq_some_iff.mp found).1]
    exact found
  constructor
  · exact last
  · simp only [List.length_append, List.length_singleton]
    omega
  · intro generation route found
    by_cases old : generation < s.history.published.length
    · rw [List.getElem?_append_left old] at found
      exact inv.published generation route found
    · rw [List.getElem?_append_right (Nat.le_of_not_lt old)] at found
      obtain ⟨inside, rfl⟩ := List.getElem?_eq_some_iff.mp found
      simp only [List.length_singleton, Nat.lt_one_iff] at inside
      simp only [List.getElem_singleton]
      exact ⟨by omega, addressed⟩
  · exact next'.symm
  · have network := inv.network
    change NetworkSound _ s.network
    cases status : s.network with
    | idle | polling => trivial
    | received => rw [status] at network; exact network
    | visiting => rw [status] at network; exact ⟨network.1, kept network.2⟩
  · intro i d now generation member
    obtain ⟨route, found, admits⟩ := inv.admitted i d now generation member
    exact ⟨route, kept found, admits⟩
  · intro i
    dsimp only
    split
    · rename_i changed
      exact next' ▸ reset i changed (List.not_mem_nil)
    · exact inv.recent i
  · intro i
    have before := inv.since i
    dsimp only
    split <;> omega
  · exact inv.replay
  · exact inv.origin

theorem invariant_edit {parse : Parse} {s : Receiver} (inv : Invariant parse s) {edit : Edit}
    (sound : EditSound parse s edit) : Invariant parse { s with edit := edit } := by
  refine ⟨inv.current, inv.length, inv.published, ?_, ?_, inv.admitted, inv.recent, inv.since,
    inv.replay, inv.origin⟩
  · exact EditSound.frame sound rfl rfl fun _ => id
  · exact inv.network.frame rfl

theorem invariant_network {parse : Parse} {s : Receiver} (inv : Invariant parse s)
    {network : Network} (sound : NetworkSound s network) :
    Invariant parse { s with network := network } := by
  refine ⟨inv.current, inv.length, inv.published, ?_, ?_, inv.admitted, inv.recent, inv.since,
    inv.replay, inv.origin⟩
  · exact inv.edit.frame rfl rfl fun _ => id
  · exact NetworkSound.frame sound rfl

theorem invariant_audio {parse : Parse} {s : Receiver} (inv : Invariant parse s) (audio : Audio) :
    Invariant parse { s with audio := audio } := by
  refine ⟨inv.current, inv.length, inv.published, ?_, ?_, inv.admitted, inv.recent, inv.since,
    inv.replay, inv.origin⟩
  · exact inv.edit.frame rfl rfl fun _ => id
  · exact inv.network.frame rfl

theorem invariant_bump {parse : Parse} {s : Receiver} (inv : Invariant parse s) {next : Routing}
    (edit : s.edit = .prepared next) :
    Invariant parse { s with
      generation := s.generation + 1
      edit := .committing { next with generation := s.generation + 1 }
        (List.finRange slotCount) } := by
  have sound := inv.edit
  rw [edit] at sound
  refine ⟨inv.current, inv.length, inv.published, ?_, ?_, inv.admitted, inv.recent, inv.since,
    inv.replay, inv.origin⟩
  · refine ⟨congrArg (· + 1) sound.1, rfl, sound.2, fun i _ done => ?_⟩
    exact absurd (List.mem_finRange i) done
  · exact inv.network.frame rfl

/-- What one step can do, whatever thread takes it. -/
inductive Effect (parse : Parse) (s : Receiver) : Label → Receiver → Prop where
  | prepared (edit : s.edit = .idle) (valid : validate parse config = none) :
      Effect parse s (.prepare config) { s with
        sockets := s.sockets + 1
        edit := .prepared (s.routing.prepare parse config s.sockets) }
  | bumped (edit : s.edit = .prepared next) :
      Effect parse s .bump { s with
        generation := s.generation + 1
        edit := .committing { next with generation := s.generation + 1 }
          (List.finRange slotCount) }
  | reset (edit : s.edit = .committing next (i :: remaining)) :
      Effect parse s .reset { s.resetSlot i with edit := .committing next remaining }
  | skipped (edit : s.edit = .committing next (i :: remaining))
      (same : ¬ s.routing.changes next.config i = true) :
      Effect parse s .reset { s with edit := .committing next remaining }
  | published (edit : s.edit = .committing next []) :
      Effect parse s .publish { s with
        routing := next
        edit := .idle
        history := { s.history with
          published := s.history.published ++ [next]
          since := fun i =>
            if s.routing.changes next.config i then next.generation else s.history.since i } }
  | listened (network : Network)
      (sound : s.history.published[s.routing.generation]? = some s.routing →
        NetworkSound s s.network → NetworkSound s network) :
      Effect parse s label { s with network := network }
  | visited (network : s.network = .visiting route d (i :: remaining))
      (hears : route.hears d i = true) (current : route.generation = s.generation) :
      Effect parse s (.visit now) { s.touch i (.received d now s.generation) with
        network := .visiting route d remaining }
  | played (audio : Audio) : Effect parse s label { s with audio := audio }
  | serviced (i : Fin slotCount) (now : UInt64) (audio : Audio) :
      Effect parse s .service { s.touch i (.serviced now) with audio := audio }

theorem configureStep_effect {parse : Parse} {s next : Receiver} {label : Label}
    (taken : s.configureStep parse label s.edit = some next) : Effect parse s label next := by
  unfold configureStep at taken
  split at taken
  · rename_i config edit
    split at taken
    · rename_i valid
      cases taken
      exact .prepared edit valid
    · cases taken
  · rename_i edit
    cases taken
    exact .bumped edit
  · rename_i committed i remaining edit
    cases taken
    split
    · exact .reset edit
    · rename_i same
      exact .skipped edit same
  · rename_i edit
    cases taken
    exact .published edit
  · cases taken

theorem networkStep_effect {parse : Parse} {s next : Receiver} {label : Label}
    (taken : s.networkStep label s.network = some next) : Effect parse s label next := by
  unfold networkStep at taken
  split at taken
  · split at taken
    · cases taken
    · cases taken
      exact .listened _ fun _ _ => trivial
  · cases taken
    exact .listened _ fun _ _ => trivial
  · obtain ⟨socket, bound, rfl⟩ := Option.map_eq_some_iff.mp taken
    exact .listened _ fun _ _ => bound
  · rename_i route d status
    split at taken
    · cases taken
    · split at taken
      · cases taken
        exact .listened _ fun _ _ => trivial
      · rename_i same
        split at taken
        · cases taken
          refine .listened _ fun current sound => ⟨?_, current⟩
          rw [status] at sound
          exact (not_not.mp same) ▸ sound
        · cases taken
          exact .listened _ fun _ _ => trivial
  · rename_i now route d i remaining status
    split at taken
    · rename_i hears
      split at taken
      · cases taken
        exact .listened _ fun _ _ => trivial
      · rename_i current
        cases taken
        exact .visited status hears (not_not.mp current)
    · cases taken
      refine .listened _ fun _ sound => ?_
      rw [status] at sound
      exact sound
  · cases taken
    exact .listened _ fun _ _ => trivial
  · cases taken

theorem audioStep_effect {parse : Parse} {s next : Receiver} {label : Label}
    (taken : s.audioStep label s.audio = some next) : Effect parse s label next := by
  unfold audioStep at taken
  split at taken
  · cases taken
    exact .played _
  · cases taken
    exact .serviced _ _ _
  · cases taken
    exact .played _
  · split at taken
    · cases taken
      exact .played _
    · cases taken
      exact .played _
  · cases taken
    exact .played _
  · cases taken

theorem step_effect {parse : Parse} {s next : Receiver} {label : Label}
    (taken : s.step parse label = some next) : Effect parse s label next := by
  cases label with
  | prepare | bump | reset | publish => exact configureStep_effect taken
  | snapshot | arrive | retry | reroute | visit => exact networkStep_effect taken
  | wake | service | check | output => exact audioStep_effect taken

/-- The routing of a visit at the generation in force is the routing in force. -/
theorem visiting_in_force {parse : Parse} {s : Receiver} (inv : Invariant parse s)
    {route : Routing} {d : Datagram} {remaining : List (Fin slotCount)}
    (status : s.network = .visiting route d remaining)
    (current : route.generation = s.generation) :
    s.routing = route ∧ route.socket = some d.socket := by
  have sound := inv.network
  rw [status] at sound
  obtain ⟨socket, routed⟩ := sound
  have inside := (List.getElem?_eq_some_iff.mp routed).1
  have length := inv.length
  have lead := generation_le inv
  have equal : route.generation = s.routing.generation := by omega
  rw [equal, inv.current] at routed
  exact ⟨Option.some.inj routed, socket⟩

theorem visiting_admits {parse : Parse} {s : Receiver} (inv : Invariant parse s) {route : Routing}
    {d : Datagram} {i : Fin slotCount} {remaining : List (Fin slotCount)}
    (network : s.network = .visiting route d (i :: remaining)) (hears : route.hears d i = true)
    (current : route.generation = s.generation) :
    s.routing.generation = s.generation ∧ s.routing.Admits parse d i := by
  obtain ⟨rfl, socket⟩ := visiting_in_force inv network current
  exact ⟨current, admits_of_hears (inv.published _ _ inv.current).2 socket hears⟩

theorem invariant_step {parse : Parse} (s : Receiver) (label : Label) (next : Receiver)
    (inv : Invariant parse s) (taken : s.step parse label = some next) : Invariant parse next := by
  cases step_effect taken with
  | @prepared config edit valid =>
    have sound := inv.edit
    rw [edit] at sound
    have fresh : EditSound parse s (.prepared (s.routing.prepare parse config s.sockets)) :=
      ⟨sound, prepare_addressed valid _ _⟩
    have bound := invariant_edit inv fresh
    exact ⟨bound.current, bound.length, bound.published, bound.edit, bound.network, bound.admitted,
      bound.recent, bound.since, bound.replay, bound.origin⟩
  | bumped edit => exact invariant_bump inv edit
  | reset edit => exact invariant_reset inv edit
  | @skipped routing i remaining edit same =>
    have sound := inv.edit
    rw [edit] at sound
    obtain ⟨lead, next', addressed, reset⟩ := sound
    refine invariant_edit inv ⟨lead, next', addressed, fun j changed done => reset j changed ?_⟩
    have other : j ≠ i := by
      rintro rfl
      exact same changed
    simp [other, done]
  | published edit => exact invariant_publish inv edit
  | listened network sound => exact invariant_network inv (sound inv.current inv.network)
  | @visited route d i remaining now network hears current =>
    obtain ⟨generation, admits⟩ := visiting_admits inv network hears current
    have sound := inv.network
    rw [network] at sound
    have entered : Invariant parse (s.touch i (.received d now s.generation)) := by
      apply invariant_touch inv i
      rintro _ _ _ ⟨⟩
      exact ⟨rfl, s.routing, generation ▸ inv.current, admits⟩
    exact invariant_network entered ⟨sound.1, sound.2⟩
  | played audio => exact invariant_audio inv audio
  | serviced i now audio =>
    apply invariant_audio (invariant_touch inv i ?_)
    rintro _ _ _ ⟨⟩

theorem invariant_reachable {parse : Parse} {s : Receiver}
    (reached : Reachable (step parse) {} s) : Invariant parse s :=
  reached.invariant invariant_step (invariant_initial parse)

theorem since_step {parse : Parse} {s next : Receiver} (inv : Invariant parse s) {label : Label}
    (taken : s.step parse label = some next) (i : Fin slotCount) :
    s.history.since i ≤ next.history.since i := by
  cases step_effect taken with
  | prepared | bumped | reset | skipped | listened | visited | played | serviced =>
    exact Nat.le_refl _
  | @published routing edit =>
    have sound := inv.edit
    rw [edit] at sound
    have before := inv.since i
    have lead := sound.1
    have next' := sound.2.1
    dsimp only
    split <;> omega

theorem since_reachable {parse : Parse} {s later : Receiver} (inv : Invariant parse s)
    (reached : Reachable (step parse) s later) (i : Fin slotCount) :
    s.history.since i ≤ later.history.since i := by
  let Inv := fun state => Invariant parse state ∧ s.history.since i ≤ state.history.since i
  have preserved : ∀ state label next, Inv state → step parse state label = some next → Inv next := by
    intro state label next held taken
    exact ⟨invariant_step state label next held.1 taken, held.2.trans (since_step held.1 taken i)⟩
  have start : Inv s := ⟨inv, Nat.le_refl _⟩
  exact (reached.invariant preserved start).2

/-- A push takes place under the published routing of the generation in force,
and the datagram matches it. -/
theorem visit_admits {parse : Parse} {s next : Receiver} (inv : Invariant parse s)
    {now : UInt64} (taken : s.step parse (.visit now) = some next) {i : Fin slotCount}
    (touched : next.slots i ≠ s.slots i) :
    s.routing.generation = s.generation ∧ ∃ d remaining,
      s.network = .visiting s.routing d (i :: remaining) ∧ s.routing.Admits parse d i ∧
        next.slots i = (s.slots i).receive d.decoded now := by
  cases step_effect taken with
  | listened | played => exact absurd rfl touched
  | @visited route d j remaining _ network hears current =>
    have place : i = j := by
      by_contra other
      exact touched (Function.update_of_ne other _ _)
    subst place
    obtain ⟨generation, admits⟩ := visiting_admits inv network hears current
    obtain ⟨rfl, _⟩ := visiting_in_force inv network current
    exact ⟨generation, d, remaining, network, admits, Function.update_self _ _ _⟩

end Receiver

/-- Every push is of the datagram that `receive_loop` holds, which matches the configuration
of the generation in force; and once a
change of a slot is published, the slot is a reset slot to which only packets of
that generation or a later one were given, each admitted by its own generation. -/
theorem reconfiguration_isolates {parse : Parse} {s : Receiver}
    (reached : Reachable (Receiver.step parse) {} s) (i : Fin slotCount) :
    (∀ now next, s.step parse (.visit now) = some next → next.slots i ≠ s.slots i →
      s.routing.generation = s.generation ∧ ∃ d remaining,
        s.network = .visiting s.routing d (i :: remaining) ∧ s.routing.Admits parse d i ∧
          next.slots i = (s.slots i).receive d.decoded now) ∧
    ∀ next returned later, s.edit = .committing next [] →
      s.routing.changes next.config i = true → s.step parse .publish = some returned →
      Reachable (Receiver.step parse) returned later →
      (∃ slot : Slot, later.slots i = (later.history.log i).foldl Entry.apply slot.reset) ∧
      ∀ d now generation, .received d now generation ∈ later.history.log i →
        next.generation ≤ generation ∧ ∃ route : Routing,
          later.history.published[generation]? = some route ∧ route.Admits parse d i := by
  have inv := Receiver.invariant_reachable reached
  refine ⟨fun now next taken touched => Receiver.visit_admits inv taken touched, ?_⟩
  intro next returned later edit changed taken after
  have inv' := Receiver.invariant_step s .publish returned inv taken
  have final : Receiver.Invariant parse later := after.invariant Receiver.invariant_step inv'
  have since : returned.history.since i = next.generation := by
    simp only [Receiver.step, Receiver.configureStep, edit, Option.some.injEq] at taken
    rw [← taken]
    exact if_pos changed
  have kept := Receiver.since_reachable inv' after i
  obtain ⟨slot, origin⟩ := final.origin i
  refine ⟨⟨slot, origin ▸ final.replay i⟩, fun d now generation member => ⟨?_, ?_⟩⟩
  · have recent := final.recent i d now generation member
    omega
  · exact final.admitted i d now generation member

/-- Two senders, known to the address parser. -/
def twoSenders : Parse := fun text =>
  if text = "10.0.0.1" then some 1 else if text = "10.0.0.2" then some 2 else none

/-- The first slot listens to one sender's stream "A". -/
def listening (sender : String) : Config :=
  { commonIp := false
    slots := fun i =>
      if i = 0 then { enabled := true, senderIp := sender, streamName := [0x41] } else {} }

/-- 30 ms of 8-bit mono at 6 kHz for stream "A". -/
def burst : List UInt8 :=
  signature ++ [0, 179, 0, 0, 0x41] ++ List.replicate 19 0 ++ List.replicate 180 0xff

def applied (config : Config) : List Receiver.Label :=
  [.prepare config, .bump] ++ List.replicate 8 .reset ++ [.publish]

def received : List Receiver.Label :=
  [.snapshot, .arrive burst 1, .reroute, .visit 1000]

/-- A packet made before the slot's last change is in the block about to be
handed to the consumers. -/
def playsStale (s : Receiver) : Bool :=
  match s.audio with
  | .playing _ _ i _ sources _ => sources.any fun
    | .received _ _ generation => generation < s.history.since i
    | .serviced _ => false
  | _ => false

theorem reconfiguration_isolates_edited :
    ∃ s next, Reachable (Receiver.step twoSenders) {} s ∧ next.slots 0 ≠ s.slots 0 ∧
      s.step twoSenders (.visit 1000) = some next ∧ s.routing.generation = s.generation := by
  have visited : (run (Receiver.step twoSenders) {}
      (applied (listening "10.0.0.1") ++ [.snapshot, .arrive burst 1, .reroute])).any (fun s =>
        (s.step twoSenders (.visit 1000)).any fun next =>
          (next.slots 0).wasReceiving != (s.slots 0).wasReceiving) = true := by decide +kernel
  obtain ⟨s, ran, moved⟩ := (Option.any_eq_true _ _).mp visited
  obtain ⟨next, taken, changed⟩ := (Option.any_eq_true _ _).mp moved
  have touched : next.slots 0 ≠ s.slots 0 := by
    intro same
    simp [same] at changed
  exact ⟨s, next, ⟨_, ran⟩, touched, taken,
    ((reconfiguration_isolates ⟨_, ran⟩ 0).1 1000 next taken touched).1⟩

/-- The block that `audio_loop` holds when a change of its slot returns is still
handed out: its generation was checked before. -/
theorem stale_block_played :
    ∃ s, Reachable (Receiver.step twoSenders) {} s ∧ playsStale s = true ∧
      (s.step twoSenders .output).isSome = true := by
  have played : (run (Receiver.step twoSenders) {}
      (applied (listening "10.0.0.1") ++ received ++ [.wake 30001000, .service, .check] ++
        applied (listening "10.0.0.2"))).any (fun s => playsStale s &&
          (s.step twoSenders .output).isSome) = true := by decide +kernel
  obtain ⟨s, ran, stale⟩ := (Option.any_eq_true _ _).mp played
  rw [Bool.and_eq_true] at stale
  exact ⟨s, ⟨_, ran⟩, stale⟩

end VbanStream
