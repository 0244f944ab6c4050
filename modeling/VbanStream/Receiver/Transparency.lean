import VbanStream.Receiver.SlotView

namespace VbanStream

open Library

namespace Receiver

def EditAlike (i : Fin slotCount) (route : Routing) : Edit → Prop
  | .idle => True
  | .prepared next | .committing next _ =>
    route.changes next.config i = false ∧ Alike i route next

/-- A run with reconfiguration and one without it, before the same slot events. -/
structure Coupled (i : Fin slotCount) (s t : Receiver) : Prop where
  slot : t.slots i = s.slots i
  unlocked : t.edit = .idle
  alike : Alike i t.routing s.routing
  edit : EditAlike i s.routing s.edit
  incoming : t.incoming i = s.incoming i
  turn : t.turn i = s.turn i

namespace Coupled

variable {parse : Parse} {i : Fin slotCount} {s t : Receiver}

theorem unmoved (coupled : Coupled i s t) {next : Receiver}
    (slot : next.slots i = s.slots i) (routing : next.routing = s.routing)
    (edit : next.edit = s.edit) (incoming : next.incoming i = s.incoming i)
    (turn : next.turn i = s.turn i) : Coupled i next t := by
  refine ⟨coupled.slot.trans slot.symm, coupled.unlocked, ?_, ?_,
    coupled.incoming.trans incoming.symm, coupled.turn.trans turn.symm⟩
  · rw [routing]
    exact coupled.alike
  · rw [routing, edit]
    exact coupled.edit

/-- The other run makes the same move of `receive_loop` after catching up. -/
theorem listened (coupled : Coupled i s t) {later : Receiver} (keeps : Keeps i t later)
    (audio : later.audio = t.audio) (next : Receiver) (network : Network)
    (slots : Fin slotCount → Slot) (history : History) (slot : slots i = next.slots i)
    (routing : next.routing = s.routing) (edit : next.edit = s.edit)
    (turn : next.turn i = s.turn i)
    (incoming : Receiver.incoming { later with network, slots, history } i = next.incoming i) :
    Coupled i next { later with network, slots, history } := by
  refine ⟨slot, keeps.edit.trans coupled.unlocked, ?_, ?_, incoming, ?_⟩
  · rw [routing]
    exact keeps.routing ▸ coupled.alike
  · rw [routing, edit]
    exact coupled.edit
  · rw [turn, ← coupled.turn]
    simp only [Receiver.turn, audio, keeps.generation]

/-- The other run makes the same move of `audio_loop` after catching up. -/
theorem played (coupled : Coupled i s t) {later : Receiver} (keeps : Keeps i t later)
    (network : later.network = t.network) (next : Receiver) (audio : Audio)
    (slots : Fin slotCount → Slot) (history : History) (slot : slots i = next.slots i)
    (routing : next.routing = s.routing) (edit : next.edit = s.edit)
    (incoming : next.incoming i = s.incoming i)
    (turn : Receiver.turn { later with audio, slots, history } i = next.turn i) :
    Coupled i next { later with audio, slots, history } := by
  refine ⟨slot, keeps.edit.trans coupled.unlocked, ?_, ?_, ?_, turn⟩
  · rw [routing]
    exact keeps.routing ▸ coupled.alike
  · rw [routing, edit]
    exact coupled.edit
  · rw [incoming, ← coupled.incoming]
    unfold Receiver.incoming Receiver.accepts
    dsimp only
    rw [network, keeps.generation, keeps.routing]

end Coupled

/-- The run without reconfiguration sees the same events and stays coupled. -/
def Answered (parse : Parse) (i : Fin slotCount) (t : Receiver) (events : List SlotEvent)
    (next : Receiver) : Prop :=
  ∃ later, Calm parse i t events later ∧ Coupled i next later

theorem visiting_generation_le {parse : Parse} {s : Receiver} (inv : Invariant parse s)
    {route : Routing} {d : Datagram} {remaining : List (Fin slotCount)}
    (status : s.network = .visiting route d remaining) : route.generation ≤ s.generation := by
  have network := inv.network
  rw [status] at network
  have inside := (List.getElem?_eq_some_iff.mp network.2).1
  have length := inv.length
  have lead := generation_le inv
  omega

/-- A new generation takes the slot's datagram once it is routed. -/
theorem incoming_raised {parse : Parse} {s : Receiver} (inv : Invariant parse s)
    (i : Fin slotCount) (edit : Edit) :
    Receiver.incoming { s with generation := s.generation + 1, edit } i =
      (s.incoming i).raised := by
  cases status : s.network with
  | idle | polling => simp [incoming, status, Incoming.raised]
  | received route d =>
    simp only [incoming, status]
    cases accepted : s.accepts i d with
    | true => exact if_pos accepted
    | false => exact if_neg (ne_true_of_eq_false accepted)
  | visiting route d remaining =>
    have bound := visiting_generation_le inv status
    have stale : route.generation ≠ s.generation + 1 := by omega
    simp only [incoming, status]
    rw [if_neg fun later => stale later.2.2]
    by_cases live : i ∈ remaining ∧ route.hears d i = true ∧ route.generation = s.generation
    · simp only [if_pos live, Incoming.raised]
    · simp only [if_neg live, Incoming.raised]

theorem incoming_bump {parse : Parse} {s : Receiver} (inv : Invariant parse s) {i : Fin slotCount}
    (unexposed : s.exposed i = false) (edit : Edit) :
    Receiver.incoming { s with generation := s.generation + 1, edit } i = s.incoming i := by
  rw [incoming_raised inv]
  simp only [exposed, Bool.or_eq_false_iff] at unexposed
  cases status : s.incoming i with
  | away | taken => rfl
  | routed => simp [status] at unexposed

theorem incoming_publish {s : Receiver} {i : Fin slotCount} {route : Routing}
    (alike : Alike i s.routing route) (history : History) :
    Receiver.incoming { s with routing := route, edit := .idle, history } i = s.incoming i := by
  have same : Receiver.accepts { s with routing := route, edit := .idle, history } i =
      s.accepts i := funext fun d => (Alike.accepts (t := s) alike d).symm
  simp only [incoming, same]

theorem turn_raised {s : Receiver} (tidy : Tidy s) (i : Fin slotCount) (edit : Edit) :
    Receiver.turn { s with generation := s.generation + 1, edit } i = (s.turn i).raised := by
  have audio := tidy.audio
  have stale {generation : Nat} (bound : generation ≤ s.generation) :
      (generation == s.generation + 1) = false := by
    rw [beq_eq_false_iff_ne]
    omega
  cases status : s.audio with
  | idle => simp [turn, status, Turn.raised]
  | running now generation remaining =>
    rw [status] at audio
    simp only [turn, status, stale audio.1]
    split <;> rfl
  | holding now generation j block sources remaining =>
    rw [status] at audio
    simp only [turn, status, stale audio.1]
    split
    · rfl
    · split <;> rfl
  | playing now generation j block sources remaining =>
    rw [status] at audio
    simp only [turn, status, stale audio.1]
    split
    · rfl
    · split <;> rfl

theorem turn_bump {s : Receiver} (tidy : Tidy s) {i : Fin slotCount}
    (unexposed : s.exposed i = false) (edit : Edit) :
    Receiver.turn { s with generation := s.generation + 1, edit } i = s.turn i := by
  rw [turn_raised tidy]
  simp only [exposed, Bool.or_eq_false_iff] at unexposed
  replace unexposed := unexposed.2
  cases status : s.turn i with
  | away | playing => rfl
  | ahead now current =>
    have outdated : current = false := by simpa [status] using unexposed
    rw [outdated, Turn.raised]
  | holding block current =>
    have outdated : current = false := by simpa [status] using unexposed
    rw [outdated, Turn.raised]

theorem answered_configure {parse : Parse} {i : Fin slotCount} {s t next : Receiver} {label : Label}
    (sound : Sound parse s) (coupled : Coupled i s t) (allowed : undisturbed i s label = true)
    (taken : s.configureStep parse label s.edit = some next) :
    Coupled i next t := by
  unfold configureStep at taken
  split at taken
  · rename_i config _
    split at taken
    · cases taken
      have same : s.routing.changes config i = false := by simpa [undisturbed] using allowed
      have addressed := (sound.main.published _ _ sound.main.current).2
      exact ⟨coupled.slot, coupled.unlocked, coupled.alike,
        ⟨same, prepare_alike sound.tidy.bound addressed same _⟩, coupled.incoming, coupled.turn⟩
    · cases taken
  · rename_i routed status
    cases taken
    have edit := coupled.edit
    rw [status] at edit
    have unexposed : s.exposed i = false := by simpa [undisturbed] using allowed
    exact ⟨coupled.slot, coupled.unlocked, coupled.alike,
      ⟨edit.1, edit.2.enabled, edit.2.name, edit.2.address, edit.2.socket⟩,
      coupled.incoming.trans (incoming_bump sound.main unexposed _).symm,
      coupled.turn.trans (turn_bump sound.tidy unexposed _).symm⟩
  · rename_i routed j remaining status
    have edit := coupled.edit
    rw [status] at edit
    cases taken
    split
    · rename_i changed
      have other : j ≠ i := by
        rintro rfl
        simp [edit.1] at changed
      refine ⟨?_, coupled.unlocked, coupled.alike, edit, coupled.incoming, coupled.turn⟩
      exact coupled.slot.trans (Function.update_of_ne other.symm _ _).symm
    · exact ⟨coupled.slot, coupled.unlocked, coupled.alike, edit, coupled.incoming, coupled.turn⟩
  · rename_i routed status
    have edit := coupled.edit
    rw [status] at edit
    cases taken
    refine ⟨coupled.slot, coupled.unlocked, coupled.alike.trans edit.2, trivial, ?_, coupled.turn⟩
    exact coupled.incoming.trans (incoming_publish edit.2 _).symm
  · cases taken

theorem Answered.still {parse : Parse} {i : Fin slotCount} {t next : Receiver}
    {events : List SlotEvent} (coupled : Coupled i next t) (silent : events = []) :
    Answered parse i t events next :=
  ⟨t, silent ▸ .refl t, coupled⟩

section

variable {parse : Parse} {i : Fin slotCount} {s t : Receiver}

theorem arrive_observed {route : Routing} (status : s.network = .polling route) {socket : Nat}
    (bound : route.socket = some socket) (bytes : List UInt8) (sender : UInt32) :
    observe i s (.arrive bytes sender) =
      if s.accepts i ⟨bytes, sender, socket⟩ then [.read ⟨bytes, sender, socket⟩] else [] := by
  simp only [observe, status, bound, Option.toList_some, List.map_singleton, List.filter_cons,
    List.filter_nil]
  split <;> rfl

theorem answered_arrive (sound : Sound parse t) (coupled : Coupled i s t) {route : Routing}
    (status : s.network = .polling route) {socket : Nat} (bound : route.socket = some socket)
    (bytes : List UInt8) (sender : UInt32) :
    Answered parse i t (observe i s (.arrive bytes sender))
      { s with network := .received route ⟨bytes, sender, socket⟩ } := by
  rw [arrive_observed status bound]
  have away : s.incoming i = .away := by simp [incoming, status]
  let d : Datagram := ⟨bytes, sender, socket⟩
  let next : Receiver := { s with network := .received route d }
  have incoming' : next.incoming i = if s.accepts i d then .taken d else .away := rfl
  by_cases accepted : s.accepts i d = true
  · rw [if_pos accepted] at incoming' ⊢
    obtain ⟨later, emits, keeps, audio, idle⟩ :=
      network_settles parse sound coupled.unlocked (coupled.incoming.trans away)
    let polling : Receiver := { later with network := .polling later.routing }
    let received : Receiver := { later with network := .received later.routing d }
    have alike : Alike i later.routing s.routing := keeps.routing ▸ coupled.alike
    have accepted' : later.accepts i d = true := (alike.accepts d).trans accepted
    have socket' : later.routing.socket = some socket := by
      simp only [accepts, Bool.and_eq_true, beq_iff_eq] at accepted'
      exact accepted'.2
    have free : later.locked = false := by simp [locked, keeps.edit, coupled.unlocked]
    have polled : later.step parse .snapshot = some polling := by
      simp [step, networkStep, idle, free, polling]
    have arrived : polling.step parse (.arrive bytes sender) = some received := by
      simp [step, networkStep, polling, received, socket', d]
    have polls : polling.network = .polling later.routing := rfl
    have seen : observe i polling (.arrive bytes sender) = [.read d] := by
      rw [arrive_observed polls socket']
      exact if_pos accepted'
    refine ⟨received, emits.trans ((Emits.shown rfl polled rfl).trans
      (Emits.shown rfl arrived seen)), ?_⟩
    refine coupled.listened keeps audio next _ _ _ (keeps.slot.trans coupled.slot) rfl rfl rfl ?_
    rw [incoming']
    exact if_pos accepted'
  · rw [if_neg accepted] at incoming' ⊢
    exact .still (coupled.unmoved rfl rfl rfl (incoming'.trans away.symm) rfl) rfl

/-- What is left of a visit to every slot under the routing in force. -/
theorem incoming_rerouted (sound : Sound parse s) (unlocked : s.locked = false) (d : Datagram)
    (i : Fin slotCount) :
    Receiver.incoming { s with
      network := .visiting s.routing d (List.finRange slotCount) } i =
        if s.routing.hears d i = true then .routed d else .away := by
  have current : s.routing.generation = s.generation := by
    have edit := sound.main.edit
    cases status : s.edit with
    | idle => rw [status] at edit; exact edit.symm
    | prepared => rw [status] at edit; exact edit.1.symm
    | committing => simp [locked, status] at unlocked
  simp [incoming, current]

/-- `receive_loop` drops a datagram that the slot does not match. -/
theorem refused_coupled (sound : Sound parse s) (coupled : Coupled i s t) {route : Routing}
    {d : Datagram} (status : s.network = .received route d) (unlocked : s.locked = false)
    (refused : ¬ s.accepts i d = true) {next : Receiver}
    (taken : s.step parse .reroute = some next) : Coupled i next t := by
  have away : s.incoming i = .away := by simp [incoming, status, refused]
  have network := sound.main.network
  rw [status] at network
  simp only [step, networkStep, status, unlocked, Bool.false_eq_true, if_false] at taken
  split at taken
  · cases taken
    exact coupled.unmoved rfl rfl rfl away.symm rfl
  · rename_i same
    split at taken
    · rename_i audible
      cases taken
      rw [Bool.and_eq_true] at audible
      have socket : s.routing.socket = some d.socket := (not_not.mp same) ▸ network
      have deaf : ¬ s.routing.hears d i = true := by
        intro hears
        simp [accepts, hears, audible.2, socket] at refused
      refine coupled.unmoved rfl rfl rfl ?_ rfl
      rw [incoming_rerouted sound unlocked, if_neg deaf, away]
    · cases taken
      exact coupled.unmoved rfl rfl rfl away.symm rfl

theorem hears_of_accepts {d : Datagram} (accepted : s.accepts i d = true) :
    s.routing.hears d i = true := by
  simp only [accepts, Bool.and_eq_true] at accepted
  exact accepted.1.1

theorem received_of_taken {d : Datagram} (taken : t.incoming i = .taken d) :
    ∃ route, t.network = .received route d ∧ t.accepts i d = true := by
  unfold incoming at taken
  split at taken
  · cases taken
  · cases taken
  · rename_i status
    split at taken
    · rename_i accepted
      cases taken
      exact ⟨_, status, accepted⟩
    · cases taken
  · split at taken <;> cases taken

theorem answered_reroute (sound : Sound parse s) (sound' : Sound parse t)
    (coupled : Coupled i s t) {route : Routing} {d : Datagram}
    (status : s.network = .received route d) (unlocked : s.locked = false) {next : Receiver}
    (taken : s.step parse .reroute = some next) : Answered parse i t [] next := by
  by_cases accepted : s.accepts i d = true
  · rw [reroute_visits sound status unlocked accepted] at taken
    cases taken
    have incoming' : s.incoming i = .taken d := by simp [incoming, status, accepted]
    obtain ⟨route', status', accepted'⟩ := received_of_taken (coupled.incoming.trans incoming')
    have free : t.locked = false := by simp [locked, coupled.unlocked]
    have taken' := reroute_visits sound' status' free accepted'
    refine ⟨_, Emits.shown rfl taken' rfl, ?_⟩
    refine coupled.listened (.refl i t) rfl _ _ _ _ coupled.slot rfl rfl rfl ?_
    rw [incoming_rerouted sound unlocked, incoming_rerouted sound' free, coupled.alike.hears]
  · exact .still (refused_coupled sound coupled status unlocked accepted taken) rfl

theorem visiting_of_routed {d : Datagram} (routed : t.incoming i = .routed d) :
    ∃ route remaining, t.network = .visiting route d remaining ∧ i ∈ remaining ∧
      route.hears d i = true ∧ route.generation = t.generation := by
  unfold incoming at routed
  split at routed
  · cases routed
  · cases routed
  · split at routed <;> cases routed
  · rename_i status
    split at routed
    · rename_i live
      cases routed
      exact ⟨_, _, status, live⟩
    · cases routed

theorem visit_taken {route : Routing} {d : Datagram} {remaining : List (Fin slotCount)}
    (status : s.network = .visiting route d (i :: remaining)) (hears : route.hears d i = true)
    (current : route.generation = s.generation) (now : UInt64) :
    s.step parse (.visit now) = some { s.touch i (.received d now s.generation) with
      network := .visiting route d remaining } := by
  simp [step, networkStep, status, hears, current]

/-- Both loops hand the datagram over. -/
theorem answered_handed (sound : Sound parse s) (sound' : Sound parse t) (coupled : Coupled i s t)
    {route : Routing} {d : Datagram} {remaining : List (Fin slotCount)}
    (status : s.network = .visiting route d (i :: remaining)) (hears : route.hears d i = true)
    (current : route.generation = s.generation) (now : UInt64) :
    Answered parse i t [.handed d now] { s.touch i (.received d now s.generation) with
      network := .visiting route d remaining } := by
  have routed : s.incoming i = .routed d := by simp [incoming, status, hears, current]
  obtain ⟨route', remaining', status', member, hears', current'⟩ :=
    visiting_of_routed (coupled.incoming.trans routed)
  obtain ⟨later, rest, emits, keeps, audio, reached⟩ :=
    visits_reach parse status' member current'
  have live : route'.generation = later.generation := current'.trans keeps.generation.symm
  have handed : later.step parse (.visit now) = _ := visit_taken reached hears' live now
  have seen : observe i later (.visit now) = [.handed d now] := by
    simp [observe, reached, hears', live]
  refine ⟨_, emits.trans (Emits.shown rfl handed seen), ?_⟩
  have once := sound.tidy.network
  have once' := (run_sound emits sound').tidy.network
  rw [status] at once
  rw [reached] at once'
  refine coupled.listened keeps audio _ _ _ _ ?_ rfl rfl rfl ?_
  · change Function.update later.slots i _ i = Function.update s.slots i _ i
    rw [Function.update_self, Function.update_self, keeps.slot, coupled.slot]
    rfl
  · simp [incoming, (List.nodup_cons.mp once).1, (List.nodup_cons.mp once').1]

/-- `receive_loop` passes a slot that does not get the datagram. -/
theorem passed_coupled (sound : Sound parse s) (coupled : Coupled i s t) {route : Routing}
    {d : Datagram} {j : Fin slotCount} {remaining : List (Fin slotCount)}
    (status : s.network = .visiting route d (j :: remaining))
    (dead : ¬ (j = i ∧ route.hears d i = true ∧ route.generation = s.generation))
    {now : UInt64} {next : Receiver} (taken : s.step parse (.visit now) = some next) :
    Coupled i next t := by
  have once := sound.tidy.network
  rw [status] at once
  have passed : s.incoming i =
      if i ∈ remaining ∧ route.hears d i = true ∧ route.generation = s.generation then .routed d
      else .away := by
    by_cases here : j = i
    · subst here
      have gone := (List.nodup_cons.mp once).1
      simp only [true_and] at dead
      simp [incoming, status, dead, gone]
    · simp [incoming, status, List.mem_cons, Ne.symm here]
  simp only [step, networkStep, status] at taken
  split at taken
  · split at taken
    · rename_i stale
      cases taken
      refine coupled.unmoved rfl rfl rfl ?_ rfl
      rw [passed, if_neg fun live => stale live.2.2]
      rfl
    · rename_i hears current
      cases taken
      have other : j ≠ i := by
        rintro rfl
        exact dead ⟨rfl, hears, not_not.mp current⟩
      exact coupled.unmoved (keeps_touch other s _).slot rfl rfl passed.symm rfl
  · cases taken
    exact coupled.unmoved rfl rfl rfl passed.symm rfl

theorem answered_visit (sound : Sound parse s) (sound' : Sound parse t) (coupled : Coupled i s t)
    {route : Routing} {d : Datagram} {j : Fin slotCount} {remaining : List (Fin slotCount)}
    (status : s.network = .visiting route d (j :: remaining)) (now : UInt64) {next : Receiver}
    (taken : s.step parse (.visit now) = some next) :
    Answered parse i t (observe i s (.visit now)) next := by
  by_cases live : j = i ∧ route.hears d i = true ∧ route.generation = s.generation
  · obtain ⟨rfl, hears, current⟩ := live
    have seen : observe j s (.visit now) = [.handed d now] := by
      simp [observe, status, hears, current]
    rw [visit_taken status hears current] at taken
    cases taken
    rw [seen]
    exact answered_handed sound sound' coupled status hears current now
  · have unseen : observe i s (.visit now) = [] := by simp [observe, status, live]
    exact .still (passed_coupled sound coupled status live taken) unseen

theorem answered_network (sound : Sound parse s) (sound' : Sound parse t) (coupled : Coupled i s t)
    {label : Label} {next : Receiver} (network : s.step parse label = s.networkStep label s.network)
    (taken : s.step parse label = some next) :
    Answered parse i t (observe i s label) next := by
  have taken' := network ▸ taken
  unfold networkStep at taken'
  split at taken'
  · rename_i status
    split at taken'
    · cases taken'
    · cases taken'
      refine .still (coupled.unmoved rfl rfl rfl ?_ rfl) rfl
      simp [incoming, status]
  · rename_i status
    cases taken'
    refine .still (coupled.unmoved rfl rfl rfl ?_ rfl) rfl
    simp [incoming, status]
  · rename_i bytes sender route status
    obtain ⟨socket, bound, rfl⟩ := Option.map_eq_some_iff.mp taken'
    exact answered_arrive sound' coupled status bound bytes sender
  · rename_i status
    split at taken'
    · cases taken'
    · rename_i unlocked
      exact answered_reroute sound sound' coupled status (Bool.eq_false_of_not_eq_true unlocked) taken
  · rename_i now _ _ _ _ status
    exact answered_visit sound sound' coupled status now taken
  · rename_i status
    cases taken'
    refine .still (coupled.unmoved rfl rfl rfl ?_ rfl) ?_
    · simp [incoming, status]
    · simp [observe, status]
  · cases taken'

theorem answered_wake (coupled : Coupled i s t) (status : s.audio = .idle) (now : UInt64) :
    Answered parse i t [] { s with
      audio := .running now s.generation (List.finRange slotCount) } := by
  obtain ⟨later, emits, keeps, network, idle⟩ :=
    audio_settles parse (coupled.turn.trans (turn_of_idle status i))
  have woken : later.step parse (.wake now) = some { later with
      audio := .running now later.generation (List.finRange slotCount) } := by
    simp [step, audioStep, idle]
  refine ⟨_, emits.trans (Emits.shown rfl woken rfl), ?_⟩
  refine coupled.played keeps network _ _ _ _ (keeps.slot.trans coupled.slot) rfl rfl rfl ?_
  simp [turn]

theorem answered_pulled (sound : Sound parse s) (sound' : Sound parse t) (coupled : Coupled i s t)
    {now : UInt64} {generation : Nat} {remaining : List (Fin slotCount)}
    (status : s.audio = .running now generation (i :: remaining)) {next : Receiver}
    (taken : s.step parse .service = some next) :
    Answered parse i t (((s.slots i).service now).2.toList.map .pulled) next := by
  have ahead : s.turn i = .ahead now (generation == s.generation) := by simp [turn, status]
  obtain ⟨later, generation', rest, emits, keeps, network, reached, current⟩ :=
    audio_reaches parse (coupled.turn.trans ahead)
  have once := sound.tidy.audio
  have once' := (run_sound emits sound').tidy.audio
  rw [status] at once
  rw [reached] at once'
  have gone := (List.nodup_cons.mp once.2).1
  have gone' := (List.nodup_cons.mp once'.2).1
  have slot : later.slots i = s.slots i := keeps.slot.trans coupled.slot
  have same (entry : Entry) :
      (later.touch i entry).slots i = (s.touch i entry).slots i := by
    change Function.update later.slots i _ i = Function.update s.slots i _ i
    rw [Function.update_self, Function.update_self, slot]
  have seen : observe i later .service = ((s.slots i).service now).2.toList.map .pulled := by
    simp [observe, reached, slot]
  simp only [step, audioStep, status] at taken
  cases result : ((s.slots i).service now).2 with
  | none =>
    have serviced : later.step parse .service = some { later.touch i (.serviced now) with
        audio := .running now generation' rest } := by
      simp [step, audioStep, reached, slot, result]
    rw [result] at taken seen
    cases taken
    refine ⟨_, emits.trans (Emits.shown rfl serviced seen), ?_⟩
    refine coupled.played keeps network _ _ _ _ (same _) rfl rfl rfl ?_
    simp [turn, gone, gone']
  | some block =>
    have serviced : later.step parse .service = some { later.touch i (.serviced now) with
        audio := .holding now generation' i block (later.history.log i) rest } := by
      simp [step, audioStep, reached, slot, result]
    rw [result] at taken seen
    cases taken
    refine ⟨_, emits.trans (Emits.shown rfl serviced seen), ?_⟩
    refine coupled.played keeps network _ _ _ _ (same _) rfl rfl rfl ?_
    simp only [turn, if_true, Turn.holding.injEq, true_and]
    exact current

theorem serviced_coupled (coupled : Coupled i s t) {now : UInt64} {generation : Nat}
    {j : Fin slotCount} {remaining : List (Fin slotCount)}
    (status : s.audio = .running now generation (j :: remaining)) (other : j ≠ i)
    {next : Receiver} (taken : s.step parse .service = some next) : Coupled i next t := by
  have kept := (keeps_touch other s (.serviced now)).slot
  simp only [step, audioStep, status] at taken
  cases taken
  refine coupled.unmoved kept rfl rfl rfl ?_
  cases result : ((s.slots j).service now).2 with
  | none => simp [turn, status, Ne.symm other, Receiver.touch]
  | some block => simp [turn, status, other, Ne.symm other, Receiver.touch]

/-- `audio_loop` has a block of another slot in its hands. -/
theorem checked_coupled (coupled : Coupled i s t) {now : UInt64} {generation : Nat}
    {j : Fin slotCount} {block : AudioBlock} {sources : List Entry}
    {remaining : List (Fin slotCount)}
    (status : s.audio = .holding now generation j block sources remaining) (other : j ≠ i)
    {next : Receiver} (taken : s.step parse .check = some next) : Coupled i next t := by
  simp only [step, audioStep, status] at taken
  split at taken
  · cases taken
    refine coupled.unmoved rfl rfl rfl rfl ?_
    simp [turn, status, other]
  · cases taken
    refine coupled.unmoved rfl rfl rfl rfl ?_
    simp [turn, status, other]

theorem output_coupled (coupled : Coupled i s t) {now : UInt64} {generation : Nat}
    {j : Fin slotCount} {block : AudioBlock} {sources : List Entry}
    {remaining : List (Fin slotCount)}
    (status : s.audio = .playing now generation j block sources remaining) (other : j ≠ i) :
    Coupled i { s with audio := .running now generation remaining } t := by
  refine coupled.unmoved rfl rfl rfl rfl ?_
  simp [turn, status, other]

theorem answered_service (sound : Sound parse s) (sound' : Sound parse t) (coupled : Coupled i s t)
    {now : UInt64} {generation : Nat} {j : Fin slotCount} {remaining : List (Fin slotCount)}
    (status : s.audio = .running now generation (j :: remaining)) {next : Receiver}
    (taken : s.step parse .service = some next) :
    Answered parse i t (observe i s .service) next := by
  by_cases here : j = i
  · subst here
    have seen : observe j s .service = ((s.slots j).service now).2.toList.map .pulled := by
      simp [observe, status]
    rw [seen]
    exact answered_pulled sound sound' coupled status taken
  · have unseen : observe i s .service = [] := by simp [observe, status, here]
    exact .still (serviced_coupled coupled status here taken) unseen

theorem holding_of_turn {block : AudioBlock} {current : Bool}
    (turn : t.turn i = .holding block current) :
    ∃ now generation sources remaining,
      t.audio = .holding now generation i block sources remaining ∧
        (generation == t.generation) = current := by
  unfold Receiver.turn at turn
  split at turn
  · cases turn
  · split at turn <;> cases turn
  · rename_i status
    split at turn
    · rename_i here
      subst here
      cases turn
      exact ⟨_, _, _, _, status, rfl⟩
    · split at turn <;> cases turn
  · split at turn
    · cases turn
    · split at turn <;> cases turn

theorem playing_of_turn {block : AudioBlock} (turn : t.turn i = .playing block) :
    ∃ now generation sources remaining,
      t.audio = .playing now generation i block sources remaining := by
  unfold Receiver.turn at turn
  split at turn
  · cases turn
  · split at turn <;> cases turn
  · split at turn
    · cases turn
    · split at turn <;> cases turn
  · rename_i status
    split at turn
    · rename_i here
      subst here
      cases turn
      exact ⟨_, _, _, _, status⟩
    · split at turn <;> cases turn

theorem answered_check (sound : Sound parse s) (sound' : Sound parse t) (coupled : Coupled i s t)
    {now : UInt64} {generation : Nat} {j : Fin slotCount} {block : AudioBlock}
    {sources : List Entry} {remaining : List (Fin slotCount)}
    (status : s.audio = .holding now generation j block sources remaining) {next : Receiver}
    (taken : s.step parse .check = some next) : Answered parse i t [] next := by
  have once := sound.tidy.audio
  rw [status] at once
  by_cases here : j = i
  · subst here
    simp only [step, audioStep, status] at taken
    have held : s.turn j = .holding block (generation == s.generation) := by simp [turn, status]
    obtain ⟨now', generation', sources', remaining', status', same⟩ :=
      holding_of_turn (coupled.turn.trans held)
    have once' := sound'.tidy.audio
    rw [status'] at once'
    have gone := (List.nodup_cons.mp once.2).1
    have gone' := (List.nodup_cons.mp once'.2).1
    by_cases current : generation = s.generation
    · have current' : generation' = t.generation := by simpa [current] using same
      have checked : t.step parse .check = some { t with
          audio := .playing now' generation' j block sources' remaining' } := by
        simp [step, audioStep, status', current']
      rw [if_neg (not_not.mpr current)] at taken
      cases taken
      refine ⟨_, Emits.shown rfl checked rfl, ?_⟩
      refine coupled.played (.refl j t) rfl _ _ _ _ coupled.slot rfl rfl rfl ?_
      simp [turn]
    · have current' : generation' ≠ t.generation := by simpa [current] using same
      have checked : t.step parse .check = some { t with
          audio := .running now' generation' remaining' } := by
        simp [step, audioStep, status', current']
      rw [if_pos current] at taken
      cases taken
      refine ⟨_, Emits.shown rfl checked rfl, ?_⟩
      refine coupled.played (.refl j t) rfl _ _ _ _ coupled.slot rfl rfl rfl ?_
      simp [turn, gone, gone']
  · exact .still (checked_coupled coupled status here taken) rfl

theorem answered_output (sound : Sound parse s) (sound' : Sound parse t) (coupled : Coupled i s t)
    {now : UInt64} {generation : Nat} {j : Fin slotCount} {block : AudioBlock}
    {sources : List Entry} {remaining : List (Fin slotCount)}
    (status : s.audio = .playing now generation j block sources remaining) :
    Answered parse i t (observe i s .output)
      { s with audio := .running now generation remaining } := by
  have once := sound.tidy.audio
  rw [status] at once
  by_cases here : j = i
  · subst here
    have playing : s.turn j = .playing block := by simp [turn, status]
    obtain ⟨now', generation', sources', remaining', status'⟩ :=
      playing_of_turn (coupled.turn.trans playing)
    have once' := sound'.tidy.audio
    rw [status'] at once'
    have gone := (List.nodup_cons.mp once.2).1
    have gone' := (List.nodup_cons.mp once'.2).1
    have output : t.step parse .output = some { t with
        audio := .running now' generation' remaining' } := by
      simp [step, audioStep, status']
    have seen : observe j s .output = observe j t .output := by simp [observe, status, status']
    rw [seen]
    refine ⟨_, Emits.single rfl output, ?_⟩
    refine coupled.played (.refl j t) rfl _ _ _ _ coupled.slot rfl rfl rfl ?_
    simp [turn, gone, gone']
  · have unseen : observe i s .output = [] := by simp [observe, status, here]
    exact .still (output_coupled coupled status here) unseen

theorem answered_audio (sound : Sound parse s) (sound' : Sound parse t) (coupled : Coupled i s t)
    {label : Label} {next : Receiver} (audio : s.step parse label = s.audioStep label s.audio)
    (taken : s.step parse label = some next) :
    Answered parse i t (observe i s label) next := by
  have taken' := audio ▸ taken
  unfold audioStep at taken'
  split at taken'
  · rename_i now status
    cases taken'
    exact answered_wake coupled status now
  · rename_i status
    exact answered_service sound sound' coupled status taken
  · rename_i status
    cases taken'
    refine .still (coupled.unmoved rfl rfl rfl rfl ?_) ?_
    · simp [turn, status]
    · simp [observe, status]
  · rename_i status
    exact answered_check sound sound' coupled status taken
  · rename_i status
    cases taken'
    exact answered_output sound sound' coupled status
  · cases taken'

/-- Every step of a run that leaves the slot alone is answered without
reconfiguration. -/
theorem answered_step (sound : Sound parse s) (sound' : Sound parse t) (coupled : Coupled i s t)
    {label : Label} {next : Receiver} (allowed : undisturbed i s label = true)
    (taken : s.step parse label = some next) :
    Answered parse i t (observe i s label) next := by
  cases label with
  | prepare | bump | reset | publish =>
    exact .still (answered_configure sound coupled allowed taken) rfl
  | snapshot | arrive | retry | reroute | visit =>
    exact answered_network sound sound' coupled rfl taken
  | wake | service | check | output => exact answered_audio sound sound' coupled rfl taken

theorem Coupled.refl (unlocked : t.edit = .idle) (i : Fin slotCount) : Coupled i t t := by
  refine ⟨rfl, unlocked, .refl i _, ?_, rfl, rfl⟩
  rw [unlocked]
  trivial

theorem Coupled.relaxed (edit : EditAlike i s.routing s.edit) :
    Coupled i s { s with edit := .idle } :=
  ⟨rfl, rfl, .refl i _, edit, rfl, rfl⟩

theorem Coupled.inFlight (coupled : Coupled i s t) : s.inFlight i = t.inFlight i := by
  rw [Receiver.inFlight, Receiver.inFlight, coupled.incoming]

theorem Coupled.inHand (coupled : Coupled i s t) : s.inHand i = t.inHand i := by
  rw [Receiver.inHand, Receiver.inHand, coupled.turn]

/-- What `receive_loop` reads is handed on, in order. -/
theorem network_balanced (sound : Sound parse t) (edit : EditAlike i t.routing t.edit)
    {label : Label} {next : Receiver} (network : t.step parse label = t.networkStep label t.network)
    (taken : t.step parse label = some next) :
    t.inFlight i ++ (observe i t label).filterMap SlotEvent.read? =
      (observe i t label).filterMap SlotEvent.handed? ++ next.inFlight i := by
  have taken' := network ▸ taken
  have still (coupled : Coupled i next { t with edit := .idle }) (silent : observe i t label = []) :
      t.inFlight i ++ (observe i t label).filterMap SlotEvent.read? =
        (observe i t label).filterMap SlotEvent.handed? ++ next.inFlight i := by
    have same : next.inFlight i = t.inFlight i := coupled.inFlight
    rw [silent, same, List.filterMap_nil, List.filterMap_nil, List.append_nil, List.nil_append]
  unfold networkStep at taken'
  split at taken'
  · rename_i status
    split at taken'
    · cases taken'
    · cases taken'
      simp [inFlight, incoming, status, observe]
  · rename_i status
    cases taken'
    simp [inFlight, incoming, status, observe]
  · rename_i bytes sender route status
    obtain ⟨socket, bound, rfl⟩ := Option.map_eq_some_iff.mp taken'
    have away : t.incoming i = .away := by simp [incoming, status]
    rw [arrive_observed status bound]
    by_cases accepted : t.accepts i ⟨bytes, sender, socket⟩ = true
    · have now : Receiver.incoming { t with
          network := .received route ⟨bytes, sender, socket⟩ } i = .taken ⟨bytes, sender, socket⟩ :=
        if_pos accepted
      simp [inFlight, away, now, accepted, SlotEvent.read?, SlotEvent.handed?]
    · have now : Receiver.incoming { t with
          network := .received route ⟨bytes, sender, socket⟩ } i = .away := if_neg accepted
      simp [inFlight, away, now, accepted]
  · rename_i route d status
    split at taken'
    · cases taken'
    · rename_i unlocked
      have free := Bool.eq_false_of_not_eq_true unlocked
      by_cases accepted : t.accepts i d = true
      · rw [reroute_visits sound status free accepted] at taken
        cases taken
        have before : t.incoming i = .taken d := by simp [incoming, status, accepted]
        simp only [inFlight, incoming_rerouted sound free, hears_of_accepts accepted, before,
          observe]
        rfl
      · exact still (refused_coupled sound (.relaxed edit) status free accepted taken) rfl
  · rename_i now route d j remaining status
    by_cases live : j = i ∧ route.hears d i = true ∧ route.generation = t.generation
    · obtain ⟨rfl, hears, current⟩ := live
      have once := sound.tidy.network
      rw [status] at once
      rw [visit_taken status hears current] at taken
      cases taken
      simp [inFlight, incoming, observe, status, hears, current, (List.nodup_cons.mp once).1,
        SlotEvent.read?, SlotEvent.handed?]
    · exact still (passed_coupled sound (.relaxed edit) status live taken)
        (by simp [observe, status, live])
  · rename_i status
    cases taken'
    simp [inFlight, incoming, status, observe]
  · cases taken'

/-- What is pulled is delivered, in order, or withheld by a pass that is outdated. -/
theorem audio_balanced (sound : Sound parse t) (edit : EditAlike i t.routing t.edit)
    {label : Label} {next : Receiver} (audio : t.step parse label = t.audioStep label t.audio)
    (taken : t.step parse label = some next) :
    t.inHand i ++ (account i t label).filterMap SlotEvent.pulled? =
      (account i t label).filterMap SlotEvent.released? ++ next.inHand i := by
  have taken' := audio ▸ taken
  have still (coupled : Coupled i next { t with edit := .idle }) (silent : account i t label = []) :
      t.inHand i ++ (account i t label).filterMap SlotEvent.pulled? =
        (account i t label).filterMap SlotEvent.released? ++ next.inHand i := by
    have same : next.inHand i = t.inHand i := coupled.inHand
    rw [silent, same, List.filterMap_nil, List.filterMap_nil, List.append_nil, List.nil_append]
  unfold audioStep at taken'
  split at taken'
  · rename_i now status
    cases taken'
    simp [inHand, turn, status, account, observe, losses]
  · rename_i now generation j remaining status
    by_cases here : j = i
    · subst here
      have once := sound.tidy.audio
      rw [status] at once
      have gone := (List.nodup_cons.mp once.2).1
      cases result : ((t.slots j).service now).2 with
      | none =>
        rw [result] at taken'
        cases taken'
        simp [inHand, turn, account, observe, losses, status, result, gone]
      | some block =>
        rw [result] at taken'
        cases taken'
        by_cases current : generation = t.generation
        · simp [inHand, turn, account, observe, losses, status, result, current, SlotEvent.pulled?,
            SlotEvent.released?, Receiver.touch]
        · simp [inHand, turn, account, observe, losses, status, result, current, SlotEvent.pulled?,
            SlotEvent.released?, Receiver.touch]
          rfl
    · exact still (serviced_coupled (.relaxed edit) status here taken)
        (by simp [account, observe, losses, status, here])
  · rename_i status
    cases taken'
    simp [inHand, turn, status, account, observe, losses]
  · rename_i now generation j block sources remaining status
    by_cases here : j = i
    · subst here
      have once := sound.tidy.audio
      rw [status] at once
      have gone := (List.nodup_cons.mp once.2).1
      split at taken'
      · rename_i stale
        cases taken'
        simp [inHand, turn, account, observe, losses, status, stale, gone]
      · rename_i current
        cases taken'
        simp [inHand, turn, account, observe, losses, status, not_not.mp current]
    · exact still (checked_coupled (.relaxed edit) status here taken) rfl
  · rename_i now generation j block sources remaining status
    by_cases here : j = i
    · subst here
      have once := sound.tidy.audio
      rw [status] at once
      have gone := (List.nodup_cons.mp once.2).1
      cases taken'
      simp [inHand, turn, account, observe, losses, status, gone, SlotEvent.pulled?,
        SlotEvent.released?]
    · cases taken'
      exact still (output_coupled (.relaxed edit) status here)
        (by simp [account, observe, losses, status, here])
  · cases taken'

theorem losses_fresh (fresh : ∀ now, t.turn i ≠ .ahead now false) {label : Label}
    (calm : (!label.configures) = true) : losses i t label = [] := by
  cases label with
  | prepare | bump | reset | publish => cases calm
  | snapshot | arrive | retry | reroute | visit | wake | check | output => rfl
  | service =>
    simp only [losses]
    split
    · rename_i now generation j remaining status
      split
      · rename_i outdated
        obtain ⟨rfl, stale⟩ := outdated
        exact absurd (by simp [turn, status, stale]) (fresh now)
      · rfl
    · rfl

theorem audio_fresh (sound : Sound parse t) (fresh : ∀ now, t.turn i ≠ .ahead now false)
    {label : Label} {next : Receiver} (taken : t.audioStep label t.audio = some next) :
    ∀ now, next.turn i ≠ .ahead now false := by
  have once := sound.tidy.audio
  unfold audioStep at taken
  split at taken
  · cases taken
    simp [turn]
  · rename_i now generation j remaining status
    rw [status] at once
    have gone := (List.nodup_cons.mp once.2).1
    have before : i ∈ j :: remaining → generation = t.generation := by
      intro member
      by_contra stale
      exact fresh now (by simp only [turn, status, if_pos member]; simp [stale])
    cases taken
    cases result : ((t.slots j).service now).2 with
    | none =>
      intro now'
      by_cases member : i ∈ remaining
      · simp [turn, Receiver.touch, member, before (List.mem_cons_of_mem _ member)]
      · simp [turn, member]
    | some block =>
      intro now'
      by_cases here : j = i
      · simp [turn, here]
      · by_cases member : i ∈ remaining
        · simp [turn, Receiver.touch, here, member, before (List.mem_cons_of_mem _ member)]
        · simp [turn, here, member]
  · cases taken
    simp [turn]
  · rename_i now generation j block sources remaining status
    rw [status] at once
    have gone := (List.nodup_cons.mp once.2).1
    have before : j ≠ i → i ∈ remaining → generation = t.generation := by
      intro other member
      by_contra stale
      exact fresh now (by simp [turn, status, other, member, stale])
    have later (now' : UInt64) : ¬ (i ∈ remaining ∧ generation ≠ t.generation) := by
      rintro ⟨member, stale⟩
      by_cases here : j = i
      · exact gone (here ▸ member)
      · exact stale (before here member)
    split at taken <;> cases taken
    · intro now'
      by_cases member : i ∈ remaining
      · rename_i stale
        exact absurd ⟨member, stale⟩ (later now')
      · simp [turn, member]
    · rename_i current
      intro now'
      by_cases here : j = i
      · simp [turn, here]
      · by_cases member : i ∈ remaining
        · simp [turn, here, member, not_not.mp current]
        · simp [turn, here, member]
  · rename_i now generation j block sources remaining status
    rw [status] at once
    have gone := (List.nodup_cons.mp once.2).1
    cases taken
    intro now'
    by_cases member : i ∈ remaining
    · have other : j ≠ i := by
        rintro rfl
        exact gone member
      have current : generation = t.generation := by
        by_contra stale
        exact fresh now (by simp [turn, status, other, member, stale])
      simp [turn, member, current]
    · simp [turn, member]
  · cases taken

end

theorem network_frame {s next : Receiver} {label : Label}
    (taken : s.networkStep label s.network = some next) (i : Fin slotCount) :
    next.routing = s.routing ∧ next.edit = s.edit ∧ next.turn i = s.turn i := by
  unfold networkStep at taken
  split at taken
  · split at taken
    · cases taken
    · cases taken
      exact ⟨rfl, rfl, rfl⟩
  · cases taken
    exact ⟨rfl, rfl, rfl⟩
  · obtain ⟨socket, _, rfl⟩ := Option.map_eq_some_iff.mp taken
    exact ⟨rfl, rfl, rfl⟩
  · split at taken
    · cases taken
    · split at taken
      · cases taken
        exact ⟨rfl, rfl, rfl⟩
      · split at taken
        · cases taken
          exact ⟨rfl, rfl, rfl⟩
        · cases taken
          exact ⟨rfl, rfl, rfl⟩
  · split at taken
    · split at taken
      · cases taken
        exact ⟨rfl, rfl, rfl⟩
      · cases taken
        exact ⟨rfl, rfl, rfl⟩
    · cases taken
      exact ⟨rfl, rfl, rfl⟩
  · cases taken
    exact ⟨rfl, rfl, rfl⟩
  · cases taken

theorem audio_frame {s next : Receiver} {label : Label}
    (taken : s.audioStep label s.audio = some next) (i : Fin slotCount) :
    next.routing = s.routing ∧ next.edit = s.edit ∧ next.incoming i = s.incoming i := by
  unfold audioStep at taken
  split at taken
  · cases taken
    exact ⟨rfl, rfl, rfl⟩
  · cases taken
    exact ⟨rfl, rfl, rfl⟩
  · cases taken
    exact ⟨rfl, rfl, rfl⟩
  · split at taken
    · cases taken
      exact ⟨rfl, rfl, rfl⟩
    · cases taken
      exact ⟨rfl, rfl, rfl⟩
  · cases taken
    exact ⟨rfl, rfl, rfl⟩
  · cases taken

theorem calm_edit {parse : Parse} {t next : Receiver} {label : Label}
    (calm : (!label.configures) = true) (taken : t.step parse label = some next) :
    next.edit = t.edit := by
  cases label with
  | prepare | bump | reset | publish => cases calm
  | snapshot | arrive | retry | reroute | visit => exact (network_frame taken 0).2.1
  | wake | service | check | output => exact (audio_frame taken 0).2.1

theorem service_observed (i : Fin slotCount) (s : Receiver) :
    ∃ blocks : List AudioBlock, observe i s .service = blocks.map .pulled := by
  simp only [observe]
  split
  · split
    · exact ⟨_, rfl⟩
    · exact ⟨[], rfl⟩
  · exact ⟨[], rfl⟩

/-- Each loop shows the slot its own half of the events. -/
theorem observed_halves {parse : Parse} {i : Fin slotCount} {s next : Receiver} {label : Label}
    (calm : (!label.configures) = true) (taken : s.step parse label = some next) :
    (next.turn i = s.turn i ∧ (observe i s label).filterMap SlotEvent.pulled? = [] ∧
      (observe i s label).filterMap SlotEvent.delivered? = [] ∧
      s.step parse label = s.networkStep label s.network) ∨
    (next.incoming i = s.incoming i ∧ (observe i s label).filterMap SlotEvent.read? = [] ∧
      (observe i s label).filterMap SlotEvent.handed? = [] ∧
      s.step parse label = s.audioStep label s.audio) := by
  cases label with
  | prepare | bump | reset | publish => cases calm
  | snapshot | retry | reroute =>
    exact .inl ⟨(network_frame taken i).2.2, rfl, rfl, rfl⟩
  | arrive bytes sender =>
    refine .inl ⟨(network_frame taken i).2.2, ?_, ?_, rfl⟩
    · simp only [observe]
      split
      · simp [List.filterMap_map, Function.comp_def, SlotEvent.pulled?]
      · rfl
    · simp only [observe]
      split
      · simp [List.filterMap_map, Function.comp_def, SlotEvent.delivered?]
      · rfl
  | visit now =>
    refine .inl ⟨(network_frame taken i).2.2, ?_, ?_, rfl⟩
    · simp only [observe]
      split
      · split <;> rfl
      · rfl
    · simp only [observe]
      split
      · split <;> rfl
      · rfl
  | wake | check => exact .inr ⟨(audio_frame taken i).2.2, rfl, rfl, rfl⟩
  | service =>
    obtain ⟨blocks, seen⟩ := service_observed i s
    rw [seen]
    refine .inr ⟨(audio_frame taken i).2.2, ?_, ?_, rfl⟩
    · simp [List.filterMap_map, Function.comp_def, SlotEvent.read?]
    · simp [List.filterMap_map, Function.comp_def, SlotEvent.handed?]
  | output =>
    refine .inr ⟨(audio_frame taken i).2.2, ?_, ?_, rfl⟩
    · simp only [observe]
      split
      · split <;> rfl
      · rfl
    · simp only [observe]
      split
      · split <;> rfl
      · rfl

theorem observed_released (i : Fin slotCount) (s : Receiver) (label : Label) :
    (observe i s label).filterMap SlotEvent.released? =
      (observe i s label).filterMap SlotEvent.delivered? := by
  cases label with
  | prepare | bump | reset | publish | snapshot | retry | reroute | wake | check => rfl
  | arrive bytes sender =>
    simp only [observe]
    split
    · simp [List.filterMap_map, Function.comp_def, SlotEvent.released?, SlotEvent.delivered?]
    · rfl
  | visit now =>
    simp only [observe]
    split
    · split <;> rfl
    · rfl
  | service =>
    obtain ⟨blocks, seen⟩ := service_observed i s
    rw [seen]
    simp [List.filterMap_map, Function.comp_def, SlotEvent.released?, SlotEvent.delivered?]
  | output =>
    simp only [observe]
    split
    · split <;> rfl
    · rfl

/-- The first queue: from the socket to the slot's buffer. -/
theorem calm_handed {parse : Parse} {i : Fin slotCount} {t later : Receiver}
    {events : List SlotEvent} (sound : Sound parse t) (unlocked : t.edit = .idle)
    (calm : Calm parse i t events later) :
    t.inFlight i ++ events.filterMap SlotEvent.read? =
      events.filterMap SlotEvent.handed? ++ later.inFlight i := by
  let Inv := fun state => Sound parse state ∧ state.edit = Edit.idle
  have start : Inv t := ⟨sound, unlocked⟩
  refine calm.queue (fun state => state.inFlight i) SlotEvent.read? SlotEvent.handed?
    (fun state label next inv kind taken => ?_) (fun state label next inv kind taken => ?_) start
  · exact ⟨sound_step state label next inv.1 taken, (calm_edit kind taken).trans inv.2⟩
  · rcases observed_halves (i := i) kind taken with ⟨_, _, _, network⟩ | ⟨same, read, handed, _⟩
    · exact network_balanced inv.1 (inv.2 ▸ trivial) network taken
    · rw [read, handed, List.append_nil, List.nil_append, inFlight, inFlight, same]

/-- The second queue: from the slot's buffer to its consumers. -/
theorem calm_delivered {parse : Parse} {i : Fin slotCount} {t later : Receiver}
    {events : List SlotEvent} (sound : Sound parse t) (unlocked : t.edit = .idle)
    (fresh : ∀ now, t.turn i ≠ .ahead now false) (calm : Calm parse i t events later) :
    t.inHand i ++ events.filterMap SlotEvent.pulled? =
      events.filterMap SlotEvent.delivered? ++ later.inHand i := by
  let Inv := fun state => Sound parse state ∧ state.edit = Edit.idle ∧
    ∀ now, state.turn i ≠ .ahead now false
  have start : Inv t := ⟨sound, unlocked, fresh⟩
  refine calm.queue (fun state => state.inHand i) SlotEvent.pulled? SlotEvent.delivered?
    (fun state label next inv kind taken => ?_) (fun state label next inv kind taken => ?_) start
  · refine ⟨sound_step state label next inv.1 taken, (calm_edit kind taken).trans inv.2.1, ?_⟩
    rcases observed_halves (i := i) kind taken with ⟨same, _⟩ | ⟨_, _, _, audio⟩
    · exact same ▸ inv.2.2
    · exact audio_fresh inv.1 inv.2.2 (audio ▸ taken)
  · rcases observed_halves (i := i) kind taken with ⟨same, pulled, delivered, _⟩ | ⟨_, _, _, audio⟩
    · rw [pulled, delivered, List.append_nil, List.nil_append, inHand, inHand, same]
    · have balanced := audio_balanced (i := i) inv.1 (inv.2.1 ▸ trivial) audio taken
      rwa [account, losses_fresh inv.2.2 kind, List.append_nil, observed_released] at balanced

end Receiver

/-- A run in which reconfiguration leaves a slot alone, and begins no generation
while a loop is between its look at the routing and its check on the slot's behalf:
the slot gets every matching datagram that is read, its consumers get every block
that is pulled, and some run without reconfiguration shows them the same. -/
theorem undisturbed_slot_transparent {parse : Parse} {s final : Receiver}
    (reached : Reachable (Receiver.step parse) {} s) (idle : s.edit = .idle) (i : Fin slotCount)
    {labels : List Receiver.Label} (ran : run (Receiver.step parse) s labels = some final)
    (undisturbed : allAlong (Receiver.step parse) (Receiver.undisturbed i) s labels = true) :
    (s.inFlight i ++ (Receiver.seen parse i s labels).filterMap SlotEvent.read? =
      (Receiver.seen parse i s labels).filterMap SlotEvent.handed? ++ final.inFlight i) ∧
    ((∀ now, s.turn i ≠ .ahead now false) →
      s.inHand i ++ (Receiver.seen parse i s labels).filterMap SlotEvent.pulled? =
        (Receiver.seen parse i s labels).filterMap SlotEvent.delivered? ++ final.inHand i) ∧
    ∃ calm other, (∀ label ∈ calm, (!label.configures) = true) ∧
      run (Receiver.step parse) s calm = some other ∧
      Receiver.seen parse i s calm = Receiver.seen parse i s labels ∧
      other.slots i = final.slots i := by
  have sound := Receiver.sound_reachable reached
  let Both := fun state other => Receiver.Sound parse state ∧ Receiver.Sound parse other ∧
    Receiver.Coupled i state other
  have start : Both s s := ⟨sound, sound, .refl idle i⟩
  obtain ⟨other, emits, _, _, coupled⟩ := simulated Both
    (fun state label next other both allowed taken => by
      obtain ⟨sound, sound', coupled⟩ := both
      obtain ⟨later, emits, coupled'⟩ :=
        Receiver.answered_step sound sound' coupled allowed taken
      exact ⟨later, emits, Receiver.sound_step state label next sound taken,
        Receiver.run_sound emits sound', coupled'⟩) start undisturbed ran
  refine ⟨?_, fun fresh => ?_, ?_⟩
  · rw [coupled.inFlight]
    exact Receiver.calm_handed sound idle emits
  · rw [coupled.inHand]
    exact Receiver.calm_delivered sound idle fresh emits
  · obtain ⟨calm, kind, ran', same⟩ := emits
    exact ⟨calm, other, kind, ran', same, coupled.slot⟩

end VbanStream
