import VbanStream.Receiver.Transparency

namespace VbanStream

open Library

namespace Receiver

section

variable {parse : Parse} {i : Fin slotCount} {s next : Receiver} {label : Label}

/-- A change that leaves the slot alone, apart from the moment of its new generation. -/
theorem configured (sound : Sound parse s) (edit : EditAlike i s.routing s.edit)
    (allowed : sparing i s label = true) (later : label ≠ .bump)
    (taken : s.configureStep parse label s.edit = some next) :
    Coupled i next { s with edit := .idle } := by
  refine answered_configure sound (.relaxed edit) ?_ taken
  cases label with
  | prepare => exact allowed
  | bump => exact absurd rfl later
  | _ => rfl

theorem editAlike_bump (edit : EditAlike i s.routing s.edit)
    (taken : s.configureStep parse .bump s.edit = some next) :
    EditAlike i next.routing next.edit := by
  unfold configureStep at taken
  split at taken
  · rename_i equal _
    cases equal
  · rename_i status
    cases taken
    rw [status] at edit
    exact ⟨edit.1, edit.2.enabled, edit.2.name, edit.2.address, edit.2.socket⟩
  · rename_i equal _
    cases equal
  · rename_i equal _
    cases equal
  · cases taken

theorem bump_taken (taken : s.configureStep parse .bump s.edit = some next) :
    ∃ edit, next = { s with generation := s.generation + 1, edit } := by
  unfold configureStep at taken
  split at taken
  · rename_i equal _
    cases equal
  · cases taken
    exact ⟨_, rfl⟩
  · rename_i equal _
    cases equal
  · rename_i equal _
    cases equal
  · cases taken

theorem configure_network (taken : s.configureStep parse label s.edit = some next) :
    next.network = s.network := by
  unfold configureStep at taken
  split at taken
  · split at taken
    · cases taken
      rfl
    · cases taken
  · cases taken
    rfl
  · cases taken
    split <;> rfl
  · cases taken
    rfl
  · cases taken

theorem audio_network (taken : s.audioStep label s.audio = some next) :
    next.network = s.network := by
  unfold audioStep at taken
  split at taken
  · cases taken
    rfl
  · cases taken
    rfl
  · cases taken
    rfl
  · split at taken
    · cases taken
      rfl
    · cases taken
      rfl
  · cases taken
    rfl
  · cases taken

theorem editAlike_step (sound : Sound parse s) (edit : EditAlike i s.routing s.edit)
    (allowed : sparing i s label = true) (taken : s.step parse label = some next) :
    EditAlike i next.routing next.edit := by
  cases label with
  | bump => exact editAlike_bump edit taken
  | prepare | reset | publish =>
    exact (configured sound edit allowed (by simp) taken).edit
  | snapshot | arrive | retry | reroute | visit =>
    obtain ⟨routing, kept, _⟩ := network_frame taken i
    rw [routing, kept]
    exact edit
  | wake | service | check | output =>
    obtain ⟨routing, kept, _⟩ := audio_frame taken i
    rw [routing, kept]
    exact edit

theorem service_lost (i : Fin slotCount) (s : Receiver) :
    ∃ blocks : List AudioBlock, losses i s .service = blocks.map .withheld := by
  simp only [losses]
  split
  · split
    · exact ⟨_, rfl⟩
    · exact ⟨[], rfl⟩
  · exact ⟨[], rfl⟩

theorem arrive_quiet {β : Type*} {shown : SlotEvent → Option β}
    (quiet : ∀ d, shown (.read d) = none) (bytes : List UInt8) (sender : UInt32) :
    (account i s (.arrive bytes sender)).filterMap shown = [] := by
  simp only [account, losses, List.append_nil, observe]
  split
  · simp [List.filterMap_map, quiet]
  · rfl

theorem visit_quiet {β : Type*} {shown : SlotEvent → Option β}
    (quiet : ∀ d now, shown (.handed d now) = none) (now : UInt64) :
    (account i s (.visit now)).filterMap shown = [] := by
  simp only [account, losses, List.append_nil, observe]
  split
  · split
    · simp [quiet]
    · rfl
  · rfl

theorem output_quiet {β : Type*} {shown : SlotEvent → Option β}
    (quiet : ∀ block, shown (.delivered block) = none) :
    (account i s .output).filterMap shown = [] := by
  simp only [account, losses, List.append_nil, observe]
  split
  · split
    · simp [quiet]
    · rfl
  · rfl

/-- What is read is pushed, or lost to a new generation, in order. -/
theorem received_balanced (sound : Sound parse s) (edit : EditAlike i s.routing s.edit)
    (allowed : sparing i s label = true) (taken : s.step parse label = some next) :
    s.inFlight i ++ (account i s label).filterMap SlotEvent.read? =
      (account i s label).filterMap SlotEvent.settled? ++ next.inFlight i := by
  have still (same : next.incoming i = s.incoming i)
      (read : (account i s label).filterMap SlotEvent.read? = [])
      (settled : (account i s label).filterMap SlotEvent.settled? = []) :
      s.inFlight i ++ (account i s label).filterMap SlotEvent.read? =
        (account i s label).filterMap SlotEvent.settled? ++ next.inFlight i := by
    rw [read, settled, inFlight, inFlight, same, List.append_nil, List.nil_append]
  have moved (of_network : s.step parse label = s.networkStep label s.network)
      (settled : (account i s label).filterMap SlotEvent.settled? =
        (observe i s label).filterMap SlotEvent.handed?)
      (read : (account i s label).filterMap SlotEvent.read? =
        (observe i s label).filterMap SlotEvent.read?) :
      s.inFlight i ++ (account i s label).filterMap SlotEvent.read? =
        (account i s label).filterMap SlotEvent.settled? ++ next.inFlight i := by
    rw [settled, read]
    exact network_balanced sound edit of_network taken
  cases label with
  | prepare | reset | publish =>
    exact still (configured sound edit allowed (by simp) taken).incoming.symm rfl rfl
  | bump =>
    obtain ⟨edit', rfl⟩ := bump_taken taken
    have raised := incoming_raised sound.main i edit'
    simp only [inFlight, raised, account, observe, losses, List.nil_append, List.filterMap_append]
    cases status : s.incoming i with
    | away | taken | routed =>
      cases held : s.turn i with
      | away | playing | ahead => rfl
      | holding block current => cases current <;> rfl
  | snapshot | retry | reroute => exact moved rfl rfl rfl
  | arrive bytes sender =>
    refine moved rfl ?_ ?_
    · simp only [account, losses, List.append_nil, observe]
      split
      · simp [List.filterMap_map, Function.comp_def, SlotEvent.settled?, SlotEvent.handed?]
      · rfl
    · simp only [account, losses, List.append_nil]
  | visit now =>
    refine moved rfl ?_ ?_
    · simp only [account, losses, List.append_nil, observe]
      split
      · split <;> rfl
      · rfl
    · simp only [account, losses, List.append_nil]
  | wake | check => exact still (audio_frame taken i).2.2 rfl rfl
  | service =>
    obtain ⟨blocks, seen⟩ := service_observed i s
    obtain ⟨blocks', lost⟩ := service_lost i s
    refine still (audio_frame taken i).2.2 ?_ ?_
    · simp [account, seen, lost, List.filterMap_map, Function.comp_def, SlotEvent.read?]
    · simp [account, seen, lost, List.filterMap_map, Function.comp_def, SlotEvent.settled?]
  | output =>
    exact still (audio_frame taken i).2.2 (output_quiet fun _ => rfl) (output_quiet fun _ => rfl)

/-- What is pulled is delivered, or withheld because of a new generation, in order. -/
theorem pulled_balanced (sound : Sound parse s) (edit : EditAlike i s.routing s.edit)
    (allowed : sparing i s label = true) (taken : s.step parse label = some next) :
    s.inHand i ++ (account i s label).filterMap SlotEvent.pulled? =
      (account i s label).filterMap SlotEvent.released? ++ next.inHand i := by
  have still (same : next.turn i = s.turn i)
      (pulled : (account i s label).filterMap SlotEvent.pulled? = [])
      (released : (account i s label).filterMap SlotEvent.released? = []) :
      s.inHand i ++ (account i s label).filterMap SlotEvent.pulled? =
        (account i s label).filterMap SlotEvent.released? ++ next.inHand i := by
    rw [pulled, released, inHand, inHand, same, List.append_nil, List.nil_append]
  cases label with
  | prepare | reset | publish =>
    exact still (configured sound edit allowed (by simp) taken).turn.symm rfl rfl
  | bump =>
    obtain ⟨edit', rfl⟩ := bump_taken taken
    have raised := turn_raised sound.tidy i edit'
    simp only [inHand, raised, account, observe, losses, List.nil_append, List.filterMap_append]
    cases held : s.turn i with
    | away | playing | ahead =>
      cases status : s.incoming i with
      | away | taken | routed => rfl
    | holding block current =>
      cases status : s.incoming i with
      | away | taken | routed => cases current <;> rfl
  | snapshot | retry | reroute => exact still (network_frame taken i).2.2 rfl rfl
  | arrive bytes sender =>
    exact still (network_frame taken i).2.2 (arrive_quiet (fun _ => rfl) bytes sender)
      (arrive_quiet (fun _ => rfl) bytes sender)
  | visit now =>
    exact still (network_frame taken i).2.2 (visit_quiet (fun _ _ => rfl) now)
      (visit_quiet (fun _ _ => rfl) now)
  | wake | service | check | output => exact audio_balanced sound edit rfl taken

end

/-- What the slot's buffer takes part in. -/
def buffer (i : Fin slotCount) (s : Receiver) (label : Label) : List SlotEvent :=
  (observe i s label).filterMap SlotEvent.buffered?

/-- A run without reconfiguration in which the slot's buffer sees exactly these events. -/
abbrev Plain (parse : Parse) (i : Fin slotCount) : Receiver → List SlotEvent → Receiver → Prop :=
  Emits (step parse) (buffer i) fun label => !label.configures

/-- The datagram of a visit is one of audio. -/
def NetworkAudible : Network → Prop
  | .visiting _ d _ => d.audio = true
  | _ => True

/-- A run with reconfiguration and one without it, which the datagrams that are overtaken
do not reach. -/
structure Shadowed (i : Fin slotCount) (s t : Receiver) : Prop where
  slot : t.slots i = s.slots i
  unlocked : t.edit = .idle
  alike : Alike i t.routing s.routing
  edit : EditAlike i s.routing s.edit
  audible : NetworkAudible s.network
  network : t.network = .idle
  turn : (t.turn i).due = (s.turn i).due

section

variable {parse : Parse} {i : Fin slotCount} {s t next : Receiver} {label : Label}

theorem Plain.of_calm {events : List SlotEvent} {later : Receiver}
    (calm : Calm parse i t events later) :
    Plain parse i t (events.filterMap SlotEvent.buffered?) later :=
  calm.narrowed SlotEvent.buffered?

theorem turn_of_frame {later : Receiver} (audio : later.audio = t.audio)
    (generation : later.generation = t.generation) : later.turn i = t.turn i := by
  rw [turn, turn, audio, generation]

/-- Without reconfiguration, `receive_loop` takes a matching datagram to the slot. -/
theorem plain_handed (sound : Sound parse t) (unlocked : t.edit = .idle)
    (idle : t.network = .idle) {d : Datagram} (accepted : t.accepts i d = true) (now : UInt64) :
    ∃ later, Calm parse i t [.read d, .handed d now] later ∧ later.routing = t.routing ∧
      later.edit = .idle ∧ later.network = .idle ∧ later.turn i = t.turn i ∧
      later.slots i = (Entry.received d now 0).apply (t.slots i) := by
  have free : t.locked = false := by simp [locked, unlocked]
  have current : t.routing.generation = t.generation := by
    have edit := sound.main.edit
    rw [unlocked] at edit
    exact edit.symm
  have hears := hears_of_accepts accepted
  obtain ⟨bytes, sender, socket⟩ := d
  have bound : t.routing.socket = some socket := by
    simp only [accepts, Bool.and_eq_true, beq_iff_eq] at accepted
    exact accepted.2
  let polling : Receiver := { t with network := .polling t.routing }
  let received : Receiver := { t with network := .received t.routing ⟨bytes, sender, socket⟩ }
  let visiting : Receiver := { t with
    network := .visiting t.routing ⟨bytes, sender, socket⟩ (List.finRange slotCount) }
  have polled : t.step parse .snapshot = some polling := by
    simp [step, networkStep, idle, free, polling]
  have arrived : polling.step parse (.arrive bytes sender) = some received := by
    simp [step, networkStep, polling, received, bound]
  have polls : polling.network = .polling t.routing := rfl
  have seen : observe i polling (.arrive bytes sender) = [.read ⟨bytes, sender, socket⟩] := by
    rw [arrive_observed polls bound]
    exact if_pos accepted
  have reads : Calm parse i t [.read ⟨bytes, sender, socket⟩] received :=
    (Emits.shown rfl polled rfl).trans (Emits.shown rfl arrived seen)
  have routed : received.step parse .reroute = some visiting :=
    reroute_visits (run_sound reads sound) rfl free accepted
  have starts : Calm parse i t [.read ⟨bytes, sender, socket⟩] visiting :=
    reads.trans (Emits.shown rfl routed rfl)
  obtain ⟨before, rest, goes, keeps, audio, reached⟩ :=
    visits_reach parse (t := visiting) rfl (List.mem_finRange i) current
  have comes : Calm parse i t [.read ⟨bytes, sender, socket⟩] before := starts.trans goes
  have live : t.routing.generation = before.generation := current.trans keeps.generation.symm
  have handed : before.step parse (.visit now) = _ := visit_taken reached hears live now
  have pushed : observe i before (.visit now) = [.handed ⟨bytes, sender, socket⟩ now] := by
    simp [observe, reached, hears, live]
  have once := (run_sound comes sound).tidy.network
  rw [reached] at once
  have gone := (List.nodup_cons.mp once).1
  obtain ⟨later, ends, keeps', audio', idle'⟩ :=
    visits_finish parse (i := i) (t := { before.touch i
      (.received ⟨bytes, sender, socket⟩ now before.generation) with
        network := .visiting t.routing ⟨bytes, sender, socket⟩ rest }) rfl
      fun member => absurd member gone
  refine ⟨later, (comes.trans (Emits.shown rfl handed pushed)).trans ends,
    keeps'.routing.trans keeps.routing, (keeps'.edit.trans keeps.edit).trans unlocked, idle', ?_,
    ?_⟩
  · exact turn_of_frame (audio'.trans audio) (keeps'.generation.trans keeps.generation)
  · rw [keeps'.slot]
    change Function.update before.slots i _ i = _
    rw [Function.update_self, keeps.slot]
    rfl

theorem step_service {now : UInt64} {generation : Nat} {j : Fin slotCount}
    {remaining : List (Fin slotCount)}
    (status : s.audio = .running now generation (j :: remaining)) :
    s.step parse .service = some { s.touch j (.serviced now) with
      audio := ((s.slots j).service now).2.elim (.running now generation remaining) fun block =>
        .holding now generation j block (s.history.log j) remaining } := by
  simp only [step, audioStep, status]
  cases ((s.slots j).service now).2 with
  | none => rfl
  | some block => rfl

/-- Without reconfiguration, `audio_loop` comes to the slot in its pass. -/
theorem plain_pulled (sound : Sound parse t) {now : UInt64} (due : (t.turn i).due = some now) :
    ∃ later, Calm parse i t (((t.slots i).service now).2.toList.map .pulled) later ∧
      later.routing = t.routing ∧ later.edit = t.edit ∧ later.network = t.network ∧
      (later.turn i).due = none ∧ later.slots i = (Entry.serviced now).apply (t.slots i) := by
  obtain ⟨current, ahead⟩ : ∃ current, t.turn i = .ahead now current := by
    cases turn : t.turn i with
    | ahead now' current =>
      rw [turn] at due
      cases due
      exact ⟨current, rfl⟩
    | away | holding | playing =>
      rw [turn] at due
      cases due
  obtain ⟨before, generation, rest, emits, keeps, network, reached, _⟩ :=
    audio_reaches parse ahead
  have once := (run_sound emits sound).tidy.audio
  rw [reached] at once
  have gone := (List.nodup_cons.mp once.2).1
  have seen : observe i before .service = ((t.slots i).service now).2.toList.map .pulled := by
    simp [observe, reached, keeps.slot]
  have serviced : before.step parse .service = _ := step_service reached
  refine ⟨_, emits.trans (Emits.shown rfl serviced seen), keeps.routing, keeps.edit, network, ?_,
    ?_⟩
  · cases result : ((before.slots i).service now).2 with
    | none => simp [turn, gone, Turn.due]
    | some block => simp [turn, Turn.due]
  · change Function.update before.slots i _ i = _
    rw [Function.update_self, keeps.slot]

theorem turn_away {now : UInt64} {generation : Nat} {remaining : List (Fin slotCount)}
    (status : t.audio = .running now generation remaining) (gone : i ∉ remaining) :
    t.turn i = .away := by
  simp [turn, status, gone]

theorem plain_drained (sound : Sound parse t) (due : (t.turn i).due = none) :
    ∃ later, Plain parse i t [] later ∧ Keeps i t later ∧ later.network = t.network ∧
      later.audio = .idle := by
  have once := sound.tidy.audio
  have rest {state : Receiver} {events : List SlotEvent} (shown : Calm parse i t events state)
      (unseen : events.filterMap SlotEvent.buffered? = []) (kept : Keeps i t state)
      (network : state.network = t.network) (away : state.turn i = .away) :
      ∃ later, Plain parse i t [] later ∧ Keeps i t later ∧ later.network = t.network ∧
        later.audio = .idle := by
    obtain ⟨later, emits, keeps, network', idle⟩ := audio_settles parse away
    have quiet := Plain.of_calm (shown.trans emits)
    rw [List.filterMap_append, unseen] at quiet
    exact ⟨later, quiet, kept.trans keeps, network'.trans network, idle⟩
  cases turn : t.turn i with
  | away => exact rest (.refl t) rfl (.refl i t) rfl turn
  | ahead =>
    rw [turn] at due
    cases due
  | holding block current =>
    obtain ⟨now, generation, sources, remaining, status, _⟩ := holding_of_turn turn
    rw [status] at once
    have gone := (List.nodup_cons.mp once.2).1
    by_cases current : generation = t.generation
    · let playing : Receiver :=
        { t with audio := .playing now generation i block sources remaining }
      have checked : t.step parse .check = some playing := by
        simp [step, audioStep, status, current, playing]
      have output : playing.step parse .output = some { t with
          audio := .running now generation remaining } := rfl
      have seen : observe i playing .output = [.delivered block] := if_pos rfl
      exact rest ((Emits.shown rfl checked rfl).trans (Emits.shown rfl output seen)) rfl
        ⟨rfl, rfl, rfl, rfl⟩ rfl (turn_away rfl gone)
    · have checked : t.step parse .check = some { t with
          audio := .running now generation remaining } := by
        simp [step, audioStep, status, current]
      exact rest (Emits.shown rfl checked rfl) rfl ⟨rfl, rfl, rfl, rfl⟩ rfl (turn_away rfl gone)
  | playing block =>
    obtain ⟨now, generation, sources, remaining, status⟩ := playing_of_turn turn
    rw [status] at once
    have gone := (List.nodup_cons.mp once.2).1
    have output : t.step parse .output = some { t with
        audio := .running now generation remaining } := by
      simp [step, audioStep, status]
    have seen : observe i t .output = [.delivered block] := by simp [observe, status]
    exact rest (Emits.shown rfl output seen) rfl ⟨rfl, rfl, rfl, rfl⟩ rfl (turn_away rfl gone)

/-- The run without reconfiguration shows the slot's buffer the same and stays its shadow. -/
def Answers (parse : Parse) (i : Fin slotCount) (t : Receiver) (events : List SlotEvent)
    (next : Receiver) : Prop :=
  ∃ later, Plain parse i t events later ∧ Shadowed i next later

namespace Shadowed

theorem still (shadowed : Shadowed i s t) {events : List SlotEvent} (silent : events = [])
    (slot : next.slots i = s.slots i) (routing : next.routing = s.routing)
    (edit : next.edit = s.edit) (audible : NetworkAudible next.network)
    (turn : (next.turn i).due = (s.turn i).due) : Answers parse i t events next := by
  refine ⟨t, silent ▸ .refl t, shadowed.slot.trans slot.symm, shadowed.unlocked, ?_, ?_, audible,
    shadowed.network, shadowed.turn.trans turn.symm⟩
  · exact routing ▸ shadowed.alike
  · rw [routing, edit]
    exact shadowed.edit

theorem configured (sound : Sound parse s) (shadowed : Shadowed i s t)
    (allowed : sparing i s label = true)
    (taken : s.configureStep parse label s.edit = some next) : Shadowed i next t := by
  have network := configure_network taken
  by_cases raise : label = .bump
  · subst raise
    have edit := editAlike_bump shadowed.edit taken
    obtain ⟨edit', rfl⟩ := bump_taken taken
    refine ⟨shadowed.slot, shadowed.unlocked, shadowed.alike, edit, shadowed.audible,
      shadowed.network, shadowed.turn.trans ?_⟩
    rw [turn_raised sound.tidy]
    cases s.turn i with
    | away | ahead | holding | playing => rfl
  · have coupled := Receiver.configured sound shadowed.edit allowed raise taken
    refine ⟨shadowed.slot.trans coupled.slot, shadowed.unlocked,
      shadowed.alike.trans coupled.alike, coupled.edit, ?_, shadowed.network, ?_⟩
    · rw [network]
      exact shadowed.audible
    · rw [shadowed.turn]
      exact congrArg Turn.due coupled.turn

/-- Both runs push the datagram. -/
theorem handed (sound : Sound parse s) (sound' : Sound parse t) (shadowed : Shadowed i s t)
    {route : Routing} {d : Datagram} {remaining : List (Fin slotCount)}
    (status : s.network = .visiting route d (i :: remaining)) (hears : route.hears d i = true)
    (current : route.generation = s.generation) (now : UInt64) :
    Answers parse i t [.handed d now] { s.touch i (.received d now s.generation) with
      network := .visiting route d remaining } := by
  obtain ⟨rfl, socket⟩ := visiting_in_force sound.main status current
  have audible := shadowed.audible
  rw [status] at audible
  have accepted : t.accepts i d = true := by
    rw [shadowed.alike.accepts]
    have audio : d.audio = true := audible
    simp [accepts, hears, socket, audio]
  obtain ⟨later, calm, routing, unlocked, idle, turn, slot⟩ :=
    plain_handed sound' shadowed.unlocked shadowed.network accepted now
  refine ⟨later, Plain.of_calm calm, ?_, unlocked, routing ▸ shadowed.alike, shadowed.edit,
    audible, idle, ?_⟩
  · change _ = Function.update s.slots i _ i
    rw [Function.update_self, slot, shadowed.slot]
    rfl
  · rw [turn]
    exact shadowed.turn

theorem listened (sound : Sound parse s) (sound' : Sound parse t) (shadowed : Shadowed i s t)
    (of_network : s.step parse label = s.networkStep label s.network)
    (taken : s.step parse label = some next) :
    Answers parse i t (buffer i s label) next := by
  have taken' := of_network ▸ taken
  have audible := shadowed.audible
  unfold networkStep at taken'
  split at taken'
  · split at taken'
    · cases taken'
    · cases taken'
      exact shadowed.still rfl rfl rfl rfl trivial rfl
  · cases taken'
    exact shadowed.still rfl rfl rfl rfl trivial rfl
  · rename_i bytes sender route status
    obtain ⟨socket, bound, rfl⟩ := Option.map_eq_some_iff.mp taken'
    refine shadowed.still ?_ rfl rfl rfl trivial rfl
    rw [buffer, arrive_observed status bound]
    split <;> rfl
  · split at taken'
    · cases taken'
    · split at taken'
      · cases taken'
        exact shadowed.still rfl rfl rfl rfl trivial rfl
      · split at taken'
        · rename_i audio
          cases taken'
          rw [Bool.and_eq_true] at audio
          exact shadowed.still rfl rfl rfl rfl audio.2 rfl
        · cases taken'
          exact shadowed.still rfl rfl rfl rfl trivial rfl
  · rename_i now route d j remaining status
    rw [status] at audible
    by_cases live : j = i ∧ route.hears d i = true ∧ route.generation = s.generation
    · obtain ⟨rfl, hears, current⟩ := live
      have seen : buffer j s (.visit now) = [.handed d now] := by
        simp [buffer, observe, status, hears, current, SlotEvent.buffered?]
      rw [visit_taken status hears current] at taken
      cases taken
      rw [seen]
      exact handed sound sound' shadowed status hears current now
    · have unseen : buffer i s (.visit now) = [] := by simp [buffer, observe, status, live]
      split at taken'
      · rename_i hears
        split at taken'
        · cases taken'
          exact shadowed.still unseen rfl rfl rfl trivial rfl
        · rename_i current
          cases taken'
          have other : j ≠ i := by
            rintro rfl
            exact live ⟨rfl, hears, not_not.mp current⟩
          exact shadowed.still unseen (keeps_touch other s _).slot rfl rfl audible rfl
      · cases taken'
        exact shadowed.still unseen rfl rfl rfl audible rfl
  · rename_i status
    cases taken'
    exact shadowed.still (by simp [buffer, observe, status]) rfl rfl rfl trivial rfl
  · cases taken'

theorem woken (sound' : Sound parse t) (shadowed : Shadowed i s t) (status : s.audio = .idle)
    (now : UInt64) :
    Answers parse i t [] { s with
      audio := .running now s.generation (List.finRange slotCount) } := by
  have due : (t.turn i).due = none := by
    rw [shadowed.turn, turn_of_idle status]
    rfl
  obtain ⟨later, emits, keeps, network, idle⟩ := plain_drained sound' due
  have woken : later.step parse (.wake now) = some { later with
      audio := .running now later.generation (List.finRange slotCount) } := by
    simp [step, audioStep, idle]
  refine ⟨_, emits.trans (Plain.of_calm (Emits.shown rfl woken rfl)),
    keeps.slot.trans shadowed.slot, keeps.edit.trans shadowed.unlocked, ?_, shadowed.edit,
    shadowed.audible, network.trans shadowed.network, ?_⟩
  · exact keeps.routing ▸ shadowed.alike
  · simp [Receiver.turn, Turn.due]

theorem pulled (sound : Sound parse s) (sound' : Sound parse t) (shadowed : Shadowed i s t)
    {now : UInt64} {generation : Nat} {remaining : List (Fin slotCount)}
    (status : s.audio = .running now generation (i :: remaining))
    (taken : s.step parse .service = some next) : Answers parse i t (buffer i s .service) next := by
  have due : (t.turn i).due = some now := by
    rw [shadowed.turn]
    simp [Receiver.turn, status, Turn.due]
  have once := sound.tidy.audio
  rw [status] at once
  have gone := (List.nodup_cons.mp once.2).1
  obtain ⟨later, calm, routing, edit, network, drained, slot⟩ := plain_pulled sound' due
  have seen : buffer i s .service =
      (((t.slots i).service now).2.toList.map .pulled).filterMap SlotEvent.buffered? := by
    simp [buffer, observe, status, shadowed.slot]
  rw [step_service status] at taken
  cases taken
  rw [seen]
  refine ⟨later, Plain.of_calm calm, ?_, edit.trans shadowed.unlocked, routing ▸ shadowed.alike,
    shadowed.edit, shadowed.audible, network.trans shadowed.network, drained.trans ?_⟩
  · change _ = Function.update s.slots i _ i
    rw [Function.update_self, slot, shadowed.slot]
  · cases result : ((s.slots i).service now).2 with
    | none => simp [Receiver.turn, gone, Turn.due]
    | some block => simp [Receiver.turn, Turn.due]

theorem played (sound : Sound parse s) (sound' : Sound parse t) (shadowed : Shadowed i s t)
    (of_audio : s.step parse label = s.audioStep label s.audio)
    (taken : s.step parse label = some next) :
    Answers parse i t (buffer i s label) next := by
  have taken' := of_audio ▸ taken
  have once := sound.tidy.audio
  unfold audioStep at taken'
  split at taken'
  · rename_i now status
    cases taken'
    exact woken sound' shadowed status now
  · rename_i now generation j remaining status
    by_cases here : j = i
    · subst here
      exact pulled sound sound' shadowed status taken
    · have coupled := serviced_coupled (.relaxed shadowed.edit) status here taken
      cases taken'
      refine shadowed.still (by simp [buffer, observe, status, here]) ?_ rfl rfl shadowed.audible
        (congrArg Turn.due coupled.turn).symm
      exact (keeps_touch here s (.serviced now)).slot
  · rename_i status
    cases taken'
    refine shadowed.still (by simp [buffer, observe, status]) rfl rfl rfl shadowed.audible ?_
    simp [Receiver.turn, status]
  · rename_i now generation j block sources remaining status
    rw [status] at once
    have gone := (List.nodup_cons.mp once.2).1
    split at taken'
    · cases taken'
      refine shadowed.still rfl rfl rfl rfl shadowed.audible ?_
      by_cases here : j = i
      · subst here
        simp [Receiver.turn, status, gone, Turn.due]
      · simp [Receiver.turn, status, here]
    · cases taken'
      refine shadowed.still rfl rfl rfl rfl shadowed.audible ?_
      by_cases here : j = i
      · simp [Receiver.turn, status, here, Turn.due]
      · simp [Receiver.turn, status, here]
  · rename_i now generation j block sources remaining status
    rw [status] at once
    have gone := (List.nodup_cons.mp once.2).1
    cases taken'
    refine shadowed.still ?_ rfl rfl rfl shadowed.audible ?_
    · simp only [buffer, observe, status]
      split <;> rfl
    · by_cases here : j = i
      · subst here
        simp [Receiver.turn, status, gone, Turn.due]
      · simp [Receiver.turn, status, here]
  · cases taken'

theorem answers (sound : Sound parse s) (sound' : Sound parse t) (shadowed : Shadowed i s t)
    (allowed : sparing i s label = true) (taken : s.step parse label = some next) :
    Answers parse i t (buffer i s label) next := by
  cases label with
  | prepare | bump | reset | publish =>
    exact ⟨t, .refl t, configured sound shadowed allowed taken⟩
  | snapshot | arrive | retry | reroute | visit => exact listened sound sound' shadowed rfl taken
  | wake | service | check | output => exact played sound sound' shadowed rfl taken

end Shadowed

theorem audible_step (s : Receiver) (label : Label) (next : Receiver)
    (audible : NetworkAudible s.network) (taken : s.step parse label = some next) :
    NetworkAudible next.network := by
  cases label with
  | prepare | bump | reset | publish =>
    rw [configure_network taken]
    exact audible
  | snapshot | arrive | retry | reroute | visit =>
    change networkStep _ _ _ = _ at taken
    unfold networkStep at taken
    split at taken
    · split at taken
      · cases taken
      · cases taken
        trivial
    · cases taken
      trivial
    · obtain ⟨socket, _, rfl⟩ := Option.map_eq_some_iff.mp taken
      trivial
    · split at taken
      · cases taken
      · split at taken
        · cases taken
          trivial
        · split at taken
          · rename_i audio
            cases taken
            exact (Bool.and_eq_true_iff.mp audio).2
          · cases taken
            trivial
    · rename_i status
      rw [status] at audible
      split at taken
      · split at taken
        · cases taken
          trivial
        · cases taken
          exact audible
      · cases taken
        exact audible
    · cases taken
      trivial
    · cases taken
  | wake | service | check | output =>
    rw [audio_network taken]
    exact audible

/-- `receive_loop` has given up its datagram. -/
def released (s : Receiver) : Receiver := { s with network := .idle }

theorem sound_released (sound : Sound parse s) : Sound parse s.released :=
  ⟨invariant_network sound.main trivial, sound.tidy.bound, sound.tidy.edit, trivial,
    sound.tidy.audio⟩

theorem shadowed_self (idle : s.edit = .idle) (audible : NetworkAudible s.network)
    (i : Fin slotCount) : Shadowed i s s.released := by
  refine ⟨rfl, idle, .refl i _, ?_, audible, rfl, rfl⟩
  rw [idle]
  trivial

/-- Every run that leaves the slot alone has its shadow. -/
theorem shadowed_run {final : Receiver} (reached : Reachable (Receiver.step parse) {} s)
    (idle : s.edit = .idle) (i : Fin slotCount) {labels : List Label}
    (spared : allAlong (Receiver.step parse) (sparing i) s labels = true)
    (ran : run (Receiver.step parse) s labels = some final) :
    ∃ plain other, (∀ label ∈ plain, (!label.configures) = true) ∧
      run (Receiver.step parse) s.released plain = some other ∧
      (seen parse i s.released plain).filterMap SlotEvent.buffered? =
        (seen parse i s labels).filterMap SlotEvent.buffered? ∧
      Shadowed i final other := by
  have sound := sound_reachable reached
  let Both := fun state other => Sound parse state ∧ Sound parse other ∧ Shadowed i state other
  let Audible := fun state : Receiver => NetworkAudible state.network
  have silent : Audible {} := trivial
  have audible : Audible s := reached.invariant audible_step silent
  have start : Both s s.released :=
    ⟨sound, sound_released sound, shadowed_self idle audible i⟩
  obtain ⟨other, ⟨plain, kind, ran', same⟩, _, _, shadowed⟩ := simulated Both
    (fun state label next other both allowed taken => by
      obtain ⟨sound, sound', shadowed⟩ := both
      obtain ⟨later, emits, shadowed'⟩ := shadowed.answers sound sound' allowed taken
      exact ⟨later, emits, sound_step state label next sound taken,
        emits.invariant sound_step sound', shadowed'⟩) start spared ran
  refine ⟨plain, other, kind, ran', ?_, shadowed⟩
  unfold buffer at same
  rwa [observed_filterMap, observed_filterMap] at same

end

/-- What passes between the loops and a slot in a run, and what new generations cost it. -/
def ledger (parse : Parse) (i : Fin slotCount) (s : Receiver) (labels : List Label) :
    List SlotEvent :=
  observed (step parse) (account i) s labels

end Receiver

/-- A run in which reconfiguration leaves a slot alone: every matching datagram that is
read is pushed or overtaken, every block that is pulled is delivered or withheld, both in
order, and some run without reconfiguration, in which nothing is overtaken or withheld,
shows the slot's buffer the same. If no generation begins while a loop is between its look
at the routing and its check on the slot's behalf, nothing is lost at all. -/
theorem untouched_slot_transparent {parse : Parse} {s final : Receiver}
    (reached : Reachable (Receiver.step parse) {} s) (idle : s.edit = .idle) (i : Fin slotCount)
    {labels : List Receiver.Label} (ran : run (Receiver.step parse) s labels = some final)
    (spared : allAlong (Receiver.step parse) (Receiver.sparing i) s labels = true) :
    (s.inFlight i ++ (Receiver.ledger parse i s labels).filterMap SlotEvent.read? =
      (Receiver.ledger parse i s labels).filterMap SlotEvent.settled? ++ final.inFlight i) ∧
    (s.inHand i ++ (Receiver.ledger parse i s labels).filterMap SlotEvent.pulled? =
      (Receiver.ledger parse i s labels).filterMap SlotEvent.released? ++ final.inHand i) ∧
    (∃ plain other, (∀ label ∈ plain, (!label.configures) = true) ∧
      run (Receiver.step parse) s.released plain = some other ∧
      (Receiver.seen parse i s.released plain).filterMap SlotEvent.buffered? =
        (Receiver.seen parse i s labels).filterMap SlotEvent.buffered? ∧
      other.slots i = final.slots i ∧
      (Receiver.seen parse i s.released plain).filterMap SlotEvent.read? =
        (Receiver.seen parse i s.released plain).filterMap SlotEvent.handed? ∧
      ((∀ now, s.turn i ≠ .ahead now false) →
        s.inHand i ++ (Receiver.seen parse i s.released plain).filterMap SlotEvent.pulled? =
          (Receiver.seen parse i s.released plain).filterMap SlotEvent.delivered? ++
            other.inHand i)) ∧
    (allAlong (Receiver.step parse) (Receiver.undisturbed i) s labels = true →
      (s.inFlight i ++ (Receiver.seen parse i s labels).filterMap SlotEvent.read? =
        (Receiver.seen parse i s labels).filterMap SlotEvent.handed? ++ final.inFlight i) ∧
      ((∀ now, s.turn i ≠ .ahead now false) →
        s.inHand i ++ (Receiver.seen parse i s labels).filterMap SlotEvent.pulled? =
          (Receiver.seen parse i s labels).filterMap SlotEvent.delivered? ++ final.inHand i) ∧
      ∃ calm other, (∀ label ∈ calm, (!label.configures) = true) ∧
        run (Receiver.step parse) s calm = some other ∧
        Receiver.seen parse i s calm = Receiver.seen parse i s labels ∧
        other.slots i = final.slots i) := by
  have sound := Receiver.sound_reachable reached
  let Inv := fun state : Receiver =>
    Receiver.Sound parse state ∧ Receiver.EditAlike i state.routing state.edit
  have start : Inv s := ⟨sound, idle ▸ trivial⟩
  have preserved : ∀ state label next, Inv state → Receiver.sparing i state label = true →
      state.step parse label = some next → Inv next := fun state label next inv allowed taken =>
    ⟨Receiver.sound_step state label next inv.1 taken,
      Receiver.editAlike_step inv.1 inv.2 allowed taken⟩
  refine ⟨?_, ?_, ?_, fun undisturbed =>
    undisturbed_slot_transparent reached idle i ran undisturbed⟩
  · exact observed_queue (fun state => state.inFlight i) _ _ preserved
      (fun _ _ _ inv allowed taken => Receiver.received_balanced inv.1 inv.2 allowed taken)
      start spared ran
  · exact observed_queue (fun state => state.inHand i) _ _ preserved
      (fun _ _ _ inv allowed taken => Receiver.pulled_balanced inv.1 inv.2 allowed taken)
      start spared ran
  · obtain ⟨plain, other, kind, ran', same, shadowed⟩ :=
      Receiver.shadowed_run reached idle i spared ran
    have calm : Receiver.Calm parse i s.released (Receiver.seen parse i s.released plain) other :=
      ⟨plain, kind, ran', rfl⟩
    have sound' := Receiver.sound_released sound
    have idle' : s.released.edit = .idle := idle
    refine ⟨plain, other, kind, ran', same, shadowed.slot, ?_, fun fresh => ?_⟩
    · have handed := Receiver.calm_handed sound' idle' calm
      have ended : other.inFlight i = [] := by
        simp [Receiver.inFlight, Receiver.incoming, shadowed.network]
      rwa [ended, List.append_nil] at handed
    · exact Receiver.calm_delivered (t := s.released) sound' idle' fresh calm

def Edit.isIdle : Edit → Bool
  | .idle => true
  | _ => false

theorem Edit.isIdle_iff {edit : Edit} : edit.isIdle = true ↔ edit = .idle := by
  cases edit <;> simp [isIdle]

def Audio.isIdle : Audio → Bool
  | .idle => true
  | _ => false

theorem Audio.isIdle_iff {audio : Audio} : audio.isIdle = true ↔ audio = .idle := by
  cases audio <;> simp [isIdle]

/-- The same stream under another label. -/
def relabelled : Config :=
  { listening "10.0.0.1" with
    slots := fun i => { (listening "10.0.0.1").slots i with label := "Guest" } }

/-- A packet, a new label, and the packet's block. -/
def relabelledBetween : List Receiver.Label :=
  received ++ applied relabelled ++ [.wake 30001000, .service, .check, .output]

theorem untouched_slot_transparent_relabelled :
    ∃ s final, run (Receiver.step twoSenders) s relabelledBetween = some final ∧
      ((Receiver.seen twoSenders 0 s relabelledBetween).filterMap
        SlotEvent.delivered?).length = 1 ∧
      (s.inHand 0 ++
        (Receiver.ledger twoSenders 0 s relabelledBetween).filterMap SlotEvent.pulled? =
          (Receiver.ledger twoSenders 0 s relabelledBetween).filterMap SlotEvent.released? ++
            final.inHand 0) ∧
      (s.inHand 0 ++ (Receiver.seen twoSenders 0 s relabelledBetween).filterMap SlotEvent.pulled? =
        (Receiver.seen twoSenders 0 s relabelledBetween).filterMap SlotEvent.delivered? ++
          final.inHand 0) ∧
      ∃ calm other, (∀ label ∈ calm, (!label.configures) = true) ∧
        run (Receiver.step twoSenders) s calm = some other ∧
        Receiver.seen twoSenders 0 s calm = Receiver.seen twoSenders 0 s relabelledBetween ∧
        other.slots 0 = final.slots 0 := by
  have ran : (run (Receiver.step twoSenders) {} (applied (listening "10.0.0.1"))).any (fun s =>
      s.edit.isIdle && s.audio.isIdle &&
      (run (Receiver.step twoSenders) s relabelledBetween).isSome &&
      allAlong (Receiver.step twoSenders) (Receiver.sparing 0) s relabelledBetween &&
      allAlong (Receiver.step twoSenders) (Receiver.undisturbed 0) s relabelledBetween &&
      ((Receiver.seen twoSenders 0 s relabelledBetween).filterMap
        SlotEvent.delivered?).length == 1) = true := by decide +kernel
  obtain ⟨s, reached, checked⟩ := (Option.any_eq_true _ _).mp ran
  simp only [Bool.and_eq_true, beq_iff_eq] at checked
  obtain ⟨⟨⟨⟨⟨edit, audio⟩, goes⟩, spared⟩, undisturbed⟩, delivered⟩ := checked
  obtain ⟨final, ran'⟩ := Option.isSome_iff_exists.mp goes
  have fresh (now : UInt64) : s.turn 0 ≠ .ahead now false := by
    rw [Receiver.turn_of_idle (Audio.isIdle_iff.mp audio)]
    simp
  obtain ⟨_, released, _, transparent⟩ :=
    untouched_slot_transparent ⟨_, reached⟩ (Edit.isIdle_iff.mp edit) 0 ran' spared
  obtain ⟨_, delivers, calm⟩ := transparent undisturbed
  exact ⟨s, final, ran', delivered, released, delivers fresh, calm⟩

/-- A new generation between the look at the routing and the push. -/
def overtaken : List Receiver.Label :=
  [.snapshot, .arrive burst 1, .reroute, .prepare relabelled, .bump, .visit 1000] ++
    List.replicate 8 .reset ++ [.publish]

set_option maxRecDepth 4000 in
/-- A new label loses a packet of the slot, which is handed over without it. -/
theorem relabelling_drops :
    ∃ s final, Reachable (Receiver.step twoSenders) {} s ∧ s.edit = .idle ∧
      run (Receiver.step twoSenders) s overtaken = some final ∧
      (∀ config, .prepare config ∈ overtaken → s.routing.changes config 0 = false) ∧
      final.edit = .idle ∧ final.network = .idle ∧
      ((Receiver.seen twoSenders 0 s overtaken).filterMap SlotEvent.read?).length = 1 ∧
      (Receiver.seen twoSenders 0 s overtaken).filterMap SlotEvent.handed? = [] ∧
      ((Receiver.seen twoSenders 0 s
        (overtaken.filter fun label => !label.configures)).filterMap
          SlotEvent.handed?).length = 1 := by
  refine ⟨_, _, ⟨applied (listening "10.0.0.1"), rfl⟩, rfl, rfl, ?_, rfl, rfl, ?_, ?_, ?_⟩
  · intro config member
    simp only [overtaken, List.mem_append, List.mem_cons, List.mem_replicate] at member
    have same : config = relabelled := by simpa using member
    subst same
    rfl
  · rfl
  · rfl
  · rfl

end VbanStream
