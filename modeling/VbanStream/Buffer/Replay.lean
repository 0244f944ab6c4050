import VbanStream.Buffer.Starvation
import VbanStream.Buffer.Wraparound

/-! Packets that are played again: never within a session, and in a later session
only where a copy of a played packet finds no newer session than its own. -/

namespace VbanStream

open Library StreamBuffer

theorem filled_pending {frames : Nat} {b after : StreamBuffer} {visits : List Visit} {ok : Bool}
    (filled : Filled frames b visits after ok) :
    ∀ packet ∈ after.pending, packet ∈ b.pending := by
  induction filled with
  | enough | starved => exact fun _ member => member
  | turn _ found _ ih =>
    exact fun packet member => (visit_pending found).2 packet (ih packet member)

/-- The packets of one sender, numbered without gaps, in one format. -/
structure Stream where
  start : UInt32
  packet : Nat → Packet
  numbered : ∀ k, (packet k).sequence = serial start k
  layout : ∀ k, (packet k).format = (packet 0).format

/-- One of the first `2 ^ 31` packets of the stream. -/
def Stream.Sends (stream : Stream) (packet : Packet) : Prop :=
  ∃ k < 2 ^ 31, packet = stream.packet k

/-- What a network may deliver of a stream, whatever it drops, delays, reorders or
duplicates. -/
def Operation.From (stream : Stream) : Operation → Prop
  | .push packet _ => stream.Sends packet ∧ ∃ data size, decode data size = .ok packet
  | .pull _ => True
  | .reset => False

section Placed

variable {stream : Stream} {origin : Nat} {channels : Nat} {events : List Event} {r : Reference}

/-- A session that was opened by packet `origin` stands at the packets of the
stream, and has played them in their order. -/
structure Placed (stream : Stream) (origin : Nat) (events : List Event) (r : Reference) : Prop where
  played : ∃ indices : List Nat,
    events.filterMap Event.number = indices.map (serial stream.start) ∧
      indices.Pairwise (· < ·) ∧ ∀ index ∈ indices, index < origin + r.position
  limit : origin + r.position ≤ 2 ^ 31
  pending : ∀ packet ∈ r.pending,
    ∃ k < 2 ^ 31, packet = stream.packet k ∧ origin + r.position ≤ k

theorem placed_distance {k : Nat} (later : origin + r.position ≤ k) (bound : k < 2 ^ 31) :
    r.distance (serial stream.start origin) (stream.packet k) = k - (origin + r.position) := by
  have place : serial (serial stream.start origin) r.position =
      serial stream.start (origin + r.position) := (serial_add _ _ _).symm
  rw [Reference.distance, stream.numbered, place, ahead_serial _ later (by omega)]

theorem number_silent {event : Event} (silent : event.number = none) :
    (events ++ [event]).filterMap Event.number = events.filterMap Event.number := by
  rw [List.filterMap_append, List.filterMap_cons_none silent, List.filterMap_nil, List.append_nil]

theorem placed_stored (inv : Placed stream origin events r) {k : Nat} (bound : k < 2 ^ 31)
    (near : r.distance (serial stream.start origin) (stream.packet k) ≤ 512) :
    origin + r.position ≤ k := by
  by_contra missed
  have earlier : k < origin + r.position := Nat.lt_of_not_le missed
  have limit := inv.limit
  have place : serial (serial stream.start origin) r.position =
      serial stream.start (origin + r.position) := (serial_add _ _ _).symm
  have far := ahead_serial_behind stream.start earlier (by omega)
  rw [Reference.distance, stream.numbered, place] at near
  omega

/-- A gap is crossed up to the nearest pending packet at most. -/
theorem placed_forward (inv : Placed stream origin events r) {event : Event}
    (silent : event.number = none) {next : Reference} (same : next.pending = r.pending)
    (order : r.position ≤ next.position) {nearest : Packet}
    (first : r.Nearest (serial stream.start origin) nearest)
    (reach : next.position ≤ r.position + r.distance (serial stream.start origin) nearest) :
    Placed stream origin (events ++ [event]) next := by
  obtain ⟨⟨indices, numbers, ordered, behind⟩, limit, pending⟩ := inv
  obtain ⟨k, bound, rfl, later⟩ := pending nearest first.member
  rw [placed_distance later bound] at reach
  refine ⟨⟨indices, (number_silent silent).trans numbers, ordered, fun index listed => ?_⟩, ?_,
    fun other old => ?_⟩
  · have before := behind index listed
    omega
  · omega
  · rw [same] at old
    obtain ⟨index, bound', rfl, later'⟩ := pending other old
    have least := first.least _ old
    rw [placed_distance later bound, placed_distance later' bound'] at least
    exact ⟨index, bound', rfl, by omega⟩

theorem placed_step (inv : Placed stream origin events r) {event : Event} {next : Reference}
    (taken : Reference.Step (serial stream.start origin) channels r event next)
    (sent : ∀ packet, event = .stored packet → stream.Sends packet) :
    Placed stream origin (events ++ [event]) next := by
  cases taken with
  | @stored packet fresh near =>
    have ⟨⟨indices, numbers, order, behind⟩, limit, pending⟩ := inv
    refine ⟨⟨indices, (number_silent rfl).trans numbers, order, behind⟩, limit, ?_⟩
    rintro other (rfl | old)
    · obtain ⟨k, bound, rfl⟩ := sent other rfl
      exact ⟨k, bound, rfl, placed_stored inv bound near⟩
    · exact pending other old
  | @played packet member here =>
    obtain ⟨⟨indices, numbers, order, behind⟩, limit, pending⟩ := inv
    obtain ⟨k, bound, rfl, later⟩ := pending packet member
    rw [placed_distance later bound] at here
    have place : k = origin + r.position := by omega
    refine ⟨⟨indices ++ [k], ?_, ?_, ?_⟩, ?_, ?_⟩
    · rw [List.filterMap_append, List.map_append, numbers]
      simp [Event.number, stream.numbered]
    · refine List.pairwise_append.mpr ⟨order, List.pairwise_singleton _ _, ?_⟩
      intro index old last same
      rw [List.mem_singleton.mp same, place]
      exact behind index old
    · intro index listed
      dsimp only
      rcases List.mem_append.mp listed with old | new
      · have before := behind index old
        omega
      · rw [List.mem_singleton.mp new]
        omega
    · dsimp only
      omega
    · rintro other ⟨old, apart⟩
      obtain ⟨index, bound', rfl, later'⟩ := pending other old
      refine ⟨index, bound', rfl, ?_⟩
      have different : index ≠ k := by
        rintro rfl
        exact apart rfl
      dsimp only
      omega
  | @concealed next last nearest bridged =>
    have gap := nearest.apart
    exact placed_forward inv rfl rfl (Nat.le_succ _) nearest (by dsimp only; omega)
  | @jumped next nearest unlike =>
    exact placed_forward inv rfl rfl (Nat.le_add_right _ _) nearest le_rfl

theorem placed_path (bound : origin < 2 ^ 31)
    (path : Path (Reference.Step (serial stream.start origin) channels) {} events r)
    (sent : ∀ packet, .stored packet ∈ events → stream.Sends packet) :
    Placed stream origin events r := by
  induction path with
  | nil => exact ⟨⟨[], rfl, .nil, by simp⟩, Nat.le_of_lt bound, by simp⟩
  | snoc before taken ih =>
    have earlier := ih fun packet member => sent packet (List.mem_append_left _ member)
    refine placed_step earlier taken ?_
    rintro packet rfl
    exact sent packet (by simp)

end Placed

/-- A session of stream packets plays none twice, and none older than the packet
that opened it waits. -/
theorem session_placed {stream : Stream} {s : Session} {final : Reference}
    (renders : s.Renders final) (sent : ∀ packet, .stored packet ∈ s.events → stream.Sends packet) :
    s.numbers.Nodup ∧ ∀ packet ∈ final.pending, ¬ Newer packet.sequence s.opening.sequence := by
  obtain ⟨origin, bound, opening⟩ := sent s.opening (List.mem_of_mem_head? renders.opened)
  have path := renders.path
  rw [opening, stream.numbered] at path
  obtain ⟨⟨indices, numbers, order, behind⟩, limit, pending⟩ := placed_path bound path sent
  constructor
  · have distinct : (indices.map (serial stream.start)).Nodup := by
      refine List.Nodup.map_on ?_ (order.imp Nat.ne_of_lt)
      intro first one second two same
      have low := behind first one
      have high := behind second two
      have turns := serial_eq_iff.mp same
      omega
    rw [Session.numbers, numbers]
    exact distinct
  · intro packet member
    obtain ⟨k, small, rfl, later⟩ := pending packet member
    rw [opening, stream.numbered, stream.numbered]
    rintro ⟨positive, near⟩
    rcases Nat.eq_or_lt_of_le ((Nat.le_add_right origin _).trans later) with same | older
    · rw [same, ahead_self] at positive
      omega
    · have far := ahead_serial_behind stream.start older (by omega)
      omega

namespace Playout

/-- What a push does to the record: it opens a session, joins one, or is refused. -/
theorem push_record (p : Playout) (packet : Packet) (now : UInt64) :
    (p.push packet now).buffer.initialized = true ∧
    (((p.push packet now).past = p.sessions ∧
        (p.push packet now).session = { opening := packet, events := [.stored packet] } ∧
        ∀ other ∈ (p.push packet now).buffer.pending, other = packet) ∨
      (p.buffer.initialized = true ∧ (p.push packet now).past = p.past ∧
        (p.push packet now).session =
          { p.session with events := p.session.events ++ [.stored packet] } ∧
        ∀ other ∈ (p.push packet now).buffer.pending,
          other ∈ p.buffer.pending ∨ other = packet) ∨
      (p.buffer.initialized = true ∧ (p.push packet now).past = p.past ∧
        (p.push packet now).session = p.session ∧
        (p.push packet now).buffer.pending = p.buffer.pending)) := by
  refine ⟨(p.buffer.push_schedule packet now).2.2.2.2.1, ?_⟩
  unfold push
  dsimp only
  cases restarts : p.buffer.restarts packet now with
  | true =>
    obtain ⟨counters, newest, pushed⟩ := push_restarted restarts
    refine .inl ⟨rfl, rfl, fun other member => ?_⟩
    simp only [pushed] at member
    rcases (Keyed.mem_emplace rfl).mp member with old | same
    · exact absurd old (Keyed.not_mem_empty other)
    · exact same
  | false =>
    have opens : p.buffer.opens packet now = false := by
      simp only [StreamBuffer.restarts, Bool.or_eq_false_iff] at restarts
      exact restarts.1
    have running := (not_opens opens).1
    simp only [Bool.false_eq_true, if_false]
    cases accepted : p.buffer.accepts packet now with
    | true =>
      obtain ⟨⟨counters, newest, pushed⟩, _, fresh, _⟩ := push_joined restarts accepted
      refine .inr (.inl ⟨running, rfl, rfl, fun other member => ?_⟩)
      simp only [pushed] at member
      exact (Keyed.mem_emplace fresh).mp member
    | false =>
      obtain ⟨counters, pushed⟩ := push_of_refuses accepted
      refine .inr (.inr ⟨running, rfl, rfl, ?_⟩)
      simp only [pushed]

/-- An emission plays pending packets and leaves no other pending. -/
theorem emit_record (s : Session) (b : StreamBuffer) :
    (∀ packet, .stored packet ∈ (s.emit b).events → .stored packet ∈ s.events) ∧
      (∀ number ∈ (s.emit b).numbers, number ∈ s.numbers ∨
        ∃ packet ∈ b.pending, packet.sequence = number) ∧
      ∀ packet ∈ b.emit.1.pending, packet ∈ b.pending := by
  have filled := b.correct.fill_filled b.consume
  obtain ⟨_, played, _⟩ := filled_sounds filled
  refine ⟨fun packet member => ?_, fun number member => ?_, fun packet member => ?_⟩
  · rcases List.mem_append.mp member with old | new
    · exact old
    · obtain ⟨visit, _, event⟩ := List.mem_flatMap.mp new
      cases visit <;> simp [Visit.events] at event
  · simp only [Session.numbers, Session.emit, List.filterMap_append] at member
    rcases List.mem_append.mp member with old | new
    · exact .inl old
    · obtain ⟨event, inside, named⟩ := List.mem_filterMap.mp new
      obtain ⟨visit, listed, event'⟩ := List.mem_flatMap.mp inside
      cases visit with
      | played packet =>
        cases List.mem_singleton.mp event'
        exact .inr ⟨packet, played packet (.inl listed), Option.some.inj named⟩
      | concealed =>
        cases List.mem_singleton.mp event'
        cases named
      | jumped next =>
        simp only [Visit.events, List.mem_cons, List.not_mem_nil, or_false] at event'
        rcases event' with rfl | rfl
        · cases named
        · exact .inr ⟨next, played next (.inr listed), Option.some.inj named⟩
  · obtain ⟨change, prepared, _, _⟩ := b.prepare_eq
    have kept := filled_pending filled
    unfold StreamBuffer.emit at member
    dsimp only at member
    split at member
    · rw [prepared] at member
      exact kept packet member
    · cases member

/-- What a pull does to the record: the session goes on, with what an emission
adds to it, or ends. -/
theorem pull_record (p : Playout) (now : UInt64) :
    ∃ session : Session,
      (session = p.session ∨ ∃ b : StreamBuffer, b.pending = p.buffer.pending ∧
        session = p.session.emit b) ∧
      (((p.pull now).buffer.initialized = true ∧ p.buffer.initialized = true ∧
          (p.pull now).past = p.past ∧ (p.pull now).session = session ∧
          ∀ packet ∈ (p.pull now).buffer.pending, packet ∈ p.buffer.pending) ∨
        ((p.pull now).buffer.initialized = false ∧
          (p.pull now).past =
            if p.buffer.initialized = true then p.past ++ [session] else p.past)) := by
  have ended {after : StreamBuffer} (closed : after.initialized = false) (q : Playout)
      (same : q.buffer = p.buffer) : (if after.initialized then q else q.close).past =
        if p.buffer.initialized = true then q.past ++ [q.session] else q.past := by
    rw [closed, if_neg Bool.false_ne_true, close, same]
    split <;> rfl
  unfold pull
  generalize pulled : p.buffer.pull now = result
  obtain ⟨after, block⟩ := result
  dsimp only
  cases pull_cases pulled with
  | idle =>
    refine ⟨p.session, .inl rfl, ?_⟩
    cases running : p.buffer.initialized with
    | true => exact .inl (by simp [record])
    | false => exact .inr ⟨rfl, by simp [record, close, running]⟩
  | inactive => exact ⟨p.session, .inl rfl, .inr ⟨rfl, ended rfl p rfl⟩⟩
  | suspended => exact ⟨p.session, .inl rfl, .inr ⟨rfl, ended rfl p rfl⟩⟩
  | waiting active =>
    exact ⟨p.session, .inl rfl, .inl (by simp [record, active.running])⟩
  | early active ready =>
    have same := start_fields ready
    have kept := same.2.2.2.2.1.trans active.running
    have pending := same.2.2.2.2.2.2.1
    exact ⟨p.session, .inl rfl, .inl (by simp [record, kept, pending, active.running])⟩
  | @emitted started active ready due fresh =>
    have same := start_fields ready
    have pending := same.2.2.2.2.2.2.1
    refine ⟨p.session.emit started, .inr ⟨started, pending, rfl⟩, ?_⟩
    simp only [record, ready, Option.elim_some]
    cases running : started.emit.1.initialized with
    | true =>
      refine .inl ⟨rfl, active.running, rfl, rfl, fun packet member => ?_⟩
      exact pending ▸ (emit_record p.session started).2.2 packet member
    | false => exact .inr ⟨rfl, by simp [close, active.running]⟩

/-- Everything on record came from the stream. -/
def Sourced (stream : Stream) (p : Playout) : Prop :=
  ∀ session ∈ p.sessions, ∀ packet, .stored packet ∈ session.events → stream.Sends packet

theorem sessions_uninitialized {p : Playout} (closed : p.buffer.initialized = false) :
    p.sessions = p.past := by
  simp [sessions, close, closed]

theorem past_sessions (p : Playout) {session : Session} (member : session ∈ p.past) :
    session ∈ p.sessions := by
  cases running : p.buffer.initialized with
  | true =>
    rw [sessions_initialized running]
    exact List.mem_append_left _ member
  | false => rwa [sessions_uninitialized running]

theorem sourced_push {stream : Stream} {p : Playout} (sourced : Sourced stream p) {packet : Packet}
    (sent : stream.Sends packet) (now : UInt64) : Sourced stream (p.push packet now) := by
  obtain ⟨running, outcome⟩ := p.push_record packet now
  unfold Sourced
  rw [sessions_initialized running]
  intro session member other stored
  rcases List.mem_append.mp member with old | new
  · rcases outcome with ⟨past, _⟩ | ⟨_, past, _⟩ | ⟨_, past, _⟩
    · exact sourced session (past ▸ old) other stored
    · exact sourced session (p.past_sessions (past ▸ old)) other stored
    · exact sourced session (p.past_sessions (past ▸ old)) other stored
  · rw [List.mem_singleton.mp new] at stored
    have current (session' : p.buffer.initialized = true) : p.session ∈ p.sessions := by
      rw [sessions_initialized session']
      exact List.mem_append_right _ (List.mem_singleton_self _)
    rcases outcome with ⟨_, session', _⟩ | ⟨before, _, session', _⟩ | ⟨before, _, session', _⟩
    · rw [session'] at stored
      cases List.mem_singleton.mp stored
      exact sent
    · rw [session'] at stored
      rcases List.mem_append.mp stored with earlier | last
      · exact sourced _ (current before) other earlier
      · cases List.mem_singleton.mp last
        exact sent
    · exact sourced _ (current before) other (session' ▸ stored)

theorem sourced_pull {stream : Stream} {p : Playout} (sourced : Sourced stream p) (now : UInt64) :
    Sourced stream (p.pull now) := by
  obtain ⟨session, grown, outcome⟩ := p.pull_record now
  have known (before : p.buffer.initialized = true) (packet : Packet)
      (stored : .stored packet ∈ session.events) : stream.Sends packet := by
    have current : p.session ∈ p.sessions := by
      rw [sessions_initialized before]
      exact List.mem_append_right _ (List.mem_singleton_self _)
    rcases grown with rfl | ⟨b, _, rfl⟩
    · exact sourced _ current packet stored
    · exact sourced _ current packet ((emit_record p.session b).1 packet stored)
  have both (before : p.buffer.initialized = true) {other : Session}
      (member : other ∈ p.past ++ [session]) (packet : Packet)
      (stored : .stored packet ∈ other.events) : stream.Sends packet := by
    rcases List.mem_append.mp member with old | new
    · exact sourced other (p.past_sessions old) packet stored
    · exact known before packet (List.mem_singleton.mp new ▸ stored)
  intro other member packet stored
  rcases outcome with ⟨running, before, past, current, _⟩ | ⟨closed, past⟩
  · rw [sessions_initialized running, past, current] at member
    exact both before member packet stored
  · rw [sessions_uninitialized closed, past] at member
    split at member
    · rename_i before
      exact both before member packet stored
    · exact sourced other (p.past_sessions member) packet stored

/-- A copy of a packet that an ended session has played finds, or opens, a session
of a newer packet. -/
def Superseded (p : Playout) (packet : Packet) (now : UInt64) : Prop :=
  packet.sequence ∈ (p.push packet now).past.flatMap Session.numbers →
    Newer packet.sequence (p.push packet now).session.opening.sequence

/-- The number was not played twice, and is not pending if an ended session has played it. -/
structure Once (p : Playout) (number : UInt32) : Prop where
  past : (p.past.flatMap Session.numbers).count number ≤ 1
  apart : p.buffer.initialized = true →
    number ∈ p.session.numbers → number ∉ p.past.flatMap Session.numbers
  pending : p.buffer.initialized = true →
    ∀ packet ∈ p.buffer.pending, packet.sequence = number →
      number ∉ p.past.flatMap Session.numbers

section Runs

variable {stream : Stream} {p : Playout} {number : UInt32}

theorem current_placed (inv : Invariant p) (sourced : Sourced stream p)
    (running : p.buffer.initialized = true) :
    p.session.numbers.Nodup ∧
      ∀ packet ∈ p.buffer.pending, ¬ Newer packet.sequence p.session.opening.sequence := by
  obtain ⟨before, r, live⟩ := inv.live running
  have current : p.session ∈ p.sessions := by
    rw [sessions_initialized running]
    exact List.mem_append_right _ (List.mem_singleton_self _)
  obtain ⟨distinct, waiting⟩ := session_placed live.renders (sourced _ current)
  exact ⟨distinct, fun packet member => waiting packet ((live.tracks.pending packet).mpr member)⟩

theorem count_session {past : List Session} {session : Session}
    (before : (past.flatMap Session.numbers).count number ≤ 1) (distinct : session.numbers.Nodup)
    (apart : number ∈ session.numbers → number ∉ past.flatMap Session.numbers) :
    ((past ++ [session]).flatMap Session.numbers).count number ≤ 1 := by
  rw [List.flatMap_append, List.flatMap_singleton, List.count_append]
  by_cases member : number ∈ session.numbers
  · rw [List.count_eq_zero_of_not_mem (apart member), Nat.zero_add]
    exact List.nodup_iff_count_le_one.mp distinct number
  · rw [List.count_eq_zero_of_not_mem member]
    exact before

theorem once_sessions (inv : Invariant p) (sourced : Sourced stream p) (once : Once p number) :
    (p.sessions.flatMap Session.numbers).count number ≤ 1 := by
  cases running : p.buffer.initialized with
  | true =>
    rw [sessions_initialized running]
    exact count_session once.past (current_placed inv sourced running).1 (once.apart running)
  | false =>
    rw [sessions_uninitialized running]
    exact once.past

theorem once_push (inv : Invariant p) (sourced : Sourced stream p) (once : Once p number)
    {packet : Packet} {now : UInt64} (decoded : packet.WellFormed) (sent : stream.Sends packet)
    (superseded : packet.sequence = number → p.Superseded packet now) :
    Once (p.push packet now) number := by
  obtain ⟨running, outcome⟩ := p.push_record packet now
  have waiting := (current_placed (@invariant_push _ inv _ now decoded)
    (sourced_push sourced sent now) running).2
  have unplayed : packet ∈ (p.push packet now).buffer.pending → packet.sequence = number →
      number ∉ (p.push packet now).past.flatMap Session.numbers := by
    rintro member rfl played
    exact waiting packet member (superseded rfl played)
  rcases outcome with ⟨past, session, alone⟩ | ⟨before, past, session, joined⟩ |
    ⟨before, past, session, same⟩
  · refine ⟨past ▸ once_sessions inv sourced once, fun _ => ?_, fun _ other member => ?_⟩
    · rw [session]
      simp [Session.numbers, Event.number]
    · obtain rfl := alone other member
      exact unplayed member
  · refine ⟨past ▸ once.past, fun _ => ?_, fun _ other member => ?_⟩
    · rw [past, session]
      have same : Session.numbers { p.session with
          events := p.session.events ++ [.stored packet] } = p.session.numbers := by
        simp [Session.numbers, Event.number]
      rw [same]
      exact once.apart before
    · rcases joined other member with old | rfl
      · rw [past]
        exact once.pending before other old
      · exact unplayed member
  · refine ⟨past ▸ once.past, fun _ => ?_, fun _ => ?_⟩
    · rw [past, session]
      exact once.apart before
    · rw [past, same]
      exact once.pending before

theorem once_pull (inv : Invariant p) (sourced : Sourced stream p) (once : Once p number)
    (now : UInt64) : Once (p.pull now) number := by
  obtain ⟨session, grown, outcome⟩ := p.pull_record now
  have apart (before : p.buffer.initialized = true) (member : number ∈ session.numbers) :
      number ∉ p.past.flatMap Session.numbers := by
    rcases grown with rfl | ⟨b, pending, rfl⟩
    · exact once.apart before member
    · rcases (emit_record p.session b).2.1 number member with old | ⟨packet, waits, same⟩
      · exact once.apart before old
      · exact once.pending before packet (pending ▸ waits) same
  rcases outcome with ⟨running, before, past, current, kept⟩ | ⟨closed, past⟩
  · refine ⟨past ▸ once.past, fun _ => ?_, fun _ packet member => ?_⟩
    · rw [past, current]
      exact apart before
    · rw [past]
      exact once.pending before packet (kept packet member)
  · refine ⟨?_, fun running => ?_, fun running => ?_⟩
    · rw [past]
      split
      · rename_i before
        have member : session ∈ (p.pull now).past := by simp [past, before]
        obtain ⟨final, renders⟩ := (invariant_pull inv now).past session member
        have sent := sourced_pull sourced now session (past_sessions _ member)
        exact count_session once.past (session_placed renders sent).1 (apart before)
      · exact once.past
    · rw [closed] at running
      cases running
    · rw [closed] at running
      cases running

theorem decoded_of_from {operation : Operation} (sent : operation.From stream) :
    operation.Decoded := by
  cases operation with
  | push packet now =>
    obtain ⟨_, data, size, parsed⟩ := sent
    exact (decode_wellFormed parsed).1
  | pull | reset => trivial

theorem sourced_ofRun (targetMs : UInt32) {operations : List Operation}
    (sent : ∀ operation ∈ operations, operation.From stream) :
    Sourced stream (ofRun targetMs operations) := by
  induction operations using List.reverseRecOn with
  | nil =>
    intro session member
    simp [ofRun, sessions, close] at member
  | append_singleton front last ih =>
    have before := ih fun operation member => sent operation (List.mem_append_left _ member)
    have final : last.From stream := sent last (by simp)
    rw [ofRun, List.foldl_append]
    cases last with
    | push packet now => exact sourced_push before final.1 now
    | pull now => exact sourced_pull before now
    | reset => exact final.elim

theorem once_ofRun (targetMs : UInt32) {operations : List Operation}
    (sent : ∀ operation ∈ operations, operation.From stream)
    (superseded : ∀ front packet now back, operations = front ++ .push packet now :: back →
      packet.sequence = number → (ofRun targetMs front).Superseded packet now) :
    Once (ofRun targetMs operations) number := by
  induction operations using List.reverseRecOn with
  | nil => exact ⟨by simp [ofRun], by simp [ofRun], by simp [ofRun]⟩
  | append_singleton front last ih =>
    have earlier : ∀ operation ∈ front, operation.From stream :=
      fun operation member => sent operation (List.mem_append_left _ member)
    have before := ih earlier fun front' packet now back split =>
      superseded front' packet now (back ++ [last]) (by rw [split]; simp)
    have sourced := sourced_ofRun targetMs earlier
    have inv := invariant_ofRun targetMs fun operation member =>
      decoded_of_from (earlier operation member)
    have final : last.From stream := sent last (by simp)
    rw [ofRun, List.foldl_append]
    cases last with
    | push packet now =>
      exact once_push inv sourced before (decoded_of_from final) final.1
        (superseded front packet now [] rfl)
    | pull now => exact once_pull inv sourced before now
    | reset => exact final.elim

end Runs

end Playout

/-- No session plays a packet of the stream twice, and what it appends is what the reference
makes of its events. The whole run does not play a packet twice, if every copy of it that comes
when an ended session has played it arrives in a session that a newer packet opened. -/
theorem packets_played_once (stream : Stream) (targetMs : UInt32) (operations : List Operation)
    (sent : ∀ operation ∈ operations, operation.From stream) :
    (∀ session ∈ (Playout.ofRun targetMs operations).sessions,
      session.numbers.Nodup ∧ ∃ final, session.Renders final) ∧
      ∀ number,
        (∀ front packet now back, operations = front ++ .push packet now :: back →
          packet.sequence = number → (Playout.ofRun targetMs front).Superseded packet now) →
        ((Playout.ofRun targetMs operations).sessions.flatMap Session.numbers).count number ≤ 1 := by
  have inv := Playout.invariant_ofRun targetMs fun operation member =>
    Playout.decoded_of_from (sent operation member)
  have sourced := Playout.sourced_ofRun targetMs sent
  refine ⟨fun session member => ?_, fun number superseded => ?_⟩
  · obtain ⟨final, renders⟩ := Playout.invariant_renders inv session member
    exact ⟨(session_placed renders (sourced session member)).1, final, renders⟩
  · exact Playout.once_sessions inv sourced (Playout.once_ofRun targetMs sent superseded)

def chirpPacket : Packet :=
  match decode (Memory.ofBytes chirp) chirp.length with
  | .ok packet => packet
  | .error _ => {}

def chirps : Stream where
  start := 0
  packet := fun k => { chirpPacket with sequence := serial 0 k }
  numbered := fun _ => rfl
  layout := fun _ => rfl

theorem chirpPacket_from (now : UInt64) : (Operation.push chirpPacket now).From chirps := by
  constructor
  · have first : chirpPacket.sequence = serial 0 0 := by decide +kernel
    refine ⟨0, by omega, ?_⟩
    change chirpPacket = { chirpPacket with sequence := serial 0 0 }
    rw [← first]
  · refine ⟨Memory.ofBytes chirp, chirp.length, ?_⟩
    cases parsed : decode (Memory.ofBytes chirp) chirp.length with
    | ok packet => simp [chirpPacket, parsed]
    | error error =>
      have accepted : (decode (Memory.ofBytes chirp) chirp.length).toBool = true := by
        decide +kernel
      rw [parsed] at accepted
      cases accepted

theorem packets_played_once_chirp :
    ((Playout.ofRun 30 [.push chirpPacket 1000, .pull 30001000]).sessions.flatMap
      Session.numbers).length = 1 ∧
    ((Playout.ofRun 30 [.push chirpPacket 1000, .pull 30001000]).sessions.flatMap
      Session.numbers).count chirpPacket.sequence ≤ 1 := by
  refine ⟨by decide +kernel, (packets_played_once chirps 30 _ ?_).2 chirpPacket.sequence ?_⟩
  · intro operation member
    simp only [List.mem_cons, List.not_mem_nil, or_false] at member
    rcases member with rfl | rfl
    · exact chirpPacket_from 1000
    · trivial
  · intro front packet now back split _
    cases front with
    | nil =>
      cases split
      intro played
      simp [Playout.ofRun, Playout.push, StreamBuffer.restarts, StreamBuffer.opens,
        Playout.close] at played
    | cons first rest =>
      have short := congrArg List.length split
      simp only [List.length_cons, List.length_append, List.length_nil] at short
      have none : rest = [] := List.eq_nil_of_length_eq_zero (by omega)
      subst none
      simp at split

/-- An underrun ends the session, and a late copy of the packet that it played opens
the next one: the packet is played again. -/
theorem late_copy_replayed :
    ∃ (stream : Stream) (operations : List Operation),
      (∀ operation ∈ operations, operation.From stream) ∧
      ¬ ((Playout.ofRun 30 operations).sessions.flatMap Session.numbers).Nodup := by
  refine ⟨chirps, [.push chirpPacket 1000, .pull 30001000, .pull 40001000,
    .push chirpPacket 50001000, .pull 80001000], ?_, by decide +kernel⟩
  intro operation member
  simp only [List.mem_cons, List.not_mem_nil, or_false] at member
  rcases member with rfl | rfl | rfl | rfl | rfl
  · exact chirpPacket_from 1000
  · trivial
  · trivial
  · exact chirpPacket_from 50001000
  · trivial

end VbanStream
