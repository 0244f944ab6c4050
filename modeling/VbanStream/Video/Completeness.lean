import VbanStream.Video.Fragments
import VbanStream.Video.Soundness

namespace VbanStream.FrameAssembler

open Library

def Call.now : Call → UInt64
  | .push _ now => now
  | .expire now => now

/-- The assembler after some calls. -/
def after (a : FrameAssembler) (calls : List Call) : FrameAssembler :=
  calls.foldl (fun a c => (a.call c).1) a

/-- One fragment of an image that is cut into pieces of any size. -/
structure Piece (pieces : List (List UInt8)) (frame : UInt32) (index : Nat) (bytes : List UInt8) :
    Prop where
  valid : validHeader (Memory.ofBytes bytes) bytes.length = true
  flags : flagsOf bytes = FrameSender.flags pieces.length index
  number : indexOf bytes = UInt16.ofNat index
  counter : frameOf bytes = frame
  payload : pieces[index]? = some (payloadOf bytes)

/-- A well-formed fragment of an older image, or of this one's past. -/
structure Stale (frame : UInt32) (accepted : Nat) (bytes : List UInt8) : Prop where
  wellFormed : WellFormed bytes
  old : (frameOf bytes ≠ frame ∧ ¬ Newer frame (frameOf bytes)) ∨
    (frameOf bytes = frame ∧ (indexOf bytes).toNat < accepted ∧
      (flagsOf bytes &&& 1 = 0 ∨ indexOf bytes = 0))

/-- The first pieces of an image in order, with stale fragments after the first. -/
inductive Traffic (pieces : List (List UInt8)) (frame : UInt32) : Nat → List Call → Prop where
  | start : Traffic pieces frame 0 []
  | next {n : Nat} {calls : List Call} {bytes : List UInt8} (now : UInt64)
      (before : Traffic pieces frame n calls) (piece : Piece pieces frame n bytes) :
      Traffic pieces frame (n + 1) (calls ++ [.push bytes now])
  | stale {n : Nat} {calls : List Call} {bytes : List UInt8} (now : UInt64)
      (before : Traffic pieces frame n calls) (begun : 0 < n) (stale : Stale frame n bytes) :
      Traffic pieces frame n (calls ++ [.push bytes now])
  | expire {n : Nat} {calls : List Call} (now : UInt64) (before : Traffic pieces frame n calls)
      (begun : 0 < n) : Traffic pieces frame n (calls ++ [.expire now])

/-- The assembler holds the first pieces of the image, begun at a certain time,
and is not going to refuse its counter. -/
structure Waiting (pieces : List (List UInt8)) (frame : UInt32) (begun : UInt64) (n : Nat)
    (a : FrameAssembler) : Prop where
  active : a.active = true
  same : a.frame = frame
  next : a.next.toNat = n
  held : a.bytes = (pieces.take n).flatten
  started : a.started = begun
  current : ∀ now, begun ≤ now → a.outdated frame now = false

theorem expire_early {a : FrameAssembler} {now : UInt64} (started : a.started ≤ now)
    (early : now.toNat ≤ a.started.toNat + 2000000000) : a.expire now = a := by
  have young : ¬ now - a.started > frameTimeoutNs := by
    rw [gt_iff_lt, UInt64.lt_iff_toNat_lt, UInt64.toNat_sub_of_le _ _ started, frameTimeoutNs]
    simp only [UInt64.reduceToNat]
    omega
  rw [expire, if_neg fun old => young old.2]

/-- A fragment with a valid header is assembled. -/
theorem push_wellFormed {a : FrameAssembler} {bytes : List UInt8} (wellFormed : WellFormed bytes)
    (now : UInt64) : a.call (.push bytes now) =
      ((a.expire now).count fun c => { c with packets := c.packets + 1 }).assemble (flagsOf bytes)
        (indexOf bytes) (frameOf bytes) (payloadOf bytes) now := by
  rw [call, push, if_neg]
  · rfl
  · rintro (header | flags)
    · rw [wellFormed.1] at header
      cases header
    · exact flags wellFormed.2

theorem current_of_newer {a : FrameAssembler} {frame : UInt32} {begun now : UInt64}
    (newer : a.haveCompleted = true → begun.toNat < a.completedAt.toNat + 2000000000 →
      Newer a.completedFrame frame) (later : begun ≤ now) : a.outdated frame now = false := by
  cases known : a.haveCompleted with
  | false => simp [outdated, known]
  | true =>
    by_cases near : begun.toNat < a.completedAt.toNat + 2000000000
    · obtain ⟨other, ahead⟩ := newer_iff.mp (newer known near)
      simp [outdated, other, UInt32.not_le.mp ahead]
    · have order := UInt64.le_iff_toNat_le.mp later
      have past : a.completedAt ≤ now := UInt64.le_iff_toNat_le.mpr (by omega)
      have old : ¬ now - a.completedAt < frameTimeoutNs := by
        rw [UInt64.lt_iff_toNat_lt, UInt64.toNat_sub_of_le _ _ past, frameTimeoutNs]
        simp only [UInt64.reduceToNat]
        omega
      simp [outdated, old]

theorem expire_shown (a : FrameAssembler) (now : UInt64) : a.SameShown (a.expire now) := by
  rcases a.expire_cases now with ⟨same, _⟩ | ⟨_, shown⟩
  · rw [same]
    exact ⟨rfl, rfl, rfl⟩
  · exact shown

theorem SameShown.outdated {a b : FrameAssembler} (shown : a.SameShown b) (frame : UInt32)
    (now : UInt64) : b.outdated frame now = a.outdated frame now := by
  rw [FrameAssembler.outdated, FrameAssembler.outdated, shown.1, shown.2.1, shown.2.2]

section Pieces

variable {pieces : List (List UInt8)} {frame : UInt32} {n : Nat} {bytes : List UInt8}
  {a : FrameAssembler}

theorem Piece.wellFormed (piece : Piece pieces frame n bytes) : WellFormed bytes :=
  ⟨piece.valid, piece.flags ▸ FrameSender.flags_mem _ _⟩

theorem Piece.take_succ (piece : Piece pieces frame n bytes) :
    (pieces.take (n + 1)).flatten = (pieces.take n).flatten ++ payloadOf bytes := by
  rw [List.take_add_one, piece.payload]
  simp

/-- The next piece finds room and is appended. -/
theorem append_piece (piece : Piece pieces frame n bytes)
    (small : pieces.flatten.length ≤ maxImageBytes) (active : a.active = true)
    (same : a.frame = frame) (next : a.next = UInt16.ofNat n)
    (held : a.bytes = (pieces.take n).flatten) (now : UInt64) :
    a.append (flagsOf bytes) (indexOf bytes) (frameOf bytes) (payloadOf bytes) now =
      let b := { a with bytes := (pieces.take (n + 1)).flatten, next := a.next + 1 }
      if flagsOf bytes &&& 4 = 0 then (b, none)
      else
        ({ b.count fun c => { c with completed := c.completed + 1 } with
          active := false
          haveCompleted := true
          completedFrame := frame
          completedAt := now
          bytes := [] }, some (pieces.take (n + 1)).flatten) := by
  have room : ¬ (payloadOf bytes).length > maxImageBytes - a.bytes.length := by
    have front := (List.take_prefix (n + 1) pieces).flatten.length_le
    rw [piece.take_succ, List.length_append] at front
    rw [held]
    omega
  rw [append, if_neg (by simp [active]), if_neg (by simp [piece.counter, same]),
    if_neg (by simp [piece.number, next]), if_neg room, piece.take_succ, held, piece.counter]

/-- A stale fragment is counted and otherwise ignored. -/
theorem stale_duplicate {begun : UInt64} (waiting : Waiting pieces frame begun n a)
    (stale : Stale frame n bytes) (now : UInt64) :
    a.assemble (flagsOf bytes) (indexOf bytes) (frameOf bytes) (payloadOf bytes) now =
      a.duplicate := by
  unfold assemble
  by_cases outdated : a.outdated (frameOf bytes) now = true
  · rw [if_pos outdated]
  · rw [if_neg outdated]
    rcases stale.old with ⟨other, older⟩ | ⟨same, accepted, unstarted⟩
    · have behind : frameOf bytes - frame ≥ 0x80000000 := by
        by_contra near
        exact older (newer_iff.mpr ⟨other, near⟩)
      rw [if_pos (by simp [waiting.active, delayed, waiting.same, other, behind])]
    · have frames : frameOf bytes = a.frame := same.trans waiting.same.symm
      rw [if_neg (by simp [delayed, frames])]
      by_cases first : flagsOf bytes &&& 1 ≠ 0
      · have zero : indexOf bytes = 0 := unstarted.resolve_left first
        rw [if_pos first, if_neg (not_not.mpr zero), if_pos ⟨waiting.active, frames⟩]
      · have behind : indexOf bytes < a.next := by
          rw [UInt16.lt_iff_toNat_lt, waiting.next]
          exact accepted
        rw [if_neg first, append, if_neg (by simp [waiting.active]), if_neg (not_not.mpr frames),
          if_pos (UInt16.ne_of_lt behind), if_pos behind]

/-- A later piece goes straight to `append`. -/
theorem assemble_later {begun : UInt64} (waiting : Waiting pieces frame begun n a)
    (piece : Piece pieces frame n bytes) (later : 0 < n) {now : UInt64} (order : begun ≤ now) :
    a.assemble (flagsOf bytes) (indexOf bytes) (frameOf bytes) (payloadOf bytes) now =
      a.append (flagsOf bytes) (indexOf bytes) (frameOf bytes) (payloadOf bytes) now := by
  have current := waiting.current now order
  have middle : flagsOf bytes &&& 1 = 0 := by
    rw [piece.flags, FrameSender.flags_first]
    omega
  rw [assemble, piece.counter, if_neg (by simp [current]),
    if_neg (by simp [delayed, waiting.same]), if_neg (not_not.mpr middle)]

/-- The first piece opens the image, whatever was in progress. -/
theorem assemble_first (piece : Piece pieces frame 0 bytes) {now : UInt64}
    (newer : a.active = true → Newer a.frame frame) (current : a.outdated frame now = false) :
    a.assemble (flagsOf bytes) (indexOf bytes) (frameOf bytes) (payloadOf bytes) now =
      { a.discard with active := true, frame := frame, next := 0, started := now }.append
        (flagsOf bytes) (indexOf bytes) (frameOf bytes) (payloadOf bytes) now := by
  have first : flagsOf bytes &&& 1 ≠ 0 := by
    rw [piece.flags, Ne, FrameSender.flags_first]
    omega
  have zero : indexOf bytes = 0 := piece.number
  rw [assemble, piece.counter, if_neg (by simp [current]), if_neg, if_pos first,
    if_neg (not_not.mpr zero), if_neg]
  · rintro ⟨active, same⟩
    exact (newer_iff.mp (newer active)).1 same
  · intro late
    rw [Bool.and_eq_true, delayed, Bool.and_eq_true, decide_eq_true_eq] at late
    exact (newer_iff.mp (newer late.1)).2 late.2.2

theorem Waiting.count {begun : UInt64} (waiting : Waiting pieces frame begun n a)
    (counters : FrameCounters) : Waiting pieces frame begun n { a with counters := counters } :=
  ⟨waiting.active, waiting.same, waiting.next, waiting.held, waiting.started, waiting.current⟩

theorem Waiting.expire {begun : UInt64} (waiting : Waiting pieces frame begun n a) {now : UInt64}
    (order : begun ≤ now) (timely : now.toNat ≤ begun.toNat + 2000000000) : a.expire now = a :=
  expire_early (waiting.started ▸ order) (waiting.started ▸ timely)

theorem Waiting.stale {begun : UInt64} (waiting : Waiting pieces frame begun n a)
    (stale : Stale frame n bytes) {now : UInt64} (order : begun ≤ now)
    (timely : now.toNat ≤ begun.toNat + 2000000000) :
    Waiting pieces frame begun n (a.call (.push bytes now)).1 := by
  have counted : Waiting pieces frame begun n
      (a.count fun c => { c with packets := c.packets + 1 }) := waiting.count _
  rw [push_wellFormed stale.wellFormed, waiting.expire order timely, stale_duplicate counted stale]
  exact counted.count _

theorem Waiting.piece {begun : UInt64} (waiting : Waiting pieces frame begun n a)
    (piece : Piece pieces frame n bytes) (few : pieces.length ≤ 2 ^ 16)
    (small : pieces.flatten.length ≤ maxImageBytes) (later : 0 < n) (more : n + 1 < pieces.length)
    {now : UInt64} (order : begun ≤ now) (timely : now.toNat ≤ begun.toNat + 2000000000) :
    Waiting pieces frame begun (n + 1) (a.call (.push bytes now)).1 := by
  have counted : Waiting pieces frame begun n
      (a.count fun c => { c with packets := c.packets + 1 }) := waiting.count _
  have next : a.next = UInt16.ofNat n := by
    rw [← waiting.next, UInt16.ofNat_toNat]
  have middle : flagsOf bytes &&& 4 = 0 := by
    rw [piece.flags, FrameSender.flags_last]
    omega
  rw [push_wellFormed piece.wellFormed, waiting.expire order timely,
    assemble_later counted piece later order,
    append_piece piece small counted.active counted.same next counted.held]
  dsimp only
  rw [if_pos middle]
  refine ⟨waiting.active, waiting.same, ?_, rfl, waiting.started, waiting.current⟩
  have place := waiting.next
  simp only [UInt16.toNat_add, UInt16.reduceToNat]
  change (a.next.toNat + 1) % 65536 = n + 1
  omega

/-- The first piece is appended to an image that it opens itself. -/
theorem push_first (piece : Piece pieces frame 0 bytes) {now : UInt64}
    (newer : (a.expire now).active = true → Newer (a.expire now).frame frame)
    (current : a.outdated frame now = false) :
    ∃ o : FrameAssembler, a.SameShown o ∧ o.active = true ∧ o.frame = frame ∧ o.next = 0 ∧
      o.bytes = [] ∧ o.started = now ∧ a.call (.push bytes now) =
        o.append (flagsOf bytes) (indexOf bytes) (frameOf bytes) (payloadOf bytes) now := by
  have shown := a.expire_shown now
  rw [push_wellFormed piece.wellFormed]
  generalize counted : (a.expire now).count (fun c => { c with packets := c.packets + 1 }) = b
  have shown' : a.SameShown b := counted ▸ shown
  have newer' : b.active = true → Newer b.frame frame := counted ▸ newer
  rw [assemble_first piece newer' ((shown'.outdated frame now).trans current)]
  obtain ⟨_, kept⟩ := b.discard_idle
  obtain ⟨counters, discarded⟩ := b.discard_eq
  refine ⟨{ b.discard with active := true, frame := frame, next := 0, started := now },
    ⟨kept.1.trans shown'.1, kept.2.1.trans shown'.2.1, kept.2.2.trans shown'.2.2⟩, rfl, rfl, rfl,
    ?_, rfl, rfl⟩
  rw [discarded]

/-- The first piece, but not the last, starts the wait. -/
theorem waiting_first (piece : Piece pieces frame 0 bytes)
    (small : pieces.flatten.length ≤ maxImageBytes) (more : 1 < pieces.length) {now : UInt64}
    (newer : (a.expire now).active = true → Newer (a.expire now).frame frame)
    (recent : a.haveCompleted = true → now.toNat < a.completedAt.toNat + 2000000000 →
      Newer a.completedFrame frame) :
    Waiting pieces frame now 1 (a.call (.push bytes now)).1 := by
  obtain ⟨o, shown, active, same, next, held, started, pushed⟩ :=
    push_first piece newer (current_of_newer recent (UInt64.le_refl _))
  have middle : flagsOf bytes &&& 4 = 0 := by
    rw [piece.flags, FrameSender.flags_last]
    omega
  rw [pushed, append_piece piece small active same next held]
  dsimp only
  rw [if_pos middle]
  refine ⟨active, same, ?_, rfl, started, fun later order => ?_⟩
  · change (o.next + 1).toNat = 1
    rw [next]
    rfl
  · exact (shown.outdated frame later).trans (current_of_newer recent order)

theorem Traffic.eq_nil {calls : List Call} (traffic : Traffic pieces frame 0 calls) :
    calls = [] := by
  generalize zero : 0 = n at traffic
  cases traffic with
  | start => rfl
  | next => cases zero
  | stale _ _ positive => omega
  | expire _ _ positive => omega

theorem Traffic.ne_nil {calls : List Call} (traffic : Traffic pieces frame n calls)
    (positive : 0 < n) : calls ≠ [] := by
  cases traffic with
  | start => omega
  | next => simp
  | stale => simp
  | expire => simp

theorem after_concat (a : FrameAssembler) (calls : List Call) (c : Call) :
    a.after (calls ++ [c]) = ((a.after calls).call c).1 := by
  simp [after]

/-- The run up to the last piece, all of it within two seconds. -/
theorem Traffic.waiting {begun : UInt64} {calls : List Call}
    (traffic : Traffic pieces frame n calls) (few : pieces.length ≤ 2 ^ 16)
    (small : pieces.flatten.length ≤ maxImageBytes) (positive : 0 < n) (more : n < pieces.length)
    (first : calls.head?.map Call.now = some begun)
    (timely : ∀ c ∈ calls, begun ≤ c.now ∧ c.now.toNat ≤ begun.toNat + 2000000000)
    (newer : (a.expire begun).active = true → Newer (a.expire begun).frame frame)
    (recent : a.haveCompleted = true → begun.toNat < a.completedAt.toNat + 2000000000 →
      Newer a.completedFrame frame) : Waiting pieces frame begun n (a.after calls) := by
  induction traffic with
  | start => omega
  | @next n calls bytes now before piece ih =>
    rw [after_concat]
    obtain ⟨order, early⟩ := timely (.push bytes now) (by simp)
    by_cases later : 0 < n
    · have some := before.ne_nil later
      rw [List.head?_append_of_ne_nil _ some] at first
      have waiting := ih later (by omega) first fun c member =>
        timely c (List.mem_append_left _ member)
      exact waiting.piece piece few small later more order early
    · obtain rfl : n = 0 := by omega
      obtain rfl := before.eq_nil
      cases first
      exact waiting_first piece small more newer recent
  | @stale n calls bytes now before begun' old ih =>
    rw [after_concat]
    obtain ⟨order, early⟩ := timely (.push bytes now) (by simp)
    rw [List.head?_append_of_ne_nil _ (before.ne_nil begun')] at first
    have waiting := ih begun' more first fun c member => timely c (List.mem_append_left _ member)
    exact waiting.stale old order early
  | @expire n calls now before begun' ih =>
    rw [after_concat]
    obtain ⟨order, early⟩ := timely (.expire now) (by simp)
    rw [List.head?_append_of_ne_nil _ (before.ne_nil begun')] at first
    have waiting := ih begun' more first fun c member => timely c (List.mem_append_left _ member)
    have kept : ((a.after calls).call (.expire now)).1 = a.after calls :=
      waiting.expire order early
    rw [kept]
    exact waiting

/-- The last piece returns the image. -/
theorem last_returns (piece : Piece pieces frame n bytes) (last : n + 1 = pieces.length)
    (small : pieces.flatten.length ≤ maxImageBytes) (active : a.active = true)
    (same : a.frame = frame) (next : a.next = UInt16.ofNat n)
    (held : a.bytes = (pieces.take n).flatten) (now : UInt64) :
    (a.append (flagsOf bytes) (indexOf bytes) (frameOf bytes) (payloadOf bytes) now).2 =
      some pieces.flatten := by
  have final : flagsOf bytes &&& 4 ≠ 0 := by
    rw [piece.flags, Ne, FrameSender.flags_last]
    exact not_not.mpr last
  rw [append_piece piece small active same next held]
  dsimp only
  rw [if_neg final, last, List.take_length]

end Pieces

/-- Calls in the order of their clock lie between the first and the last. -/
theorem between_clocks {calls : List Call} {last : Call} {begun : UInt64}
    (clock : (calls ++ [last]).Pairwise fun early late => early.now ≤ late.now)
    (first : (calls ++ [last]).head?.map Call.now = some begun) :
    ∀ c ∈ calls ++ [last], begun ≤ c.now ∧ c.now ≤ last.now := by
  intro c member
  constructor
  · cases calls with
    | nil =>
      cases first
      rw [List.mem_singleton.mp member]
      exact UInt64.le_refl _
    | cons head rest =>
      cases first
      rcases List.mem_cons.mp member with rfl | later
      · exact UInt64.le_refl _
      · exact List.rel_of_pairwise_cons clock later
  · rcases List.mem_append.mp member with early | same
    · exact (List.pairwise_append.mp clock).2.2 c early last (by simp)
    · rw [List.mem_singleton.mp same]
      exact UInt64.le_refl _

/-- From every state, an image whose pieces come in order within two seconds is
returned whole, whatever stale fragments come after its first piece, if it is
newer than an image in progress or shown in the last two seconds. -/
theorem image_completed (a : FrameAssembler) {pieces : List (List UInt8)} {frame : UInt32}
    {n : Nat} {calls : List Call} {bytes : List UInt8} {now begun : UInt64}
    (traffic : Traffic pieces frame n calls) (piece : Piece pieces frame n bytes)
    (last : n + 1 = pieces.length) (few : pieces.length ≤ 65536)
    (small : pieces.flatten.length ≤ maxImageBytes)
    (first : (calls ++ [Call.push bytes now]).head?.map Call.now = some begun)
    (clock : (calls ++ [Call.push bytes now]).Pairwise fun early late => early.now ≤ late.now)
    (timely : now.toNat ≤ begun.toNat + 2000000000)
    (newer : (a.expire begun).active = true → Newer (a.expire begun).frame frame)
    (recent : a.haveCompleted = true → begun.toNat < a.completedAt.toNat + 2000000000 →
      Newer a.completedFrame frame) :
    ((a.after calls).call (.push bytes now)).2 = some pieces.flatten := by
  have between := between_clocks clock first
  by_cases later : 0 < n
  · have inside : ∀ c ∈ calls, begun ≤ c.now ∧ c.now.toNat ≤ begun.toNat + 2000000000 := by
      intro c member
      obtain ⟨order, before⟩ := between c (List.mem_append_left _ member)
      exact ⟨order, (UInt64.le_iff_toNat_le.mp before).trans timely⟩
    rw [List.head?_append_of_ne_nil _ (traffic.ne_nil later)] at first
    have waiting := traffic.waiting few small later (by omega) first inside newer recent
    obtain ⟨order, _⟩ := between (.push bytes now) (by simp)
    have order : begun ≤ now := order
    have counted : Waiting pieces frame begun n
        ((a.after calls).count fun c => { c with packets := c.packets + 1 }) := waiting.count _
    have next : (a.after calls).next = UInt16.ofNat n := by
      rw [← waiting.next, UInt16.ofNat_toNat]
    rw [push_wellFormed piece.wellFormed, waiting.expire order timely,
      assemble_later counted piece later order]
    exact last_returns piece last small counted.active counted.same next counted.held now
  · obtain rfl : n = 0 := by omega
    obtain rfl := traffic.eq_nil
    obtain rfl : now = begun := Option.some.inj first
    obtain ⟨o, _, active, same, next, held, _, pushed⟩ :=
      push_first piece newer (current_of_newer recent (UInt64.le_refl _))
    change (a.call (.push bytes now)).2 = some pieces.flatten
    rw [pushed]
    exact last_returns piece last small active same next held now

/-- A datagram with one byte of an image. -/
def oneByte (counter index flags value : UInt8) : List UInt8 :=
  signature ++ [0x8f, index, 0, flags] ++ List.replicate 16 0 ++ [counter, 0, 0, 0] ++ [value]

/-- An image of two bytes replaces one in progress, with its first datagram repeated. -/
theorem image_completed_repeated :
    (((({} : FrameAssembler).after [.push (oneByte 4 0 1 9) 50]).after
      [.push (oneByte 5 0 1 1) 100, .push (oneByte 5 0 1 1) 150]).call
        (.push (oneByte 5 1 4 2) 200)).2 = some [1, 2] := by
  have front : Piece [[1], [2]] 5 0 (oneByte 5 0 1 1) := by
    constructor <;> decide +kernel
  have back : Piece [[1], [2]] 5 1 (oneByte 5 1 4 2) := by
    constructor <;> decide +kernel
  have repeated : Stale 5 1 (oneByte 5 0 1 1) :=
    ⟨⟨front.valid, by decide +kernel⟩, .inr ⟨front.counter, by decide +kernel, by decide +kernel⟩⟩
  have traffic : Traffic [[1], [2]] 5 1
      [.push (oneByte 5 0 1 1) 100, .push (oneByte 5 0 1 1) 150] :=
    .stale 150 (.next 100 .start front) (by decide) repeated
  exact image_completed _ traffic back rfl (by decide) (by decide) rfl (by decide) (by decide)
    (fun _ => ⟨by decide +kernel, by decide +kernel⟩)
    (fun known => absurd known (by decide +kernel))

end VbanStream.FrameAssembler
