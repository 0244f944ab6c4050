import VbanStream.Video.Completeness

namespace VbanStream.FrameAssembler

open Library

/-- What `push` does with a datagram. -/
inductive Joining where
  | refused
  | opens
  | continues
deriving DecidableEq, Repr

/-- The path of a well-formed fragment through `push`, up to `bytes_.insert`. -/
def place (a : FrameAssembler) (flags : UInt8) (index : UInt16) (frame : UInt32)
    (payload : List UInt8) (now : UInt64) : Joining :=
  if a.outdated frame now then .refused
  else if a.active && a.delayed frame then .refused
  else if flags &&& 1 ≠ 0 then
    if index ≠ 0 ∨ (a.active ∧ frame = a.frame) ∨ payload.length > maxImageBytes then .refused
    else .opens
  else if a.active = false ∨ frame ≠ a.frame ∨ index ≠ a.next ∨
      payload.length > maxImageBytes - a.bytes.length then .refused
  else .continues

def joining (a : FrameAssembler) (bytes : List UInt8) (now : UInt64) : Joining :=
  if validHeader (Memory.ofBytes bytes) bytes.length = false ∨ flagsOf bytes ∉ imageFlags then
    .refused
  else
    (a.expire now).place (flagsOf bytes) (indexOf bytes) (frameOf bytes) (payloadOf bytes) now

/-- An assembler with a record of the datagrams behind the image in progress, in the order in
which they were appended, and behind every image returned. -/
structure Ledger where
  assembler : FrameAssembler := {}
  parts : List (List UInt8) := []
  images : List (List (List UInt8) × List UInt8) := []

namespace Ledger

/-- The datagrams behind the image in progress after a call, or behind the one it returns. -/
def joined (l : Ledger) : Call → List (List UInt8)
  | .expire _ => l.parts
  | .push bytes now =>
    match l.assembler.joining bytes now with
    | .refused => l.parts
    | .opens => [bytes]
    | .continues => l.parts ++ [bytes]

def perform (l : Ledger) (c : Call) : Ledger :=
  let (assembler, image) := l.assembler.call c
  match image with
  | some image => { assembler, parts := [], images := l.images ++ [(l.joined c, image)] }
  | none => { assembler, parts := if assembler.active then l.joined c else [], images := l.images }

def ofRun (calls : List Call) : Ledger := calls.foldl perform {}

end Ledger

/-- Fragments of one image carry the indices 0, 1, 2, .., and no index a second time. -/
structure Numbered (parts : List (List UInt8)) : Prop where
  distinct : (parts.map indexOf).Nodup
  ordinal : ∀ (j : Nat) bytes, parts[j]? = some bytes → (indexOf bytes).toNat = j
  bounded : parts.length ≤ 65536

/-- Every image is numbered, and no index is appended to an image that has it already. -/
structure UsedOnce (calls : List Call) : Prop where
  images : ∀ entry ∈ (Ledger.ofRun calls).images, Numbered entry.1
  fresh : ∀ front bytes now back, calls = front ++ .push bytes now :: back →
    (Ledger.ofRun front).assembler.joining bytes now = .continues →
      ∀ part ∈ (Ledger.ofRun front).parts, indexOf part ≠ indexOf bytes

/-- The counter of an image in progress has come round to 0, and the call appends to it. -/
def Overflows (a : FrameAssembler) : Call → Prop
  | .push bytes now => a.active = true ∧ a.next = 0 ∧ a.joining bytes now = .continues
  | .expire _ => False

section Cases

/-- Appending a fragment that fits. -/
theorem append_fits {o : FrameAssembler} {flags : UInt8} {index : UInt16} {frame : UInt32}
    {payload : List UInt8} {now : UInt64} (active : o.active = true) (same : frame = o.frame)
    (next : index = o.next) (room : payload.length ≤ maxImageBytes - o.bytes.length) :
    (flags &&& 4 = 0 ∧ o.append flags index frame payload now =
        ({ o with bytes := o.bytes ++ payload, next := o.next + 1 }, none)) ∨
      (flags &&& 4 ≠ 0 ∧ (o.append flags index frame payload now).1.active = false ∧
        (o.append flags index frame payload now).2 = some (o.bytes ++ payload)) := by
  have some : ¬ o.active = false := by rw [active]; decide
  unfold append
  rw [if_neg some, if_neg (not_not.mpr same), if_neg (not_not.mpr next),
    if_neg (Nat.not_lt.mpr room)]
  by_cases more : flags &&& 4 = 0
  · exact .inl ⟨more, if_pos more⟩
  · right
    dsimp only
    rw [if_neg more]
    exact ⟨more, rfl, rfl⟩

/-- Giving up an image because a fragment does not fit. -/
theorem append_long {o : FrameAssembler} {flags : UInt8} {index : UInt16} {frame : UInt32}
    {payload : List UInt8} {now : UInt64} (active : o.active = true) (same : frame = o.frame)
    (next : index = o.next) (long : payload.length > maxImageBytes - o.bytes.length) :
    o.append flags index frame payload now =
      ((o.count fun c => { c with invalid := c.invalid + 1 }).discard, none) := by
  have some : ¬ o.active = false := by rw [active]; decide
  unfold append
  rw [if_neg some, if_neg (not_not.mpr same), if_neg (not_not.mpr next), if_pos long]
  rfl

/-- The image to which a datagram is appended. -/
structure Target (a : FrameAssembler) (bytes : List UInt8) (now : UInt64) (o : FrameAssembler) :
    Prop where
  outcome : (flagsOf bytes &&& 4 = 0 ∧ a.call (.push bytes now) =
      ({ o with bytes := o.bytes ++ payloadOf bytes, next := o.next + 1 }, none)) ∨
    (flagsOf bytes &&& 4 ≠ 0 ∧ (a.call (.push bytes now)).1.active = false ∧
      (a.call (.push bytes now)).2 = some (o.bytes ++ payloadOf bytes))
  active : o.active = true
  index : indexOf bytes = o.next

/-- What a call does, by the way its datagram goes. -/
inductive Joined (a : FrameAssembler) (bytes : List UInt8) (now : UInt64) : Joining → Prop where
  | refused (silent : (a.call (.push bytes now)).2 = none)
      (stays : (a.call (.push bytes now)).1.active = false ∨
        ∃ counters, (a.call (.push bytes now)).1 = { a with counters := counters }) :
      Joined a bytes now .refused
  | opens (o : FrameAssembler) (target : Target a bytes now o) (next : o.next = 0)
      (empty : o.bytes = []) : Joined a bytes now .opens
  | continues (counters : FrameCounters)
      (target : Target a bytes now { a with counters := counters }) (running : a.active = true) :
      Joined a bytes now .continues

variable {a : FrameAssembler} {bytes : List UInt8} {now : UInt64}

theorem Joined.counted {counters : FrameCounters}
    (same : a.call (.push bytes now) = ({ a.expire now with counters := counters }, none)) :
    Joined a bytes now .refused := by
  refine .refused (by rw [same]) ?_
  rw [same]
  rcases a.expire_cases now with ⟨kept, _⟩ | ⟨idle, _⟩
  · exact .inr ⟨counters, by rw [kept]⟩
  · exact .inl idle

theorem Joined.stopped {o : FrameAssembler} (same : a.call (.push bytes now) = (o.discard, none)) :
    Joined a bytes now .refused := by
  refine .refused (by rw [same]) (.inl ?_)
  rw [same]
  exact o.discard_idle.1

/-- The state in which `push` looks at a well-formed fragment. -/
def counted (a : FrameAssembler) (now : UInt64) : FrameAssembler :=
  (a.expire now).count fun c => { c with packets := c.packets + 1 }

/-- A first fragment opens an image, unless it has the wrong index, comes again or is too long. -/
theorem opening_spec (pushed : a.call (.push bytes now) =
      if indexOf bytes ≠ 0 then (a.counted now).reject
      else if (a.counted now).active ∧ frameOf bytes = (a.counted now).frame then
        (a.counted now).duplicate
      else
        { (a.counted now).discard with
          active := true, frame := frameOf bytes, next := 0, started := now }.append
            (flagsOf bytes) (indexOf bytes) (frameOf bytes) (payloadOf bytes) now) :
    Joined a bytes now (if indexOf bytes ≠ 0 ∨
        ((a.expire now).active ∧ frameOf bytes = (a.expire now).frame) ∨
        (payloadOf bytes).length > maxImageBytes then .refused
      else .opens) := by
  by_cases start : indexOf bytes = 0
  · replace pushed := pushed.trans (if_neg (not_not.mpr start))
    by_cases again : (a.expire now).active = true ∧ frameOf bytes = (a.expire now).frame
    · rw [if_pos (.inr (.inl again))]
      exact .counted (pushed.trans (if_pos again))
    · replace pushed := pushed.trans (if_neg again)
      obtain ⟨counters, discarded⟩ := (a.counted now).discard_eq
      rw [discarded] at pushed
      by_cases long : (payloadOf bytes).length > maxImageBytes
      · rw [if_pos (.inr (.inr long))]
        exact .stopped (pushed.trans (append_long rfl rfl start long))
      · rw [if_neg (by simp only [not_or]; exact ⟨not_not.mpr start, again, long⟩)]
        refine .opens { a.expire now with
          counters := counters, active := true, frame := frameOf bytes, next := 0
          started := now, bytes := [] } ⟨?_, rfl, start⟩ rfl rfl
        rw [pushed]
        exact append_fits rfl rfl start (Nat.le_of_not_lt long)
  · rw [if_pos (.inl start)]
    exact .stopped (pushed.trans (if_pos start))

/-- A later fragment continues the image in progress if it is the next one and still fits. -/
theorem continuing_spec (pushed : a.call (.push bytes now) =
      (a.counted now).append (flagsOf bytes) (indexOf bytes) (frameOf bytes) (payloadOf bytes)
        now) :
    Joined a bytes now (if (a.expire now).active = false ∨
        frameOf bytes ≠ (a.expire now).frame ∨ indexOf bytes ≠ (a.expire now).next ∨
        (payloadOf bytes).length > maxImageBytes - (a.expire now).bytes.length then .refused
      else .continues) := by
  by_cases idle : (a.expire now).active = false
  · rw [if_pos (.inl idle)]
    exact .counted (pushed.trans (if_pos idle))
  · have active := eq_true_of_ne_false idle
    by_cases other : frameOf bytes ≠ (a.expire now).frame
    · rw [if_pos (.inr (.inl other))]
      replace pushed := (pushed.trans (if_neg idle)).trans (if_pos other)
      by_cases old : frameOf bytes - (a.expire now).frame ≥ 0x80000000
      · exact .counted (pushed.trans (if_pos old))
      · exact .stopped (pushed.trans (if_neg old))
    · by_cases gap : indexOf bytes ≠ (a.expire now).next
      · rw [if_pos (.inr (.inr (.inl gap)))]
        replace pushed := ((pushed.trans (if_neg idle)).trans (if_neg other)).trans (if_pos gap)
        by_cases before : indexOf bytes < (a.expire now).next
        · exact .counted (pushed.trans (if_pos before))
        · exact .stopped (pushed.trans (if_neg before))
      · have same := not_not.mp other
        have next := not_not.mp gap
        by_cases long : (payloadOf bytes).length > maxImageBytes - (a.expire now).bytes.length
        · rw [if_pos (.inr (.inr (.inr long)))]
          exact .stopped (pushed.trans (append_long active same next long))
        · rw [if_neg (by simp only [not_or]; exact ⟨idle, other, gap, long⟩)]
          have kept : a.expire now = a := by
            rcases a.expire_cases now with ⟨kept, _⟩ | ⟨stopped, _⟩
            · exact kept
            · exact absurd stopped idle
          rw [counted, kept] at pushed
          rw [kept] at active same next long
          refine .continues { a.counters with packets := a.counters.packets + 1 }
            ⟨?_, active, next⟩ active
          rw [pushed]
          exact append_fits active same next (Nat.le_of_not_lt long)

theorem joining_spec (a : FrameAssembler) (bytes : List UInt8) (now : UInt64) :
    Joined a bytes now (a.joining bytes now) := by
  unfold joining
  by_cases bad : validHeader (Memory.ofBytes bytes) bytes.length = false ∨
      flagsOf bytes ∉ imageFlags
  · rw [if_pos bad]
    apply Joined.stopped
    rw [call, push]
    exact if_pos bad
  · rw [if_neg bad]
    have pushed : a.call (.push bytes now) = (a.counted now).assemble (flagsOf bytes)
        (indexOf bytes) (frameOf bytes) (payloadOf bytes) now := by
      rw [call, push]
      exact if_neg bad
    unfold assemble at pushed
    unfold place
    by_cases outdated : (a.expire now).outdated (frameOf bytes) now = true
    · rw [if_pos outdated]
      exact .counted (pushed.trans (if_pos outdated))
    · rw [if_neg outdated]
      replace pushed := pushed.trans (if_neg outdated)
      by_cases delayed : ((a.expire now).active && (a.expire now).delayed (frameOf bytes)) = true
      · rw [if_pos delayed]
        exact .counted (pushed.trans (if_pos delayed))
      · rw [if_neg delayed]
        replace pushed := pushed.trans (if_neg delayed)
        by_cases first : flagsOf bytes &&& 1 ≠ 0
        · rw [if_pos first]
          exact opening_spec (pushed.trans (if_pos first))
        · rw [if_neg first]
          exact continuing_spec (pushed.trans (if_neg first))

end Cases

/-- The image that a push appends to, and the datagrams that it had before. -/
inductive Behind (l : Ledger) (bytes : List UInt8) (now : UInt64) (o : FrameAssembler) :
    List (List UInt8) → Prop where
  | opened (joins : l.assembler.joining bytes now = .opens) (next : o.next = 0)
      (empty : o.bytes = []) : Behind l bytes now o []
  | continued (joins : l.assembler.joining bytes now = .continues)
      (running : l.assembler.active = true) (next : o.next = l.assembler.next)
      (held : o.bytes = l.assembler.bytes) : Behind l bytes now o l.parts

/-- Everything a call can do to the record. -/
inductive Performed (l : Ledger) : Call → Ledger → Prop where
  | stays (c : Call) (b : FrameAssembler)
      (same : b.active = false ∨ ∃ counters, b = { l.assembler with counters := counters }) :
      Performed l c {
        assembler := b, parts := if b.active then l.parts else [], images := l.images }
  | grows (bytes : List UInt8) (now : UInt64) (o : FrameAssembler) (front : List (List UInt8))
      (behind : Behind l bytes now o front) (index : indexOf bytes = o.next) :
      Performed l (.push bytes now) {
        assembler := { o with bytes := o.bytes ++ payloadOf bytes, next := o.next + 1 }
        parts := front ++ [bytes], images := l.images }
  | completes (bytes : List UInt8) (now : UInt64) (o b : FrameAssembler)
      (front : List (List UInt8)) (behind : Behind l bytes now o front)
      (index : indexOf bytes = o.next) (idle : b.active = false) :
      Performed l (.push bytes now) {
        assembler := b, parts := []
        images := l.images ++ [(front ++ [bytes], o.bytes ++ payloadOf bytes)] }

theorem Ledger.perform_target {l : Ledger} {bytes : List UInt8} {now : UInt64}
    {o : FrameAssembler} {front : List (List UInt8)} (target : Target l.assembler bytes now o)
    (behind : Behind l bytes now o front) (joins : l.joined (.push bytes now) = front ++ [bytes]) :
    Performed l (.push bytes now) (l.perform (.push bytes now)) := by
  rcases target.outcome with ⟨_, more⟩ | ⟨_, idle, last⟩
  · have grown : l.perform (.push bytes now) = {
        assembler := { o with bytes := o.bytes ++ payloadOf bytes, next := o.next + 1 }
        parts := front ++ [bytes], images := l.images } := by
      rw [perform, more, joins]
      simp [target.active]
    rw [grown]
    exact .grows bytes now o front behind target.index
  · have completed : l.perform (.push bytes now) = {
        assembler := (l.assembler.call (.push bytes now)).1, parts := []
        images := l.images ++ [(front ++ [bytes], o.bytes ++ payloadOf bytes)] } := by
      rw [perform, joins]
      simp only [last]
    rw [completed]
    exact .completes bytes now o _ front behind target.index idle

theorem Ledger.perform_spec (l : Ledger) (c : Call) : Performed l c (l.perform c) := by
  cases c with
  | expire now =>
    refine .stays (.expire now) (l.assembler.expire now) ?_
    rcases l.assembler.expire_cases now with ⟨kept, _⟩ | ⟨idle, _⟩
    · exact .inr ⟨l.assembler.counters, kept⟩
    · exact .inl idle
  | push bytes now =>
    have outcome := l.assembler.joining_spec bytes now
    cases joins : l.assembler.joining bytes now with
    | refused =>
      rw [joins] at outcome
      cases outcome with
      | refused silent same =>
        have kept : l.perform (.push bytes now) = {
            assembler := (l.assembler.call (.push bytes now)).1
            parts := if (l.assembler.call (.push bytes now)).1.active then l.parts else []
            images := l.images } := by
          rw [perform, joined, joins]
          simp only [silent]
        rw [kept]
        exact .stays _ _ same
    | opens =>
      rw [joins] at outcome
      cases outcome with
      | opens o target next empty =>
        exact l.perform_target target (.opened joins next empty) (by rw [joined, joins]; rfl)
    | continues =>
      rw [joins] at outcome
      cases outcome with
      | continues counters target running =>
        exact l.perform_target target (.continued joins running rfl rfl) (by rw [joined, joins])

/-- The record agrees with the assembler: the datagrams make up the bytes, and carry the
indices 0, 1, 2, .. up to the wrap of 16 bits. -/
structure Ledger.Sound (l : Ledger) : Prop where
  begun : l.assembler.active = true → l.parts ≠ []
  next : l.assembler.active = true → l.assembler.next = UInt16.ofNat l.parts.length
  held : l.assembler.active = true → l.assembler.bytes = l.parts.flatMap payloadOf
  index : ∀ (j : Nat) bytes, l.parts[j]? = some bytes → indexOf bytes = UInt16.ofNat j
  images : ∀ entry ∈ l.images, entry.2 = entry.1.flatMap payloadOf ∧
    ∀ (j : Nat) bytes, entry.1[j]? = some bytes → indexOf bytes = UInt16.ofNat j

section Sound

variable {l m : Ledger} {c : Call}

/-- One more datagram behind the image. -/
theorem Behind.sound {bytes : List UInt8} {now : UInt64} {o : FrameAssembler}
    {front : List (List UInt8)} (behind : Behind l bytes now o front) (sound : l.Sound)
    (index : indexOf bytes = o.next) :
    o.next = UInt16.ofNat front.length ∧
      o.bytes ++ payloadOf bytes = (front ++ [bytes]).flatMap payloadOf ∧
      ∀ (j : Nat) part, (front ++ [bytes])[j]? = some part → indexOf part = UInt16.ofNat j := by
  cases behind with
  | opened _ next empty =>
    refine ⟨next, by simp [empty], ?_⟩
    intro j part found
    rcases getElem?_concat_cases found with ⟨old, _⟩ | ⟨rfl, rfl⟩
    · cases old
    · exact index.trans next
  | continued _ running next held =>
    have counted := next.trans (sound.next running)
    refine ⟨counted, by simp [held, sound.held running], ?_⟩
    intro j part found
    rcases getElem?_concat_cases found with ⟨old, _⟩ | ⟨rfl, rfl⟩
    · exact sound.index j part old
    · exact index.trans counted

theorem Performed.sound (performed : Performed l c m) (sound : l.Sound) : m.Sound := by
  cases performed with
  | stays c b same =>
    rcases same with idle | ⟨counters, rfl⟩
    · rw [if_neg (by rw [idle]; decide)]
      exact ⟨fun active => absurd active (by rw [idle]; decide),
        fun active => absurd active (by rw [idle]; decide),
        fun active => absurd active (by rw [idle]; decide), by simp, sound.images⟩
    · by_cases active : l.assembler.active = true
      · rw [if_pos active]
        exact ⟨sound.begun, sound.next, sound.held, sound.index, sound.images⟩
      · rw [if_neg active]
        exact ⟨fun on => absurd on active, fun on => absurd on active,
          fun on => absurd on active, by simp, sound.images⟩
  | grows bytes now o front behind index =>
    obtain ⟨next, held, indices⟩ := behind.sound sound index
    refine ⟨fun _ => by simp, fun _ => ?_, fun _ => held, indices, sound.images⟩
    simp only [next, List.length_append, List.length_singleton, UInt16.ofNat_add]
    rfl
  | completes bytes now o b front behind index idle =>
    obtain ⟨next, held, indices⟩ := behind.sound sound index
    refine ⟨fun active => absurd active (by rw [idle]; decide),
      fun active => absurd active (by rw [idle]; decide),
      fun active => absurd active (by rw [idle]; decide), by simp, ?_⟩
    intro entry member
    rcases List.mem_append.mp member with old | new
    · exact sound.images entry old
    · rw [List.mem_singleton.mp new]
      exact ⟨held, indices⟩

theorem numbered {parts : List (List UInt8)} (short : parts.length ≤ 65536)
    (index : ∀ (j : Nat) bytes, parts[j]? = some bytes → indexOf bytes = UInt16.ofNat j) :
    Numbered parts := by
  have ordinal (j : Nat) (bytes : List UInt8) (found : parts[j]? = some bytes) :
      (indexOf bytes).toNat = j := by
    have inside := (List.getElem?_eq_some_iff.mp found).1
    rw [index j bytes found, UInt16.toNat_ofNat', Nat.mod_eq_of_lt (by omega)]
  refine ⟨?_, ordinal, short⟩
  rw [List.nodup_iff_injective_getElem]
  intro ⟨i, first⟩ ⟨j, second⟩ same
  rw [List.length_map] at first second
  simp only [List.getElem_map] at same
  have left := ordinal i _ (List.getElem?_eq_getElem first)
  have right := ordinal j _ (List.getElem?_eq_getElem second)
  rw [same] at left
  exact Fin.ext (left.symm.trans right)

/-- No image has more fragments than there are indices. -/
structure Ledger.Short (l : Ledger) : Prop where
  parts : l.parts.length ≤ 65536
  images : ∀ entry ∈ l.images, entry.1.length ≤ 65536

/-- A fragment that does not overflow finds room among the indices. -/
theorem Behind.room {bytes : List UInt8} {now : UInt64} {o : FrameAssembler}
    {front : List (List UInt8)} (behind : Behind l bytes now o front) (sound : l.Sound)
    (short : l.Short) (fits : ¬ Overflows l.assembler (.push bytes now)) :
    front.length < 65536 := by
  cases behind with
  | opened => decide
  | continued joins running =>
    rcases Nat.lt_or_eq_of_le short.parts with less | full
    · exact less
    · have wrapped : l.assembler.next = 0 := by rw [sound.next running, full]; rfl
      exact absurd ⟨running, wrapped, joins⟩ fits

theorem Performed.short (performed : Performed l c m) (sound : l.Sound) (short : l.Short)
    (fits : ¬ Overflows l.assembler c) : m.Short := by
  cases performed with
  | stays c b same =>
    refine ⟨?_, short.images⟩
    dsimp only
    split
    · exact short.parts
    · exact Nat.zero_le _
  | grows bytes now o front behind index =>
    have room := behind.room sound short fits
    refine ⟨?_, short.images⟩
    rw [List.length_append, List.length_singleton]
    omega
  | completes bytes now o b front behind index idle =>
    have room := behind.room sound short fits
    refine ⟨Nat.zero_le _, ?_⟩
    intro entry member
    rcases List.mem_append.mp member with old | new
    · exact short.images entry old
    · rw [List.mem_singleton.mp new, List.length_append, List.length_singleton]
      omega

end Sound

theorem Ledger.ofRun_concat (calls : List Call) (c : Call) :
    ofRun (calls ++ [c]) = (ofRun calls).perform c := by
  rw [ofRun, List.foldl_append]
  rfl

theorem Ledger.ofRun_sound (calls : List Call) : (ofRun calls).Sound := by
  induction calls using List.reverseRecOn with
  | nil => exact ⟨nofun, nofun, nofun, by simp [ofRun], by simp [ofRun]⟩
  | append_singleton front last ih =>
    rw [ofRun_concat]
    exact ((ofRun front).perform_spec last).sound ih

theorem Ledger.ofRun_faithful (calls : List Call) :
    (ofRun calls).assembler = (Reassembly.ofRun calls).assembler ∧
      (ofRun calls).images.map Prod.snd = (Reassembly.ofRun calls).images.map Returned.image := by
  induction calls using List.reverseRecOn with
  | nil => exact ⟨rfl, rfl⟩
  | append_singleton front last ih =>
    obtain ⟨same, images⟩ := ih
    have longer : Reassembly.ofRun (front ++ [last]) =
        (Reassembly.ofRun front).perform last := by
      rw [Reassembly.ofRun, List.foldl_append]
      rfl
    rw [ofRun_concat, longer, Ledger.perform, Reassembly.perform, same]
    cases last with
    | expire now => simp [call, images]
    | push bytes now =>
      obtain ⟨after, image⟩ := (Reassembly.ofRun front).assembler.call (.push bytes now)
      cases image with
      | none => simp [images]
      | some image => simp [images]

/-- No call of the run overflows. -/
def Fits (calls : List Call) : Prop :=
  ∀ front c back, calls = front ++ c :: back → ¬ Overflows (Ledger.ofRun front).assembler c

theorem Ledger.ofRun_short {calls : List Call} (fits : Fits calls) : (ofRun calls).Short := by
  induction calls using List.reverseRecOn with
  | nil => exact ⟨Nat.zero_le _, by simp [ofRun]⟩
  | append_singleton front last ih =>
    rw [ofRun_concat]
    have earlier : Fits front := by
      intro before c after same
      exact fits before c (after ++ [last]) (by rw [same]; simp)
    exact ((ofRun front).perform_spec last).short (ofRun_sound front) (ih earlier)
      (fits front last [] rfl)

/-- An index that comes round again is one that the image has already. -/
theorem Overflows.reused {l : Ledger} (sound : l.Sound) {bytes : List UInt8} {now : UInt64}
    (overflows : Overflows l.assembler (.push bytes now)) :
    ∃ part ∈ l.parts, indexOf part = indexOf bytes := by
  obtain ⟨running, wrapped, joins⟩ := overflows
  have outcome := l.assembler.joining_spec bytes now
  rw [joins] at outcome
  cases outcome with
  | continues counters target =>
    obtain ⟨first, rest, parts⟩ := List.exists_cons_of_ne_nil (sound.begun running)
    have index : indexOf bytes = l.assembler.next := target.index
    refine ⟨first, by rw [parts]; exact List.mem_cons_self, ?_⟩
    rw [index, wrapped]
    exact sound.index 0 first (by rw [parts]; rfl)

/-- In every run the fragments of an image have different indices, in the order of their
places, and no index is taken twice, exactly if no fragment is appended to an image in
progress whose counter has come round to 0. -/
theorem fragments_used_once (calls : List Call) : UsedOnce calls ↔
    ∀ front c back, calls = front ++ c :: back →
      ¬ Overflows (Ledger.ofRun front).assembler c := by
  constructor
  · intro used front c back same overflows
    cases c with
    | expire now => exact overflows
    | push bytes now =>
      obtain ⟨part, member, index⟩ := overflows.reused (Ledger.ofRun_sound front)
      exact used.fresh front bytes now back same overflows.2.2 part member index
  · intro fits
    refine ⟨?_, ?_⟩
    · intro entry member
      exact numbered ((Ledger.ofRun_short fits).images entry member)
        ((Ledger.ofRun_sound calls).images entry member).2
    · intro front bytes now back same joins part member index
      have earlier : Fits front := by
        intro before c after split
        exact fits before c (after ++ .push bytes now :: back) (by rw [same, split]; simp)
      have sound := Ledger.ofRun_sound front
      have short := Ledger.ofRun_short earlier
      have overflow := fits front (.push bytes now) back same
      have outcome := (Ledger.ofRun front).assembler.joining_spec bytes now
      rw [joins] at outcome
      cases outcome with
      | continues counters target running =>
        have behind : Behind (Ledger.ofRun front) bytes now
            { (Ledger.ofRun front).assembler with counters } (Ledger.ofRun front).parts :=
          .continued joins running rfl rfl
        have room := behind.room sound short overflow
        obtain ⟨j, found⟩ := List.getElem?_of_mem member
        have inside := (List.getElem?_eq_some_iff.mp found).1
        have next : indexOf bytes = (Ledger.ofRun front).assembler.next := target.index
        rw [sound.index j part found, next, sound.next running,
          ← UInt16.toNat_inj, UInt16.toNat_ofNat', UInt16.toNat_ofNat',
          Nat.mod_eq_of_lt (by omega), Nat.mod_eq_of_lt (by omega)] at index
        omega

/-- A fragment of one byte of the fifth image. -/
def tiny (index : Nat) (flags : UInt8) : List UInt8 :=
  signature ++ [0x8f, UInt8.ofNat index, UInt8.ofNat (index / 256), flags] ++
    List.replicate 16 0 ++ [5, 0, 0, 0] ++ [0]

section Tiny

variable (index : Nat) (flags : UInt8)

theorem tiny_valid (clean : flags &&& 0xf8 = 0) :
    validHeader (Memory.ofBytes (tiny index flags)) (tiny index flags).length = true := by
  have length : (tiny index flags).length = 29 := rfl
  have opening : (Memory.ofBytes (tiny index flags)).read 0 4 = signature := rfl
  have fourth : Memory.ofBytes (tiny index flags) 4 = 0x8f := rfl
  have seventh : Memory.ofBytes (tiny index flags) 7 = flags := rfl
  rw [validHeader, length, opening, fourth, seventh, clean]
  decide

theorem tiny_index : indexOf (tiny index flags) = UInt16.ofNat index := by
  have read : (Memory.ofBytes (tiny index flags)).read 5 2 =
      [UInt8.ofNat index, UInt8.ofNat (index / 256)] := rfl
  rw [indexOf, read, ← UInt16.toNat_inj]
  simp only [littleEndian, UInt16.toNat_ofNat', UInt8.toNat_ofNat']
  omega

theorem tiny_reads : flagsOf (tiny index flags) = flags ∧ frameOf (tiny index flags) = 5 ∧
    payloadOf (tiny index flags) = [0] := ⟨rfl, rfl, rfl⟩

end Tiny

/-- The fifth image, with its first fragments in place. -/
structure Filled (count : Nat) (l : Ledger) : Prop where
  active : l.assembler.active = true
  frame : l.assembler.frame = 5
  next : l.assembler.next = UInt16.ofNat count
  length : l.assembler.bytes.length = count
  started : l.assembler.started = 0
  nothing : l.assembler.haveCompleted = false
  parts : l.parts.length = count

section Filled

variable {count : Nat} {l : Ledger} {flags : UInt8}

theorem Filled.continues (filled : Filled count l) (small : count ≤ 65536)
    (listed : flags = 2 ∨ flags = 4) :
    l.assembler.joining (tiny count flags) 0 = .continues := by
  obtain ⟨flag, frame, payload⟩ := tiny_reads count flags
  have valid : validHeader (Memory.ofBytes (tiny count flags)) (tiny count flags).length = true :=
    tiny_valid count flags (by rcases listed with rfl | rfl <;> decide)
  have known : flags ∈ imageFlags := by rcases listed with rfl | rfl <;> decide
  have kept : l.assembler.expire 0 = l.assembler := by
    rw [expire, filled.started]
    exact if_neg fun old => absurd old.2 (by decide)
  rw [joining, if_neg (by rw [valid, flag]; simp [known]), kept, flag, frame, payload,
    tiny_index, place]
  rw [if_neg (by simp [outdated, filled.nothing]), if_neg (by simp [delayed, filled.frame]),
    if_neg (by rcases listed with rfl | rfl <;> decide), if_neg]
  rw [filled.active, filled.frame, filled.next, filled.length]
  simp [maxImageBytes]
  omega

theorem Filled.perform (filled : Filled count l) (small : count < 65536) :
    Filled (count + 1) (l.perform (.push (tiny count 2) 0)) := by
  have joins := filled.continues small.le (.inl rfl)
  have outcome := l.assembler.joining_spec (tiny count 2) 0
  rw [joins] at outcome
  cases outcome with
  | continues counters target running =>
    rcases target.outcome with ⟨_, more⟩ | ⟨last, _⟩
    · have grown : l.perform (.push (tiny count 2) 0) = {
          assembler := { l.assembler with
            counters, bytes := l.assembler.bytes ++ [0], next := l.assembler.next + 1 }
          parts := l.parts ++ [tiny count 2], images := l.images } := by
        rw [Ledger.perform, more, Ledger.joined, joins]
        simp [filled.active]
        rfl
      rw [grown]
      refine ⟨filled.active, filled.frame, ?_, ?_, filled.started, filled.nothing, ?_⟩
      · simp only [filled.next, UInt16.ofNat_add]
        rfl
      · simp [filled.length]
      · simp [filled.parts]
    · rw [(tiny_reads count 2).1] at last
      exact absurd (by decide) last

theorem Filled.complete (filled : Filled 65536 l) :
    ∃ image, (l.perform (.push (tiny 65536 4) 0)).images =
      l.images ++ [(l.parts ++ [tiny 65536 4], image)] := by
  have joins := filled.continues le_rfl (.inr rfl)
  have outcome := l.assembler.joining_spec (tiny 65536 4) 0
  rw [joins] at outcome
  cases outcome with
  | continues counters target running =>
    rcases target.outcome with ⟨more, _⟩ | ⟨_, _, last⟩
    · rw [(tiny_reads 65536 4).1] at more
      exact absurd more (by decide)
    · refine ⟨l.assembler.bytes ++ payloadOf (tiny 65536 4), ?_⟩
      rw [Ledger.perform, Ledger.joined, joins]
      simp only [last]

end Filled

/-- All indices once, and then index 0 again, on the last fragment. -/
def allIndices (count : Nat) : List Call :=
  .push (tiny 0 1) 0 :: (List.range count).map fun k => .push (tiny (k + 1) 2) 0

def overlong : List Call := allIndices 65535 ++ [.push (tiny 65536 4) 0]

theorem filled_allIndices {count : Nat} (small : count < 65536) :
    Filled (count + 1) (Ledger.ofRun (allIndices count)) := by
  induction count with
  | zero => constructor <;> decide +kernel
  | succ count ih =>
    have longer : allIndices (count + 1) = allIndices count ++ [.push (tiny (count + 1) 2) 0] := by
      simp [allIndices, List.range_succ]
    rw [longer, Ledger.ofRun_concat]
    exact (ih (by omega)).perform (by omega)

/-- The image of 65537 fragments is returned, with index 0 at both ends. -/
theorem fragments_used_once_overlong : ¬ UsedOnce overlong ∧
    ∃ entry ∈ (Ledger.ofRun overlong).images, entry.1.length = 65537 ∧
      ¬ (entry.1.map indexOf).Nodup := by
  have filled : Filled 65536 (Ledger.ofRun (allIndices 65535)) := filled_allIndices (by decide)
  have overflows : Overflows (Ledger.ofRun (allIndices 65535)).assembler
      (.push (tiny 65536 4) 0) :=
    ⟨filled.active, filled.next, filled.continues le_rfl (.inr rfl)⟩
  obtain ⟨part, member, reused⟩ := overflows.reused (Ledger.ofRun_sound _)
  constructor
  · intro used
    exact used.fresh (allIndices 65535) _ _ [] rfl overflows.2.2 part member reused
  · obtain ⟨image, images⟩ := filled.complete
    rw [overlong, Ledger.ofRun_concat, images]
    refine ⟨_, List.mem_append_right _ List.mem_cons_self, ?_, ?_⟩
    · rw [List.length_append, filled.parts]
      rfl
    · intro distinct
      rw [List.map_append, List.nodup_append'] at distinct
      exact distinct.2.2 (List.mem_map_of_mem member)
        (by rw [reused]; exact List.mem_cons_self)

end VbanStream.FrameAssembler
