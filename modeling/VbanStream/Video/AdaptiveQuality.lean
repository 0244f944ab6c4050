import VbanStream.Library.Overflow
import VbanStream.Video.CaptureGate
import VbanStream.Video.Fidelity
import VbanStream.Video.SendPacing

namespace VbanStream

open Library

namespace FrameSender

/-- What `prepare` requires of the settings that the quality depends on. -/
structure Configured (config : FrameOutputConfig) : Prop where
  quality : 1 ≤ config.quality ∧ config.quality ≤ 100
  fps : 1 ≤ config.fps ∧ config.fps ≤ 30
  mbps : config.mbps ∈ [6, 12, 24, 48, 84]

theorem Configured.of_supported {config : FrameOutputConfig} (valid : supported config = true) :
    Configured config := by
  simp only [supported, Bool.and_eq_true, decide_eq_true_eq, List.contains_iff_mem] at valid
  obtain ⟨⟨⟨⟨⟨⟨_, low⟩, high⟩, least⟩, most⟩, allowed⟩, _⟩ := valid
  exact ⟨⟨least, most⟩, ⟨low, high⟩, allowed⟩

/-- Whether the quality is adapted at all. -/
def Adapts (config : FrameOutputConfig) : Prop :=
  config.format = "JPEG" ∧ config.adaptiveJpeg = true

/-- The quality that the first encoding of a picture is made with. -/
def firstQuality (config : FrameOutputConfig) (adaptiveQuality : Int) : Int :=
  if config.adaptiveJpeg then adaptiveQuality else config.quality

/-- The qualities that the configured one allows. -/
def InBand (config : FrameOutputConfig) (quality : Int) : Prop :=
  min 5 config.quality ≤ quality ∧ quality ≤ config.quality

namespace Session

section Words

/-- `budget` in 64-bit words. -/
def budgetWithin (config : FrameOutputConfig) : Option UInt64 := do
  let rate ← productWithin (UInt64.ofInt config.mbps) 1000000
  let share ← productWithin rate 85
  let period ← productWithin (8 * 100) (UInt64.ofInt config.fps)
  quotientWithin share period

/-- `wire_size` in 64-bit words. -/
def wireSizeWithin (encoded : List UInt8) : Option UInt64 := do
  let size := UInt64.ofNat encoded.length
  let rounded ← sumWithin size 1435
  let overhead ← productWithin (rounded / 1436) (28 + 66)
  sumWithin size overhead

/-- The proportional cut of the quality, between its bounds. -/
def lowerWithin (quality minimum : Int) (budget size : UInt64) : Option Int := do
  let share ← productWithin (UInt64.ofInt quality) budget
  let share ← productWithin share 90
  let whole ← productWithin size 100
  let quotient ← quotientWithin share whole
  let lower ← intWithin quotient
  clampWithin lower minimum (quality - 1)

/-- `judge` in the arithmetic of the source: `none` for a product or a sum that overflows, for a
division by zero and for a clamp with its bounds in the wrong order. -/
def judgeWithin (s : Session) (job : Job) (quality : Int) (retry : Nat)
    (encoded : List UInt8) : Option Session :=
  let config := s.output.config
  if config.format = "JPEG" ∧ config.adaptiveJpeg = true then do
    let budget ← budgetWithin config
    let minimum := min 5 config.quality
    let size ← wireSizeWithin encoded
    if retry < 2 ∧ s.stop = false ∧ size > budget ∧ quality > minimum then
      (lowerWithin quality minimum budget size).map fun lower =>
        { s with worker := .reading job lower (retry + 1) [] 0 }
    else
      (productWithin budget 3).map fun threshold =>
        let adaptiveQuality :=
          if size < threshold / 4 then min config.quality (quality + 2) else quality
        { s with adaptiveQuality, worker := .deciding job quality encoded }
  else some { s with worker := .deciding job quality encoded }

variable {config : FrameOutputConfig} {encoded : List UInt8}

theorem rate_le (configured : Configured config) :
    6 ≤ config.mbps.toNat ∧ config.mbps.toNat ≤ 84 := by
  have allowed := configured.mbps
  simp only [List.mem_cons, List.not_mem_nil, or_false] at allowed
  omega

theorem budget_le (configured : Configured config) :
    0 < budget config ∧ budget config ≤ 8925000 := by
  have := rate_le configured
  have := configured.fps
  rw [budget]
  constructor
  · apply Nat.div_pos <;> omega
  · apply Nat.div_le_of_le_mul
    omega

theorem budgetWithin_eq (configured : Configured config) :
    ∃ word, budgetWithin config = some word ∧ word.toNat = budget config := by
  obtain ⟨_, bounded⟩ := rate_le configured
  obtain ⟨low, high⟩ := configured.fps
  have mbps : (UInt64.ofInt config.mbps).toNat = config.mbps.toNat :=
    toNat_ofInt (by omega) (by omega)
  have fps : (UInt64.ofInt config.fps).toNat = config.fps.toNat := toNat_ofInt (by omega) (by omega)
  obtain ⟨rate, first, rateIs⟩ := productWithin_of_lt (a := UInt64.ofInt config.mbps)
    (b := 1000000) (by simp only [mbps, UInt64.reduceToNat]; omega)
  simp only [mbps, UInt64.reduceToNat] at rateIs
  obtain ⟨share, second, shareIs⟩ := productWithin_of_lt (a := rate) (b := 85)
    (by simp only [rateIs, UInt64.reduceToNat]; omega)
  obtain ⟨period, third, periodIs⟩ := productWithin_of_lt (a := 8 * 100)
    (b := UInt64.ofInt config.fps) (by rw [fps]; simp; omega)
  obtain ⟨quotient, fourth, quotientIs⟩ := quotientWithin_of_pos (a := share) (b := period)
    (by rw [periodIs, fps]; simp; omega)
  refine ⟨quotient, ?_, ?_⟩
  · simp only [budgetWithin, first, second, third, fourth, Option.bind_eq_bind, Option.bind_some]
  · rw [quotientIs, shareIs, rateIs, periodIs, fps, budget]
    rfl

theorem wireSizeWithin_eq (short : encoded.length ≤ 2 ^ 40) :
    ∃ word, wireSizeWithin encoded = some word ∧ word.toNat = wireSize encoded := by
  have size : (UInt64.ofNat encoded.length).toNat = encoded.length := by
    rw [UInt64.toNat_ofNat', Nat.mod_eq_of_lt (by omega)]
  obtain ⟨rounded, first, roundedIs⟩ := sumWithin_of_lt (a := UInt64.ofNat encoded.length)
    (b := 1435) (by simp only [size, UInt64.reduceToNat]; omega)
  simp only [size, UInt64.reduceToNat] at roundedIs
  have packets : (rounded / 1436).toNat = fragmentCount encoded := by
    rw [UInt64.toNat_div, roundedIs]
    rfl
  obtain ⟨overhead, second, overheadIs⟩ := productWithin_of_lt (a := rounded / 1436)
    (b := 28 + 66) (by rw [packets, fragmentCount, fragmentBytes]; simp; omega)
  rw [packets] at overheadIs
  obtain ⟨word, third, wordIs⟩ := sumWithin_of_lt (a := UInt64.ofNat encoded.length)
    (b := overhead) (by rw [size, overheadIs, fragmentCount, fragmentBytes]; simp; omega)
  refine ⟨word, ?_, ?_⟩
  · simp only [wireSizeWithin, first, second, third, Option.bind_eq_bind, Option.bind_some]
  · rw [wordIs, size, overheadIs]
    rfl

theorem wireSize_le (short : encoded.length ≤ 2 ^ 40) : wireSize encoded ≤ 2 ^ 41 := by
  rw [wireSize, fragmentCount, fragmentBytes, headerSize]
  omega

/-- The cut takes place above the budget, so that it is below the quality. -/
theorem lowerWithin_eq {quality minimum : Int} {room size : UInt64} (low : minimum < quality)
    (positive : 0 ≤ minimum) (high : quality ≤ 100) (some : room.toNat ≤ 8925000)
    (large : room.toNat < size.toNat) (bounded : size.toNat ≤ 2 ^ 41) :
    lowerWithin quality minimum room size = .some (max minimum
      (min (quality * room.toNat * 90 / (size.toNat * 100)) (quality - 1))) := by
  have word : (UInt64.ofInt quality).toNat = quality.toNat := toNat_ofInt (by omega) (by omega)
  obtain ⟨natural, rfl⟩ : ∃ natural : ℕ, quality = natural := ⟨quality.toNat, by omega⟩
  rw [Int.toNat_natCast] at word
  have cost : natural * room.toNat ≤ 100 * 8925000 := Nat.mul_le_mul (by omega) some
  obtain ⟨first, made, firstIs⟩ := productWithin_of_lt (a := UInt64.ofInt natural) (b := room)
    (by rw [word]; omega)
  rw [word] at firstIs
  obtain ⟨share, second, shareIs⟩ := productWithin_of_lt (a := first) (b := 90)
    (by simp only [firstIs, UInt64.reduceToNat]; omega)
  obtain ⟨whole, third, wholeIs⟩ := productWithin_of_lt (a := size) (b := 100)
    (by simp only [UInt64.reduceToNat]; omega)
  simp only [UInt64.reduceToNat] at wholeIs
  obtain ⟨quotient, fourth, quotientIs⟩ := quotientWithin_of_pos (a := share) (b := whole)
    (by rw [wholeIs]; omega)
  simp only [shareIs, firstIs, wholeIs, UInt64.reduceToNat] at quotientIs
  have small : quotient.toNat < 2 ^ 31 := by
    rw [quotientIs]
    apply Nat.div_lt_of_lt_mul
    omega
  simp only [lowerWithin, made, second, third, fourth, intWithin, if_pos small,
    Option.bind_eq_bind, Option.bind_some]
  rw [clampWithin_eq (by omega), quotientIs]
  push_cast
  rfl

/-- Up to a size of `2 ^ 40` bytes nothing overflows, and every bound of a clamp is in order. -/
theorem judgeWithin_eq (s : Session) (job : Job) {quality : Int} (retry : Nat)
    (configured : Configured s.output.config) (band : InBand s.output.config quality)
    (short : encoded.length ≤ 2 ^ 40) :
    s.judgeWithin job quality retry encoded = some (s.judge job quality retry encoded) := by
  obtain ⟨room, first, roomIs⟩ := budgetWithin_eq configured
  obtain ⟨size, second, sizeIs⟩ := wireSizeWithin_eq short
  obtain ⟨threshold, third, thresholdIs⟩ := productWithin_of_lt (a := room) (b := 3)
    (by have := budget_le configured; simp only [roomIs, UInt64.reduceToNat]; omega)
  have above : size > room ↔ wireSize encoded > budget s.output.config := by
    rw [gt_iff_lt, UInt64.lt_iff_toNat_lt, roomIs, sizeIs]
  have below : size < threshold / 4 ↔ wireSize encoded < budget s.output.config * 3 / 4 := by
    rw [UInt64.lt_iff_toNat_lt, UInt64.toNat_div, sizeIs, thresholdIs, roomIs]
    rfl
  rw [judgeWithin, judge]
  by_cases adapts : s.output.config.format = "JPEG" ∧ s.output.config.adaptiveJpeg = true
  · rw [if_pos adapts, if_pos adapts]
    simp only [first, second, third, above, below, Option.bind_eq_bind, Option.bind_some,
      Option.map_some]
    by_cases again : retry < 2 ∧ s.stop = false ∧ wireSize encoded > budget s.output.config ∧
        quality > min 5 s.output.config.quality
    · have large := again.2.2.1
      have low := again.2.2.2
      have := configured.quality
      rw [if_pos again, if_pos again, lowerWithin_eq low (by omega) (by have := band.2; omega)
        (roomIs ▸ (budget_le configured).2) (by omega) (sizeIs ▸ wireSize_le short), roomIs, sizeIs,
        Option.map_some]
    · rw [if_neg again, if_neg again]
  · rw [if_neg adapts, if_neg adapts]

end Words

section Notes

/-- Where the encode worker is with the quality of its picture. -/
inductive Phase where
  | waiting
  | looking
  | calling (retry : Nat) (quality : Int)
  | judging (retry : Nat) (quality : Int) (encoded : List UInt8)
  | done

def Phase.ofWorker : Worker → Phase
  | .waiting => .waiting
  | .comparing .. => .looking
  | .reading _ quality retry _ _ => .calling retry quality
  | .judging _ quality retry encoded => .judging retry quality encoded
  | _ => .done

/-- What an observer of the encoder sees: a new picture, a call of the encoder and its result. -/
inductive Note where
  | picture
  | called (retry : Nat) (quality : Int)
  | returned (retry : Nat) (quality : Int) (written : Written)

/-- The notes of a step between two phases. -/
def Phase.noted (written : Written) : Phase → Phase → List Note
  | .calling .., .calling .. => []
  | .calling retry quality, _ => [.returned retry quality written]
  | .waiting, .calling retry quality => [.picture, .called retry quality]
  | .waiting, .looking => [.picture]
  | _, .calling retry quality => [.called retry quality]
  | _, _ => []

def notes (s : Session) : Label → List Note
  | .work now written =>
    ((s.work now written).map fun taken =>
      Phase.noted written (.ofWorker s.worker) (.ofWorker taken.1.worker)).getD []
  | _ => []

/-- How a step of the encode worker moves between the phases, and what it does to the quality. -/
inductive Tunes (config : FrameOutputConfig) : Phase → Int → List Note → Phase → Int → Prop
  | rest (adaptive : Int) : Tunes config .done adaptive [] .done adaptive
  | ready (adaptive : Int) : Tunes config .done adaptive [] .waiting adaptive
  | finish (adaptive : Int) : Tunes config .waiting adaptive [] .done adaptive
  | take (adaptive : Int) : Tunes config .waiting adaptive [.picture] .looking adaptive
  | look (adaptive : Int) : Tunes config .looking adaptive [] .looking adaptive
  | skip (adaptive : Int) : Tunes config .looking adaptive [] .done adaptive
  | fresh (adaptive : Int) : Tunes config .waiting adaptive
      [.picture, .called 0 (firstQuality config adaptive)]
      (.calling 0 (firstQuality config adaptive)) adaptive
  | differs (adaptive : Int) : Tunes config .looking adaptive
      [.called 0 (firstQuality config adaptive)]
      (.calling 0 (firstQuality config adaptive)) adaptive
  | read (retry : Nat) (quality adaptive : Int) :
      Tunes config (.calling retry quality) adaptive [] (.calling retry quality) adaptive
  | image (retry : Nat) (quality adaptive : Int) (encoded : List UInt8) :
      Tunes config (.calling retry quality) adaptive [.returned retry quality (.image encoded)]
        (.judging retry quality encoded) adaptive
  | failed (retry : Nat) (quality adaptive : Int) (written : Written)
      (none : ∀ encoded, written ≠ .image encoded) (after : Int)
      (kept : after = adaptive ∨ 0 < retry ∧ after = quality) :
      Tunes config (.calling retry quality) adaptive [.returned retry quality written] .done after
  | retry (retry : Nat) (quality adaptive : Int) (encoded : List UInt8) (adapts : Adapts config)
      (few : retry < 2) (lower : Int) (bounds : min 5 config.quality ≤ lower ∧ lower < quality) :
      Tunes config (.judging retry quality encoded) adaptive [.called (retry + 1) lower]
        (.calling (retry + 1) lower) adaptive
  | settle (retry : Nat) (quality adaptive : Int) (encoded : List UInt8) (adapts : Adapts config)
      (after : Int) (chosen : after = quality ∨ after = min config.quality (quality + 2)) :
      Tunes config (.judging retry quality encoded) adaptive [] .done after
  | keep (retry : Nat) (quality adaptive : Int) (encoded : List UInt8)
      (rigid : ¬ Adapts config) :
      Tunes config (.judging retry quality encoded) adaptive [] .done adaptive

variable {s t : Session}

theorem take_tunes {written : Written} {events : List Event} (waiting : s.worker = .waiting)
    (taken : s.take = some (t, events)) :
    t.output = s.output ∧
      Tunes s.output.config (.ofWorker s.worker) s.adaptiveQuality
        (Phase.noted written (.ofWorker s.worker) (.ofWorker t.worker)) (.ofWorker t.worker)
        t.adaptiveQuality := by
  rw [waiting]
  rw [take] at taken
  split at taken
  · cases taken
    exact ⟨rfl, .finish _⟩
  · split at taken
    · cases taken
    · obtain ⟨index, _, made⟩ := Option.map_eq_some_iff.mp taken
      cases made
      rw [consider]
      split
      · exact ⟨rfl, .take _⟩
      · exact ⟨rfl, .fresh _⟩

theorem encode_tunes {job : Job} {quality : Int} {retry : Nat} {seen : List UInt8} {row : Nat}
    {written : Written} {events : List Event}
    (reading : s.worker = .reading job quality retry seen row)
    (taken : s.encode job quality retry seen row written = some (t, events)) :
    t.output = s.output ∧
      Tunes s.output.config (.ofWorker s.worker) s.adaptiveQuality
        (Phase.noted written (.ofWorker s.worker) (.ofWorker t.worker)) (.ofWorker t.worker)
        t.adaptiveQuality := by
  rw [reading]
  simp only [encode] at taken
  split at taken
  · cases taken
    exact ⟨rfl, .read ..⟩
  · split at taken
    · cases taken
      exact ⟨rfl, .image ..⟩
    · split at taken
      · cases taken
      · cases taken
        refine ⟨rfl, .failed _ _ _ _ (by simp) _ ?_⟩
        rcases Nat.eq_zero_or_pos retry with none | some
        · exact .inl (if_pos none)
        · exact .inr ⟨some, if_neg some.ne'⟩
    · split at taken
      · cases taken
      · cases taken
        exact ⟨rfl, .failed _ _ _ _ (by simp) _ (.inl rfl)⟩

theorem judge_tunes (s : Session) (written : Written) (job : Job) (quality : Int) (retry : Nat)
    (encoded : List UInt8) :
    let t := s.judge job quality retry encoded
    t.output = s.output ∧
      Tunes s.output.config (.judging retry quality encoded) s.adaptiveQuality
        (Phase.noted written (.judging retry quality encoded) (.ofWorker t.worker))
        (.ofWorker t.worker) t.adaptiveQuality := by
  rw [judge]
  split
  · split
    · rename_i adapts again
      obtain ⟨few, _, _, low⟩ := again
      exact ⟨rfl, .retry _ _ _ _ adapts few _ (by omega)⟩
    · rename_i adapts _
      refine ⟨rfl, .settle _ _ _ _ adapts _ ?_⟩
      split
      · exact .inr rfl
      · exact .inl rfl
  · rename_i rigid
    exact ⟨rfl, .keep _ _ _ _ rigid⟩

theorem work_tunes {now : UInt64} {written : Written} {events : List Event}
    (taken : s.work now written = some (t, events)) :
    t.output = s.output ∧
      Tunes s.output.config (.ofWorker s.worker) s.adaptiveQuality
        (Phase.noted written (.ofWorker s.worker) (.ofWorker t.worker)) (.ofWorker t.worker)
        t.adaptiveQuality := by
  rw [work] at taken
  split at taken
  · exact take_tunes ‹_› taken
  · rename_i job previous row looking
    cases taken
    rw [looking, compare]
    split
    · split
      · exact ⟨rfl, .look _⟩
      · exact ⟨rfl, .differs _⟩
    · exact ⟨rfl, .skip _⟩
  · rename_i job unchanged
    rw [unchanged]
    rw [refresh] at taken
    split at taken <;> cases taken <;> exact ⟨rfl, .rest _⟩
  · exact encode_tunes ‹_› taken
  · rename_i job quality retry encoded judging
    cases taken
    rw [judging]
    exact judge_tunes ..
  · rename_i job quality encoded deciding
    cases taken
    rw [deciding, decide]
    split <;> exact ⟨rfl, .rest _⟩
  · rename_i job encoded quality fresh queueing
    rw [queueImage] at taken
    split at taken
    · cases taken
    · cases taken
      rw [queueing]
      split <;> exact ⟨rfl, .rest _⟩
  · rename_i job remember settling
    obtain ⟨next, settled, same⟩ := Option.map_eq_some_iff.mp taken
    cases same
    rw [settle] at settled
    split at settled
    · cases settled
    · cases settled
      rw [settling]
      exact ⟨rfl, .ready _⟩
  · cases taken

/-- The producer and the transmit worker leave the quality alone. -/
theorem step_tunes {label : Label} {events : List Event}
    (taken : s.step label = some (t, events)) :
    t.output = s.output ∧
      (Tunes s.output.config (.ofWorker s.worker) s.adaptiveQuality (s.notes label)
          (.ofWorker t.worker) t.adaptiveQuality ∨
        s.notes label = [] ∧ t.worker = s.worker ∧ t.adaptiveQuality = s.adaptiveQuality) := by
  cases label with
  | capture rgba stride timestamp owns =>
    rw [step] at taken
    split at taken
    · cases taken
    · cases taken
      obtain ⟨_, _, _, same | ⟨_, _, _, same⟩⟩ := s.capture_cases rgba stride timestamp owns
      · rw [same]
        exact ⟨rfl, .inr ⟨rfl, rfl, rfl⟩⟩
      · rw [same]
        exact ⟨rfl, .inr ⟨rfl, rfl, rfl⟩⟩
  | produce now =>
    rw [step, produce] at taken
    split at taken
    · cases taken
    · split at taken <;> cases taken <;> exact ⟨rfl, .inr ⟨rfl, rfl, rfl⟩⟩
  | work now written =>
    have stepped : s.work now written = some (t, events) := taken
    obtain ⟨output, tunes⟩ := work_tunes stepped
    refine ⟨output, .inl ?_⟩
    rwa [notes, stepped]
  | transmit attempts threw =>
    rw [step, transmit] at taken
    split at taken
    · split at taken
      · cases taken
        exact ⟨rfl, .inr ⟨rfl, rfl, rfl⟩⟩
      · split at taken
        · cases taken
        · obtain ⟨frame, _, made⟩ := Option.map_eq_some_iff.mp taken
          cases made
          exact ⟨rfl, .inr ⟨rfl, rfl, rfl⟩⟩
    · split at taken
      · cases taken
      · obtain ⟨_, _, _, _, _, _, same⟩ := sendFrame_eq s ‹_› attempts threw
        rw [same] at taken
        cases taken
        exact ⟨rfl, .inr ⟨rfl, rfl, rfl⟩⟩
    · cases taken
  | requestStop =>
    rw [step] at taken
    split at taken
    · cases taken
    · cases taken
      exact ⟨rfl, .inr ⟨rfl, rfl, rfl⟩⟩

end Notes

section Grammar

variable (config : FrameOutputConfig)

/-- A note of the encoder is in the band, and of the first encoding or of one of two retries. -/
def Note.Within : Note → Prop
  | .picture => True
  | .called retry quality | .returned retry quality _ => retry ≤ 2 ∧ InBand config quality

/-- What may follow on a note. A retry comes after an encoding, with a lower quality. -/
def Note.Follows : Note → Note → Prop
  | .picture, .picture => True
  | .picture, .called retry _ => retry = 0
  | .called retry quality, .returned retry' quality' _ => retry' = retry ∧ quality' = quality
  | .returned .., .picture => True
  | .returned retry quality (.image _), .called retry' lower =>
    retry' = retry + 1 ∧ lower < quality
  | _, _ => False

def Note.isEncoding : Note → Bool
  | .picture => false
  | _ => true

/-- The first encoding of a picture has at least the quality of a successful one before it. -/
def Note.Keeps : Note → Note → Prop
  | .returned _ quality (.image _), .called 0 next => quality ≤ next
  | _, _ => True

/-- The notes of a run. -/
structure Proper (noted : List Note) : Prop where
  within : ∀ note ∈ noted, note.Within config
  opens : ∀ note ∈ noted.head?, note = .picture
  follow : noted.IsChain Note.Follows
  keep : (noted.filter Note.isEncoding).IsChain Note.Keeps

variable {config} {noted : List Note}

theorem Proper.nil : Proper config [] :=
  ⟨by simp, by simp, List.isChain_nil, List.isChain_nil⟩

theorem Proper.snoc (proper : Proper config noted) {note : Note} (within : note.Within config)
    (opens : noted = [] → note = .picture)
    (follows : ∀ last ∈ noted.getLast?, last.Follows note)
    (keeps : note.isEncoding = true →
      ∀ last ∈ (noted.filter Note.isEncoding).getLast?, last.Keeps note) :
    Proper config (noted ++ [note]) where
  within := by
    rw [List.forall_mem_append]
    exact ⟨proper.within, by simpa using within⟩
  opens := by
    cases noted with
    | nil => simpa using opens rfl
    | cons first rest => exact proper.opens
  follow := by
    apply List.IsChain.append proper.follow (List.isChain_singleton note)
    simpa using follows
  keep := by
    rw [List.filter_append]
    apply List.IsChain.append proper.keep
    · cases encodes : note.isEncoding <;> simp [encodes]
    · cases encodes : note.isEncoding with
      | false => simp [encodes]
      | true => simpa [encodes] using keeps encodes

theorem getLast?_encoding {note : Note} (last : noted.getLast? = some note)
    (encodes : note.isEncoding = true) :
    (noted.filter Note.isEncoding).getLast? = some note := by
  obtain ⟨front, rfl⟩ := List.getLast?_eq_some_iff.mp last
  simp [encodes]

/-- A successful encoding, if it is the last one, has no more than the quality of the next. -/
def Covers (config : FrameOutputConfig) (noted : List Note) (adaptive : Int) : Prop :=
  ∀ retry quality encoded,
    (noted.filter Note.isEncoding).getLast? = some (.returned retry quality (.image encoded)) →
      quality ≤ firstQuality config adaptive

/-- What the notes so far say about the phase. -/
def Knows (config : FrameOutputConfig) (noted : List Note) (adaptive : Int) : Phase → Prop
  | .waiting | .done =>
    (∀ retry quality, noted.getLast? ≠ some (.called retry quality)) ∧
      Covers config noted adaptive
  | .looking => noted.getLast? = some .picture ∧ Covers config noted adaptive
  | .calling retry quality => noted.getLast? = some (.called retry quality) ∧
      (retry = 0 ∧ quality = firstQuality config adaptive ∨ Adapts config)
  | .judging retry quality encoded =>
    noted.getLast? = some (.returned retry quality (.image encoded)) ∧
      (retry = 0 ∧ quality = firstQuality config adaptive ∨ Adapts config)

/-- The invariant of the quality. -/
structure Tuned (config : FrameOutputConfig) (noted : List Note) (phase : Phase)
    (adaptive : Int) : Prop where
  proper : Proper config noted
  band : InBand config adaptive
  current : Knows config noted adaptive phase

theorem inBand_first {adaptive : Int} (configured : Configured config)
    (band : InBand config adaptive) : InBand config (firstQuality config adaptive) := by
  rw [firstQuality]
  split
  · exact band
  · have := configured.quality
    constructor <;> omega

/-- The encodings are not over before the picture is noted. -/
theorem Proper.picture {adaptive : Int} (proper : Proper config noted)
    (ended : ∀ retry quality, noted.getLast? ≠ some (.called retry quality))
    (covers : Covers config noted adaptive) :
    Proper config (noted ++ [.picture]) ∧ Covers config (noted ++ [.picture]) adaptive := by
  constructor
  · refine proper.snoc trivial (fun _ => rfl) (fun last known => ?_) nofun
    cases last with
    | called retry quality => exact absurd known (ended retry quality)
    | _ => trivial
  · intro retry quality encoded last
    rw [List.filter_append] at last
    exact covers retry quality encoded (by simpa [Note.isEncoding] using last)

theorem Proper.first {adaptive : Int} (configured : Configured config)
    (proper : Proper config noted) (band : InBand config adaptive)
    (last : noted.getLast? = some .picture) (covers : Covers config noted adaptive) :
    Proper config (noted ++ [.called 0 (firstQuality config adaptive)]) := by
  refine proper.snoc ⟨Nat.zero_le 2, inBand_first configured band⟩ ?_ ?_ fun _ note known => ?_
  · rintro rfl
    cases last
  · rw [last]
    rintro _ ⟨⟩
    rfl
  · cases note with
    | returned retry quality written =>
      cases written with
      | image encoded => exact covers retry quality encoded known
      | _ => trivial
    | _ => trivial

theorem Proper.later (proper : Proper config noted) {note last : Note}
    (known : noted.getLast? = some last) (within : last.Within config → note.Within config)
    (follows : last.Follows note) (encodes : last.isEncoding = true) (keeps : last.Keeps note) :
    Proper config (noted ++ [note]) := by
  refine proper.snoc (within (proper.within last (List.mem_of_getLast? known))) ?_ ?_ fun _ => ?_
  · rintro rfl
    cases known
  · rw [known]
    rintro _ ⟨⟩
    exact follows
  · rw [getLast?_encoding known encodes]
    rintro _ ⟨⟩
    exact keeps

theorem covers_failed {retry : Nat} {quality adaptive : Int} {written : Written}
    (none : ∀ encoded, written ≠ .image encoded) :
    Covers config (noted ++ [.returned retry quality written]) adaptive := by
  intro retry' quality' encoded last
  rw [getLast?_encoding List.getLast?_concat rfl] at last
  cases last
  exact absurd rfl (none encoded)

theorem covers_image {retry : Nat} {quality adaptive : Int} {encoded : List UInt8}
    (last : noted.getLast? = some (.returned retry quality (.image encoded)))
    (least : quality ≤ firstQuality config adaptive) : Covers config noted adaptive := by
  intro retry' quality' encoded' known
  rw [getLast?_encoding last rfl] at known
  cases known
  exact least

theorem Tuned.step {phase next : Phase} {adaptive after : Int} {notes : List Note}
    (configured : Configured config) (tuned : Tuned config noted phase adaptive)
    (tunes : Tunes config phase adaptive notes next after) :
    Tuned config (noted ++ notes) next after := by
  obtain ⟨proper, band, current⟩ := tuned
  cases tunes with
  | rest | ready | finish | look | read =>
    rw [List.append_nil]
    exact ⟨proper, band, current⟩
  | skip =>
    rw [List.append_nil]
    refine ⟨proper, band, ?_, current.2⟩
    rw [current.1]
    exact nofun
  | take =>
    obtain ⟨longer, covers⟩ := proper.picture current.1 current.2
    exact ⟨longer, band, List.getLast?_concat, covers⟩
  | fresh =>
    obtain ⟨longer, covers⟩ := proper.picture current.1 current.2
    have first := longer.first configured band List.getLast?_concat covers
    rw [List.append_assoc] at first
    exact ⟨first, band, List.getLast?_append_cons .., .inl ⟨rfl, rfl⟩⟩
  | differs =>
    exact ⟨proper.first configured band current.1 current.2, band, List.getLast?_concat,
      .inl ⟨rfl, rfl⟩⟩
  | image retry quality adaptive encoded =>
    refine ⟨?_, band, List.getLast?_concat, current.2⟩
    exact proper.later current.1 id ⟨rfl, rfl⟩ rfl trivial
  | failed retry quality adaptive written none after kept =>
    have within := proper.within _ (List.mem_of_getLast? current.1)
    refine ⟨proper.later current.1 id ⟨rfl, rfl⟩ rfl trivial, ?_, ?_, covers_failed none⟩
    · rcases kept with rfl | ⟨_, rfl⟩
      · exact band
      · exact within.2
    · rw [List.getLast?_concat]
      exact nofun
  | retry retry quality adaptive encoded adapts few lower bounds =>
    refine ⟨?_, band, List.getLast?_concat, .inr adapts⟩
    refine proper.later current.1 ?_ ⟨rfl, bounds.2⟩ rfl trivial
    intro within
    exact ⟨few, bounds.1, bounds.2.le.trans within.2.2⟩
  | settle retry quality adaptive encoded adapts after chosen =>
    have within := proper.within _ (List.mem_of_getLast? current.1)
    have least : quality ≤ after ∧ after ≤ config.quality := by
      have := within.2.2
      omega
    rw [List.append_nil]
    refine ⟨proper, ⟨within.2.1.trans least.1, least.2⟩, ?_, ?_⟩
    · rw [current.1]
      exact nofun
    · apply covers_image current.1
      rw [firstQuality, if_pos adapts.2]
      exact least.1
  | keep retry quality adaptive encoded rigid =>
    rw [List.append_nil]
    refine ⟨proper, band, ?_, ?_⟩
    · rw [current.1]
      exact nofun
    · rcases current.2 with ⟨_, same⟩ | adapts
      · exact covers_image current.1 same.le
      · exact absurd adapts rigid

end Grammar

/-- Every run keeps the invariant. -/
theorem tuned_run {output : OutputSession} {sequence : UInt32} {labels : List Label} {s : Session}
    (configured : Configured output.config)
    (ran : run advance (start output sequence) labels = some s) :
    s.output = output ∧ Tuned output.config
      (observed advance notes (start output sequence) labels) (.ofWorker s.worker)
      s.adaptiveQuality := by
  refine run_history (fun labels s => s.output = output ∧ Tuned output.config
    (observed advance notes (start output sequence) labels) (.ofWorker s.worker)
    s.adaptiveQuality) ?_ ?_ ran
  · have := configured.quality
    refine ⟨rfl, .nil, ⟨?_, le_rfl⟩, ?_, ?_⟩
    · exact min_le_right 5 output.config.quality
    · exact nofun
    · exact nofun
  · rintro labels s label t before ⟨same, tuned⟩ taken
    obtain ⟨⟨_, events⟩, stepped, rfl⟩ := Option.map_eq_some_iff.mp taken
    obtain ⟨kept, moves⟩ := step_tunes stepped
    refine ⟨kept.trans same, ?_⟩
    rw [observed_append before, observed_cons taken, observed, List.append_nil]
    rcases moves with tunes | ⟨quiet, worker, adaptive⟩
    · rw [same] at tunes
      exact tuned.step configured tunes
    · rw [quiet, List.append_nil, worker, adaptive]
      exact tuned

/-- The quality stays between the configured one and the lower of it and 5. The encoder is called
once for a picture and at most twice again, each time with a lower quality. The arithmetic is
that of the source for encodings of up to `2 ^ 40` bytes. After an encoding that succeeds, be it
within three quarters of the budget or not, the next picture starts at its quality or above. -/
theorem adaptive_quality_band (output : OutputSession) (sequence : UInt32)
    (configured : Configured output.config) (labels : List Label) (s : Session)
    (ran : run advance (start output sequence) labels = some s) :
    let noted := observed advance notes (start output sequence) labels
    (∀ note ∈ noted, note.Within output.config) ∧
      (∀ note ∈ noted.head?, note = .picture) ∧ noted.IsChain Note.Follows ∧
      InBand output.config s.adaptiveQuality ∧
      (∀ job quality retry encoded, s.worker = .judging job quality retry encoded →
        encoded.length ≤ 2 ^ 40 →
        s.judgeWithin job quality retry encoded = some (s.judge job quality retry encoded)) ∧
      (noted.filter Note.isEncoding).IsChain Note.Keeps := by
  intro noted
  obtain ⟨same, tuned⟩ := tuned_run configured ran
  refine ⟨tuned.proper.within, tuned.proper.opens, tuned.proper.follow, tuned.band, ?_,
    tuned.proper.keep⟩
  intro job quality retry encoded judging short
  have current := tuned.current
  rw [judging] at current
  have within := tuned.proper.within _ (List.mem_of_getLast? current.1)
  exact judgeWithin_eq s job retry (same ▸ configured) (same ▸ within.2) short

/-- The first encoding is too long for a thirtieth of a second at 6 Mbit/s, the second is not. -/
theorem adaptive_quality_band_retry :
    let output : OutputSession :=
      { config := { enabled := true, fps := 30, mbps := 6 }, width := 1, height := 1 }
    let labels := Recorded.dotCapture 7 1000000000 ++
      Recorded.dotWork 1000000000 (.image (List.replicate 21300 0)) 4 ++
      Recorded.dotWork 1000000000 (.image [1, 2]) 6
    ∃ s, run advance (start output 0) labels = some s ∧ s.adaptiveQuality = 69 ∧
      InBand output.config s.adaptiveQuality ∧
      (observed advance notes (start output 0) labels).IsChain Note.Follows := by
  intro output labels
  have shown : (run advance (start output 0) labels).any (fun s => s.adaptiveQuality == 69) =
      true := by
    decide +kernel
  obtain ⟨s, ran, lowered⟩ := (Option.any_eq_true _ _).mp shown
  obtain ⟨_, _, follow, band, _⟩ := adaptive_quality_band output 0
    ⟨by decide, by decide, by decide⟩ labels s ran
  exact ⟨s, ran, beq_iff_eq.mp lowered, band, follow⟩

end Session

end FrameSender

end VbanStream
