import VbanStream.Library.Regulator
import VbanStream.Buffer.Startup

namespace VbanStream

open Library

/-- The frames of a block at a rate. -/
def blockOf (rate : Nat) : Nat := rate / 100

/-- The depth the queue is held at, for 30 ms. -/
def targetOf (rate : Nat) : Nat := rate * 30 / 1000

/-- Timestamps round down to whole nanoseconds, where the block is not a whole number
of them. -/
def rounding (rate : Nat) : Nat := if 100 ∣ rate then 0 else 1

/-- The rate at which the target leaves no room for that rounding. -/
def slack (rate : Nat) : Nat := if rate = 11025 then 1 else 0

/-- What the integer divisions of the code give for the rates of the table. -/
structure Divided (rate : Nat) : Prop where
  large : 60 ≤ blockOf rate
  block : 100 * blockOf rate ≤ rate ∧ rate ≤ 100 * blockOf rate + 50
  target : 3 * blockOf rate ≤ targetOf rate ∧ targetOf rate ≤ 3 * blockOf rate + 1
  margin : max (blockOf rate) (targetOf rate / 3) = blockOf rate
  room : rounding rate = slack rate ∨ slack rate = 0 ∧ targetOf rate = 3 * blockOf rate + 1

instance (rate : Nat) : Decidable (Divided rate) :=
  decidable_of_iff (60 ≤ blockOf rate ∧
    (100 * blockOf rate ≤ rate ∧ rate ≤ 100 * blockOf rate + 50) ∧
    (3 * blockOf rate ≤ targetOf rate ∧ targetOf rate ≤ 3 * blockOf rate + 1) ∧
    max (blockOf rate) (targetOf rate / 3) = blockOf rate ∧
    (rounding rate = slack rate ∨ slack rate = 0 ∧ targetOf rate = 3 * blockOf rate + 1))
    ⟨fun ⟨large, block, target, margin, room⟩ => ⟨large, block, target, margin, room⟩,
      fun ⟨large, block, target, margin, room⟩ => ⟨large, block, target, margin, room⟩⟩

theorem divided {rate : UInt32} (listed : rate ∈ sampleRates) : Divided rate.toNat := by
  have all : (sampleRates.all fun rate => decide (Divided rate.toNat)) = true := by decide +kernel
  exact of_decide_eq_true (List.all_eq_true.mp all rate listed)

/-- The first packet arrives at `lead` and one more each `period`, and no pull comes more
than `late` after its block is due. -/
structure Pacing where
  lead : Nat
  period : Nat
  late : Nat

namespace Pacing

def arrival (pacing : Pacing) (k : Nat) : Nat := pacing.lead + k * pacing.period

/-- The sender's clock is off by less than one frame per block. A packet, with what
arrives while a pull may be late and in `spare` nanoseconds more, is less than a block. -/
structure Within (pacing : Pacing) (rate frames spare : Nat) : Prop where
  slow : (blockOf rate - 1) * (pacing.period * rate) < frames * (blockOf rate * 1000000000)
  fast : frames * (blockOf rate * 1000000000) < (blockOf rate + 1) * (pacing.period * rate)
  room : frames * pacing.period + frames * (pacing.late + spare) <
    blockOf rate * pacing.period
  many : blockOf rate ≤ frames * 100

/-- What is produced by the time block `count` is due, `base` after the first packet, in
frames per packet period and second. -/
def level (rate frames base count : Nat) : Nat :=
  frames * (base * rate + count * (blockOf rate * 1000000000))

theorem level_succ (rate frames base count : Nat) :
    level rate frames base (count + 1) =
      level rate frames base count + frames * (blockOf rate * 1000000000) := by
  simp only [level]
  ring

end Pacing

open Pacing

section Arithmetic

variable {pacing : Pacing} {rate frames : Nat}

namespace Pacing.Within

theorem fewer (within : pacing.Within rate frames (slack rate)) : frames < blockOf rate := by
  have room := within.room
  exact Nat.lt_of_mul_lt_mul_right (Nat.lt_of_le_of_lt (Nat.le_add_right _ _) room)

theorem positive (within : pacing.Within rate frames (slack rate)) : 0 < frames := by
  have fewer := within.fewer
  have many := within.many
  omega

theorem soon (within : pacing.Within rate frames (slack rate)) (divided : Divided rate) :
    pacing.period < 10000000 ∧ pacing.late < 10000000 := by
  have fewer := within.fewer
  have positive := within.positive
  have short := divided.block.1
  have large := divided.large
  obtain ⟨slow, _, room, _⟩ := within
  generalize blockOf rate = block at *
  have stretched : frames * (block * 1000000000) ≤ (block - 1) * (10000000 * rate) :=
    Nat.mul_le_mul (by omega) (by omega)
  constructor
  · have reached : (block - 1) * rate * pacing.period < (block - 1) * rate * 10000000 := by
      calc (block - 1) * rate * pacing.period = (block - 1) * (pacing.period * rate) := by ring
        _ < (block - 1) * (10000000 * rate) := slow.trans_le stretched
        _ = (block - 1) * rate * 10000000 := by ring
    exact Nat.lt_of_mul_lt_mul_left reached
  · have waited : frames * pacing.late ≤ (block - 1) * pacing.period := by
      obtain ⟨spare, rfl⟩ := Nat.exists_eq_add_of_lt fewer
      rw [Nat.add_sub_cancel]
      nlinarith
    have reached : frames * rate * pacing.late < frames * rate * 10000000 := by
      calc frames * rate * pacing.late = frames * pacing.late * rate := by ring
        _ ≤ (block - 1) * pacing.period * rate := Nat.mul_le_mul_right _ waited
        _ = (block - 1) * (pacing.period * rate) := by ring
        _ < frames * (block * 1000000000) := slow
        _ ≤ frames * (rate * 10000000) := Nat.mul_le_mul_left _ (by omega)
        _ = frames * rate * 10000000 := by ring
    exact Nat.lt_of_mul_lt_mul_left reached

theorem dense (within : pacing.Within rate frames (slack rate)) (divided : Divided rate)
    (rated : rate ≤ 705600) : frames ≤ pacing.period := by
  have large := divided.large
  have fast := within.fast
  generalize blockOf rate = block at *
  by_contra short
  have reached : (block + 1) * (pacing.period * rate) ≤ frames * (block * 1000000000) := by
    calc (block + 1) * (pacing.period * rate) ≤ block * 2 * (frames * 705600) :=
          Nat.mul_le_mul (by omega) (Nat.mul_le_mul (by omega) rated)
      _ = frames * (block * 1411200) := by ring
      _ ≤ frames * (block * 1000000000) :=
          Nat.mul_le_mul_left _ (Nat.mul_le_mul_left _ (by omega))
  omega

/-- The corrections of the queue are enough for these clocks. -/
theorem regulated (within : pacing.Within rate frames (slack rate)) (divided : Divided rate)
    (rated : rate ≤ 705600) :
    Regulated (pacing.period * rate) (frames * (blockOf rate * 1000000000)) (blockOf rate)
      (targetOf rate) (targetOf rate + blockOf rate + 4) (frames * rounding rate * rate)
      (frames * (pacing.late + pacing.period) * rate) := by
  have dense := within.dense divided rated
  have large := divided.large
  have target := divided.target
  have room : (frames * pacing.period + frames * (pacing.late + slack rate)) * rate ≤
      blockOf rate * pacing.period * rate := Nat.mul_le_mul_right _ within.room.le
  have short : frames * rounding rate ≤ pacing.period := by
    rw [rounding]
    split
    · exact Nat.zero_le _
    · rwa [Nat.mul_one]
  have rounded : frames * rounding rate * rate ≤ pacing.period * rate :=
    Nat.mul_le_mul_right _ short
  have slow := within.slow
  have first : (blockOf rate - 1) * (pacing.period * rate) + pacing.period * rate =
      blockOf rate * (pacing.period * rate) := by
    rw [← Nat.succ_mul]
    congr 1
    omega
  refine ⟨by omega, by omega, within.fast, rounded, ?_, by omega⟩
  rcases divided.room with covered | ⟨spared, deeper⟩
  · have deep := Nat.mul_le_mul_right (pacing.period * rate) target.1
    rw [covered]
    nlinarith
  · rw [deeper]
    rw [spared] at room
    nlinarith

end Pacing.Within

/-- The timestamp of block `count`, rounded down. -/
theorem due_rounded (divided : Divided rate) (count : Nat) :
    nanoseconds (count * blockOf rate) rate * rate ≤ count * (blockOf rate * 1000000000) ∧
      count * (blockOf rate * 1000000000) ≤
        nanoseconds (count * blockOf rate) rate * rate + rounding rate * rate := by
  have low := divided.block.1
  have large := divided.large
  rw [← Nat.mul_assoc, nanoseconds]
  refine ⟨Nat.div_mul_le_self _ _, ?_⟩
  unfold rounding
  split
  · rename_i whole
    obtain ⟨block, rfl⟩ := whole
    have same : blockOf (100 * block) = block := Nat.mul_div_cancel_left _ (by omega)
    have exact' : count * block * 1000000000 = count * 10000000 * (100 * block) := by ring
    rw [same, exact', Nat.mul_div_cancel _ (by omega)]
    omega
  · rw [Nat.one_mul]
    exact (Nat.lt_div_mul_add (by omega)).le

variable {base count served sent depth : Nat}

/-- Before a packet arrives or a block leaves, the queue holds no more than what was
produced and what came while the pull was late. -/
theorem sighted_high (divided : Divided rate) (depth_eq : depth + served = sent * frames)
    (prompt : sent * pacing.period ≤
      base + nanoseconds (count * blockOf rate) rate + pacing.late + pacing.period) :
    (depth + served) * (pacing.period * rate) ≤
      level rate frames base count + frames * (pacing.late + pacing.period) * rate := by
  have rounded := (due_rounded divided count).1
  rw [depth_eq, level]
  calc sent * frames * (pacing.period * rate) = frames * rate * (sent * pacing.period) := by ring
    _ ≤ frames * rate *
        (base + nanoseconds (count * blockOf rate) rate + pacing.late + pacing.period) :=
        Nat.mul_le_mul_left _ prompt
    _ = frames * (base * rate + nanoseconds (count * blockOf rate) rate * rate) +
        frames * (pacing.late + pacing.period) * rate := by ring
    _ ≤ _ := Nat.add_le_add_right (Nat.mul_le_mul_left _ (Nat.add_le_add_left rounded _)) _

/-- When a block is due, every packet has come that was to come before. -/
theorem sighted (divided : Divided rate) (depth_eq : depth + served = sent * frames)
    (arrived : base + nanoseconds (count * blockOf rate) rate ≤ sent * pacing.period)
    (prompt : sent * pacing.period ≤
      base + nanoseconds (count * blockOf rate) rate + pacing.late + pacing.period) :
    Sighted (pacing.period * rate) (frames * rounding rate * rate)
      (frames * (pacing.late + pacing.period) * rate) (level rate frames base count)
      served depth := by
  refine ⟨?_, sighted_high divided depth_eq prompt⟩
  have rounded := (due_rounded divided count).2
  rw [depth_eq, level]
  calc frames * (base * rate + count * (blockOf rate * 1000000000)) ≤
        frames * (base * rate + (nanoseconds (count * blockOf rate) rate * rate +
          rounding rate * rate)) := Nat.mul_le_mul_left _ (Nat.add_le_add_left rounded _)
    _ = frames * rate * (base + nanoseconds (count * blockOf rate) rate) +
        frames * rounding rate * rate := by ring
    _ ≤ frames * rate * (sent * pacing.period) + frames * rounding rate * rate :=
        Nat.add_le_add_right (Nat.mul_le_mul_left _ arrived) _
    _ = _ := by ring

theorem produced (within : pacing.Within rate frames (slack rate)) (divided : Divided rate)
    (prompt : base ≤ 30000000 + pacing.late) :
    frames * (base * rate) < (targetOf rate + blockOf rate + 4) * (pacing.period * rate) := by
  have positive := within.positive
  have large := divided.large
  have target := divided.target
  have floor : 30000000 * rate ≤ 1000000000 * (targetOf rate + 1) := by
    rw [targetOf]
    omega
  have lateness : frames * pacing.period + frames * pacing.late ≤ blockOf rate * pacing.period := by
    have room := within.room
    rw [Nat.mul_add] at room
    omega
  have room := Nat.mul_le_mul_right rate lateness
  have fast := within.fast
  generalize targetOf rate = goal at *
  generalize blockOf rate = block at *
  have waited : block * (frames * (30000000 * rate)) <
      block * ((goal + 5) * (pacing.period * rate)) := by
    calc block * (frames * (30000000 * rate)) ≤
          block * (frames * (1000000000 * (goal + 1))) :=
          Nat.mul_le_mul_left _ (Nat.mul_le_mul_left _ floor)
      _ = (goal + 1) * (frames * (block * 1000000000)) := by ring
      _ < (goal + 1) * ((block + 1) * (pacing.period * rate)) :=
          Nat.mul_lt_mul_of_pos_left fast (by omega)
      _ = (block * goal + block + goal + 1) * (pacing.period * rate) := by ring
      _ ≤ (block * goal + block + block * 4) * (pacing.period * rate) :=
          Nat.mul_le_mul_right _ (by omega)
      _ = block * ((goal + 5) * (pacing.period * rate)) := by ring
  have started := Nat.lt_of_mul_lt_mul_left waited
  have unit : pacing.period * rate ≤ frames * pacing.period * rate := by
    rw [Nat.mul_assoc]
    exact Nat.le_mul_of_pos_left _ positive
  have delayed : frames * (base * rate) ≤ frames * ((30000000 + pacing.late) * rate) :=
    Nat.mul_le_mul_left _ (Nat.mul_le_mul_right _ prompt)
  nlinarith

/-- The first block meets the queue in its band. -/
theorem level_start (within : pacing.Within rate frames (slack rate)) (divided : Divided rate)
    (rated : rate ≤ 705600) (ready : 30000000 ≤ base) (prompt : base ≤ 30000000 + pacing.late) :
    Level (pacing.period * rate) (blockOf rate) (targetOf rate + blockOf rate + 4)
      (frames * rounding rate * rate) (level rate frames base 0) 0 := by
  have short := (within.regulated divided rated).short
  have slow := (within.regulated divided rated).slow
  have large := divided.large
  have low := divided.block.1
  have upper := produced within divided prompt
  simp only [level, Nat.zero_mul, Nat.add_zero]
  refine ⟨?_, upper⟩
  have waited : 3 * (frames * (blockOf rate * 1000000000)) ≤ frames * (base * rate) := by
    calc 3 * (frames * (blockOf rate * 1000000000)) =
          frames * (30000000 * (100 * blockOf rate)) := by ring
      _ ≤ frames * (base * rate) := Nat.mul_le_mul_left _ (Nat.mul_le_mul ready low)
  have many := Nat.mul_le_mul_right (pacing.period * rate) large
  rw [Nat.add_zero]
  omega

/-- The band of the queue at this pace. -/
abbrev Pacing.Held (pacing : Pacing) (rate frames base count served : Nat) : Prop :=
  Level (pacing.period * rate) (blockOf rate) (targetOf rate + blockOf rate + 4)
    (frames * rounding rate * rate) (level rate frames base count) served

end Arithmetic

end VbanStream
