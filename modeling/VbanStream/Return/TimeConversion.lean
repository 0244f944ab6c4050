import VbanStream.Library.Overflow
import VbanStream.Return.Passthrough

namespace VbanStream

open Library

/-- `frames_to_ns`; `none` stands for an overflow. -/
def framesToNsWithin (frames : UInt64) (rate : UInt32) : Option UInt64 :=
  if rate = 0 then some 0
  else do
    let whole ← productWithin (frames / rate.toUInt64) 1000000000
    let part ← productWithin (frames % rate.toUInt64) 1000000000
    sumWithin whole (part / rate.toUInt64)

/-- `ns_to_frames`; `none` stands for an overflow. -/
def nsToFramesWithin (ns : Int64) (rate : UInt32) : Option Int64 := do
  let whole ← signedProductWithin (ns / 1000000000) rate.toUInt64.toInt64
  let part ← signedProductWithin (ns % 1000000000) rate.toUInt64.toInt64
  signedSumWithin whole (part / 1000000000)

section Conversions

variable {rate : UInt32}

theorem nanoseconds_lt {frames rate seconds : Nat} (positive : 0 < rate)
    (bound : frames / rate ≤ seconds) :
    nanoseconds frames rate < (seconds + 1) * 1000000000 := by
  have early : frames < (seconds + 1) * rate := Nat.lt_mul_of_div_lt (by omega) positive
  rw [nanoseconds, Nat.div_lt_iff_lt_mul positive, Nat.mul_right_comm]
  exact Nat.mul_lt_mul_of_pos_right early (by decide)

theorem framesToNsWithin_eq {frames : UInt64} (small : rate.toNat ≤ 1000000)
    (fits : nanoseconds frames.toNat rate.toNat < 2 ^ 64) :
    framesToNsWithin frames rate = some (framesToNs frames rate) := by
  have value := framesToNs_toNat small fits
  unfold framesToNsWithin framesToNs at *
  by_cases zero : rate = 0
  · rw [if_pos zero, if_pos zero]
  · rw [if_neg zero] at value
    rw [if_neg zero, if_neg zero]
    have positive : 0 < rate.toNat := Nat.pos_of_ne_zero fun none => zero (UInt32.toNat_inj.mp none)
    have remainder := Nat.mod_lt frames.toNat positive
    have split := nanoseconds_split frames.toNat positive
    have billion : (1000000000 : UInt64).toNat = 1000000000 := rfl
    have early : frames.toNat / rate.toNat * 1000000000 < 2 ^ 64 :=
      lt_of_le_of_lt (split ▸ Nat.le_add_right ..) fits
    have whole : productWithin (frames / rate.toUInt64) 1000000000 =
        some (frames / rate.toUInt64 * 1000000000) := by
      rw [productWithin, if_pos]
      rwa [UInt64.toNat_div, UInt32.toNat_toUInt64, billion]
    have part : productWithin (frames % rate.toUInt64) 1000000000 =
        some (frames % rate.toUInt64 * 1000000000) := by
      have bound : frames.toNat % rate.toNat * 1000000000 ≤ 1000000 * 1000000000 :=
        Nat.mul_le_mul_right _ (remainder.le.trans small)
      rw [productWithin, if_pos]
      rw [UInt64.toNat_mod, UInt32.toNat_toUInt64, billion]
      exact bound.trans_lt (by decide)
    rw [whole, Option.bind_eq_bind, Option.bind_some, part, Option.bind_some]
    rw [sumWithin_eq_some, value, split, productWithin_eq_some.mp whole, UInt64.toNat_div,
      UInt64.toNat_div, productWithin_eq_some.mp part, UInt64.toNat_mod, UInt32.toNat_toUInt64,
      billion]

theorem nsToFrames_eq (ns : Int) (rate : UInt32) :
    nsToFrames ns rate = (ns * rate.toNat).tdiv 1000000000 := by
  rcases Int.eq_nat_or_neg ns with ⟨n, rfl | rfl⟩
  · rw [nsToFrames_natCast]
    rfl
  · have mirrored : nsToFrames (-n) rate = -nsToFrames n rate := by
      simp only [nsToFrames, Int.neg_tdiv, Int.neg_tmod, Int.neg_mul, Int.neg_add]
    rw [mirrored, nsToFrames_natCast, Int.neg_mul, Int.neg_tdiv]
    rfl

theorem nsToFramesWithin_eq (ns : Int64) (small : rate.toNat ≤ 1000000) :
    ∃ frames, nsToFramesWithin ns rate = some frames ∧
      frames.toInt = nsToFrames ns.toInt rate := by
  have known : rate.toUInt64.toInt64.toInt = rate.toNat := by
    rw [toInt64_of_small (by rw [UInt32.toNat_toUInt64]; omega), UInt32.toNat_toUInt64]
  have billion : (1000000000 : Int64).toInt = 1000000000 := rfl
  have quotient : (ns / 1000000000).toInt = ns.toInt.tdiv 1000000000 := by
    rw [Int64.toInt_div_of_ne_right _ _ (by decide), billion]
  have remainder : (ns % 1000000000).toInt = ns.toInt.tmod 1000000000 := by
    rw [Int64.toInt_mod, billion]
  have low := ns.le_toInt
  have high := ns.toInt_lt
  have seconds : (ns.toInt.tdiv 1000000000).natAbs ≤ 9223372036 := by
    rw [Int.natAbs_tdiv]
    show ns.toInt.natAbs / 1000000000 ≤ _
    omega
  have rest : (ns.toInt.tmod 1000000000).natAbs < 1000000000 := by
    rw [Int.natAbs_tmod]
    exact Nat.mod_lt _ (by decide)
  have wholeBound : (ns.toInt.tdiv 1000000000 * rate.toNat).natAbs ≤ 9223372036 * 1000000 := by
    rw [Int.natAbs_mul]
    exact Nat.mul_le_mul seconds small
  have partBound : (ns.toInt.tmod 1000000000 * rate.toNat).natAbs ≤ 1000000000 * 1000000 := by
    rw [Int.natAbs_mul]
    exact Nat.mul_le_mul rest.le small
  have partSmall := Int.natAbs_tdiv_le_natAbs (ns.toInt.tmod 1000000000 * rate.toNat) 1000000000
  have fits := Signed.of_natAbs (show (nsToFrames ns.toInt rate).natAbs < 2 ^ 63 by
    rw [nsToFrames]
    omega)
  have whole : signedProductWithin (ns / 1000000000) rate.toUInt64.toInt64 =
      some (Int64.ofInt (ns.toInt.tdiv 1000000000 * rate.toNat)) := by
    rw [signedProductWithin_eq_some, quotient, known]
    exact (Signed.of_natAbs (wholeBound.trans_lt (by decide))).word
  have part : signedProductWithin (ns % 1000000000) rate.toUInt64.toInt64 =
      some (Int64.ofInt (ns.toInt.tmod 1000000000 * rate.toNat)) := by
    rw [signedProductWithin_eq_some, remainder, known]
    exact (Signed.of_natAbs (partBound.trans_lt (by decide))).word
  refine ⟨Int64.ofInt (nsToFrames ns.toInt rate), ?_, fits.word⟩
  rw [nsToFramesWithin, whole, Option.bind_eq_bind, Option.bind_some, part, Option.bind_some,
    signedSumWithin_eq_some, fits.word, Int64.toInt_div_of_ne_right _ _ (by decide),
    signedProductWithin_eq_some.mp whole, signedProductWithin_eq_some.mp part, quotient, remainder,
    known, billion, nsToFrames]

/-- There and back again loses a frame unless the duration was exact. -/
theorem frames_of_nanoseconds (frames : Nat) {rate : Nat} (positive : 0 < rate)
    (small : rate ≤ 1000000000) :
    let back := nanoseconds frames rate * rate / 1000000000
    (back + 1 = frames ∨ back = frames) ∧
      (back = frames ↔ rate ∣ frames * 1000000000 ∨ frames = 0) := by
  intro back
  have rest := Nat.mod_lt (frames * 1000000000) positive
  have value : back = (frames * 1000000000 - frames * 1000000000 % rate) / 1000000000 := by
    rw [← Nat.div_mul_self_eq_mod_sub_self]
    rfl
  rw [Nat.dvd_iff_mod_eq_zero, value]
  generalize frames * 1000000000 % rate = remainder at rest
  omega

end Conversions

/-- Up to 1 MHz both conversions are exact up to rounding and free of overflow; joining two
durations gains at most a nanosecond; and going there and back loses at most a frame, and
none exactly if the duration was a whole number of nanoseconds. -/
theorem time_conversions (rate : UInt32) (nonzero : rate ≠ 0) (small : rate.toNat ≤ 1000000) :
    (∀ n : UInt64, n.toNat / rate.toNat ≤ 18000000000 →
      framesToNsWithin n rate = some (framesToNs n rate) ∧
        (framesToNs n rate).toNat = n.toNat * 1000000000 / rate.toNat) ∧
    (∀ a b : UInt64, a ≤ b → b.toNat / rate.toNat ≤ 18000000000 →
      framesToNs a rate ≤ framesToNs b rate) ∧
    (∀ a b : UInt64, (a.toNat + b.toNat) / rate.toNat ≤ 18000000000 →
      (framesToNs a rate).toNat + (framesToNs b rate).toNat ≤ (framesToNs (a + b) rate).toNat ∧
        (framesToNs (a + b) rate).toNat ≤
          (framesToNs a rate).toNat + (framesToNs b rate).toNat + 1) ∧
    (∀ ns : Int64, ∃ frames, nsToFramesWithin ns rate = some frames ∧
      frames.toInt = (ns.toInt * rate.toNat).tdiv 1000000000) ∧
    ∀ n : UInt64, n.toNat / rate.toNat ≤ 9000000000 →
      ∃ back, nsToFramesWithin (framesToNs n rate).toInt64 rate = some back ∧
        (back.toInt = n.toNat - 1 ∨ back.toInt = n.toNat) ∧
        (back.toInt = n.toNat ↔ rate.toNat ∣ n.toNat * 1000000000 ∨ n.toNat = 0) := by
  have positive : 0 < rate.toNat :=
    Nat.pos_of_ne_zero fun none => nonzero (UInt32.toNat_inj.mp none)
  have exact (n : UInt64) (bound : n.toNat / rate.toNat ≤ 18000000000) :
      nanoseconds n.toNat rate.toNat < 2 ^ 64 :=
    (nanoseconds_lt positive bound).trans (by decide)
  have fewer (a b : Nat) (order : a ≤ b) (bound : b / rate.toNat ≤ 18000000000) :
      a / rate.toNat ≤ 18000000000 := (Nat.div_le_div_right order).trans bound
  refine ⟨?_, ?_, ?_, ?_, ?_⟩
  · intro n bound
    exact ⟨framesToNsWithin_eq small (exact n bound), framesToNs_toNat small (exact n bound)⟩
  · intro a b order bound
    rw [UInt64.le_iff_toNat_le] at order ⊢
    rw [framesToNs_toNat small (exact a (fewer _ _ order bound)),
      framesToNs_toNat small (exact b bound)]
    exact nanoseconds_mono order _
  · intro a b bound
    have together : (a + b).toNat = a.toNat + b.toNat := by
      have early : a.toNat + b.toNat < 18000000001 * rate.toNat :=
        Nat.lt_mul_of_div_lt (Nat.lt_succ_of_le bound) positive
      rw [UInt64.toNat_add, Nat.mod_eq_of_lt (by omega)]
    rw [framesToNs_toNat small (exact a (fewer _ _ (Nat.le_add_right ..) bound)),
      framesToNs_toNat small (exact b (fewer _ _ (Nat.le_add_left ..) bound)),
      framesToNs_toNat small (exact (a + b) (by rwa [together])), together]
    exact ⟨nanoseconds_add .., nanoseconds_add_le ..⟩
  · intro ns
    rw [← nsToFrames_eq]
    exact nsToFramesWithin_eq ns small
  · intro n bound
    have short : nanoseconds n.toNat rate.toNat < 2 ^ 63 :=
      (nanoseconds_lt positive bound).trans (by decide)
    have value := framesToNs_toNat small (short.trans (by decide))
    obtain ⟨back, made, frames⟩ := nsToFramesWithin_eq (framesToNs n rate).toInt64 small
    obtain ⟨near, whole⟩ := frames_of_nanoseconds n.toNat positive (by omega)
    rw [toInt64_of_small (by rwa [value]), value, nsToFrames_natCast] at frames
    refine ⟨back, made, ?_, ?_⟩
    · omega
    · rw [← whole, frames, Nat.cast_inj]

/-- A second at 44.1 kHz is exact, one frame is not. -/
theorem time_conversions_cd : (framesToNs 44100 44100).toNat = 1000000000 ∧
    ∃ back, nsToFramesWithin (framesToNs 1 44100).toInt64 44100 = some back ∧ back.toInt ≠ 1 := by
  obtain ⟨exact, _, _, _, returns⟩ := time_conversions 44100 (by decide) (by decide)
  refine ⟨(exact 44100 (by decide)).2, ?_⟩
  obtain ⟨back, made, _, whole⟩ := returns 1 (by decide)
  refine ⟨back, made, fun same => ?_⟩
  have divides := whole.mp same
  revert divides
  decide

end VbanStream
