import ForwardIntake.Numeric.Binary64
import Mathlib

/-!
# The whole part of a float

A finite float stands for a rational number (`Binary64.toRat`).  Cutting off its fraction is exact:
a float has a whole part of 64 bits if and only if that number lies between zero and the first
number beyond 64 bits, and then it is the whole part of that number (`truncate?_eq_some_iff`).
-/

namespace ForwardIntake

namespace Binary64

variable {x : Binary64}

/-- The number that a finite float stands for. -/
def toRat (x : Binary64) : ℚ :=
  let magnitude : ℚ := x.significand * 2 ^ x.exponent
  if x.negative then -magnitude else magnitude

/-- The float is finite and stands for a number from zero to below the first one that does not fit
64 bits. -/
structure InRange (x : Binary64) : Prop where
  finite : x.isFinite
  nonneg : 0 ≤ x.toRat
  lt : x.toRat < 2 ^ 64

/-- The numerator over the denominator is the significand times its power of two. -/
private theorem magnitude_eq (x : Binary64) :
    (x.magnitude.1 : ℚ) / x.magnitude.2 = x.significand * 2 ^ x.exponent := by
  rw [magnitude]
  split
  · rename_i hpos
    obtain ⟨n, hn⟩ := Int.eq_ofNat_of_zero_le hpos
    simp only [hn, Int.toNat_natCast, Nat.shiftLeft_eq, Nat.cast_mul, Nat.cast_pow, zpow_natCast]
    norm_num
  · rename_i hneg
    obtain ⟨n, hn⟩ := Int.eq_ofNat_of_zero_le (Int.neg_nonneg_of_nonpos (Int.not_le.1 hneg).le)
    have hexponent : x.exponent = -(n : Int) := by omega
    rw [hexponent, zpow_neg, zpow_natCast, ← div_eq_mul_inv]
    simp only [neg_neg, Int.toNat_natCast, Nat.one_shiftLeft, Nat.cast_pow, Nat.cast_ofNat]

/-- The whole part is that of the magnitude. -/
private theorem wholePart_eq_floor (x : Binary64) :
    x.wholePart = ⌊(x.significand : ℚ) * 2 ^ x.exponent⌋₊ := by
  rw [wholePart, ← magnitude_eq, Nat.floor_div_eq_div]

/-- Zeros are the floats without a significand. -/
private theorem significand_eq_zero_iff : x.significand = 0 ↔ x.isZero := by
  have hleading : 0 < leadingBit := by decide
  rw [significand, isZero, Bool.and_eq_true, beq_iff_eq, beq_iff_eq]
  split
  · rename_i hfield
    exact (and_iff_right hfield).symm
  · rename_i hfield
    exact ⟨fun h => by omega, fun h => absurd h.1 hfield⟩

/-- Only a negative float other than zero stands for a negative number. -/
theorem toRat_nonneg_iff : 0 ≤ x.toRat ↔ x.negative = false ∨ x.isZero := by
  have hpos : 0 < (2 : ℚ) ^ x.exponent := zpow_pos two_pos _
  have hmagnitude : 0 ≤ (x.significand : ℚ) * 2 ^ x.exponent :=
    mul_nonneg (Nat.cast_nonneg _) hpos.le
  rw [toRat]
  cases hnegative : x.negative with
  | false => simpa using hmagnitude
  | true =>
    have hzero : 0 ≤ -((x.significand : ℚ) * 2 ^ x.exponent) ↔ x.significand = 0 := by
      rw [neg_nonneg, hmagnitude.ge_iff_eq', mul_eq_zero_iff_right hpos.ne', Nat.cast_eq_zero]
    simpa [significand_eq_zero_iff] using hzero

/-- A float that is not negative is its magnitude. -/
private theorem toRat_of_nonneg (h : 0 ≤ x.toRat) : x.toRat = x.significand * 2 ^ x.exponent := by
  rcases toRat_nonneg_iff.1 h with hsign | hzero
  · rw [toRat, hsign]
    rfl
  · rw [toRat, significand_eq_zero_iff.2 hzero]
    simp

/-- The whole part of a float that is not negative is its floor. -/
theorem wholePart_of_nonneg (h : 0 ≤ x.toRat) : x.wholePart = ⌊x.toRat⌋₊ := by
  rw [wholePart_eq_floor, toRat_of_nonneg h]

/-- The range by bits and by the whole part. -/
theorem inRange_iff :
    x.InRange ↔ x.isFinite ∧ (x.negative = false ∨ x.isZero) ∧
      x.wholePart < 0x10000000000000000 := by
  have hlt (h : 0 ≤ x.toRat) : x.wholePart < 0x10000000000000000 ↔ x.toRat < 2 ^ 64 := by
    rw [wholePart_of_nonneg h, Nat.floor_lt h]
    norm_num
  constructor
  · intro h
    exact ⟨h.finite, toRat_nonneg_iff.1 h.nonneg, (hlt h.nonneg).2 h.lt⟩
  · rintro ⟨hfinite, hsign, hwhole⟩
    have hnonneg := toRat_nonneg_iff.2 hsign
    exact ⟨hfinite, hnonneg, (hlt hnonneg).1 hwhole⟩

/-- A float in range is truncated to its floor. -/
theorem truncate?_of_inRange (h : x.InRange) :
    x.truncate? = some (UInt64.ofNat ⌊x.toRat⌋₊) := by
  obtain ⟨hfinite, hsign, hwhole⟩ := inRange_iff.1 h
  have hnegative : ¬(x.negative && !x.isZero) = true := by
    rcases hsign with hsign | hsign
    · simp [hsign]
    · simp [hsign]
  rw [truncate?, if_neg (by simp [hfinite]), if_neg hnegative, if_pos hwhole,
    wholePart_of_nonneg h.nonneg]

/-- Any other float is refused. -/
theorem truncate?_of_not_inRange (h : ¬x.InRange) : x.truncate? = none := by
  rw [inRange_iff] at h
  rw [truncate?]
  split
  · rfl
  · split
    · rfl
    · refine if_neg fun hwhole => h ⟨?_, ?_, hwhole⟩
      · simp_all
      · simp_all [imp_iff_not_or]

/-- **Cutting off the fraction is exact.** -/
theorem truncate?_eq_some_iff {n : UInt64} :
    x.truncate? = some n ↔ x.InRange ∧ n.toNat = ⌊x.toRat⌋₊ := by
  by_cases h : x.InRange
  · have hfits : ⌊x.toRat⌋₊ < 2 ^ 64 := (Nat.floor_lt h.nonneg).2 (mod_cast h.lt)
    rw [truncate?_of_inRange h, Option.some.injEq, ← UInt64.toNat_inj,
      UInt64.toNat_ofNat_of_lt' hfits]
    exact ⟨fun heq => ⟨h, heq.symm⟩, fun heq => heq.2.symm⟩
  · rw [truncate?_of_not_inRange h]
    exact iff_of_false (Option.some_ne_none n).symm fun heq => h heq.1

/-! ### The two ends of the range -/

/-- Zeros and subnormal floats have no whole part. -/
theorem floor_toRat_of_exponentField (hfield : x.exponentField = 0) : ⌊x.toRat⌋₊ = 0 := by
  have hfraction : x.fraction < 2 ^ 52 := Nat.mod_lt _ (by decide)
  have hmagnitude : (x.significand : ℚ) * 2 ^ x.exponent < 1 := by
    have hpos : 0 < (2 : ℚ) ^ (-1074 : ℤ) := zpow_pos two_pos _
    rw [significand, exponent, if_pos hfield, if_pos hfield]
    calc (x.fraction : ℚ) * 2 ^ (-1074 : ℤ)
        < 2 ^ 52 * 2 ^ (-1074 : ℤ) := mul_lt_mul_of_pos_right (mod_cast hfraction) hpos
      _ = 2 ^ (-1022 : ℤ) := by rw [← zpow_natCast, ← zpow_add₀ two_ne_zero]; rfl
      _ < 1 := zpow_lt_one_of_neg₀ one_lt_two (by decide)
  rw [Nat.floor_eq_zero]
  rcases le_or_gt 0 x.toRat with hnonneg | hneg
  · rwa [toRat_of_nonneg hnonneg]
  · exact hneg.trans one_pos

/-- The greatest word is no float: the float nearest to it is the first number beyond. -/
theorem toRat_ofNat_maxWord : (ofNat (2 ^ 64 - 1)).toRat = 2 ^ 64 := by
  have hbits : ofNat (2 ^ 64 - 1) = ⟨0x43F0000000000000⟩ := by decide
  have hsign : (⟨0x43F0000000000000⟩ : Binary64).negative = false := by decide
  have hsignificand : (⟨0x43F0000000000000⟩ : Binary64).significand = 2 ^ 52 := by decide
  have hexponent : (⟨0x43F0000000000000⟩ : Binary64).exponent = 12 := by decide
  rw [hbits, toRat, hsign, hsignificand, hexponent]
  norm_num

end Binary64

end ForwardIntake
