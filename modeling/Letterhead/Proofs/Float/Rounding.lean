import Letterhead.Proofs.Float.Value

/-!
What rounding does to a number: it takes the nearest multiple of the unit at that number, which is
the power of two that leaves 24 bits before the point, or the least unit there is. While bits are
shifted out of a mantissa, two more bits tell where the number is between two mantissas.
-/

namespace Letterhead.Binary

open Float.Model (Format UnpackedFloat totalExponent)
open Float.Model.UnpackedFloat (Sign Accuracy ExtendedMantissa)

/-- The second number is the first one rounded to a multiple of a power of two. -/
structure Nearest (unit : Int) (exact rounded : Rat) : Prop where
  least : -149 ≤ unit
  multiple : ∃ count : Int, rounded = count * (2 : Rat) ^ unit
  close : |rounded - exact| ≤ (2 : Rat) ^ unit / 2
  above : |exact| < (2 : Rat) ^ (unit + 24)
  below : unit = -149 ∨ (2 : Rat) ^ (unit + 23) ≤ |exact|

def Rounds (exact : Rat) (float : UnpackedFloat) : Prop :=
  Canonical float ∧ ∃ unit, Nearest unit exact (number float)

/-! ### Residual bits -/

/-- Where the number is between the mantissa and the next one. -/
structure Locates (extended : ExtendedMantissa) (x : Rat) : Prop where
  floor : (extended.mantissa : Rat) ≤ x
  ceil : x < extended.mantissa + 1
  half : extended.roundBit = true ↔ extended.mantissa + 1 / 2 ≤ x
  rest : extended.stickyBit = false ↔ x = extended.mantissa ∨ x = extended.mantissa + 1 / 2

namespace Locates

variable {extended : ExtendedMantissa} {x : Rat}

theorem exact (mantissa : Nat) : Locates ⟨mantissa, false, false⟩ mantissa where
  floor := le_refl _
  ceil := lt_add_one _
  half := by norm_num
  rest := by simp

theorem exact_iff (locates : Locates extended x) :
    (extended.roundBit = false ∧ extended.stickyBit = false) ↔ x = extended.mantissa := by
  have lower : extended.roundBit = false ↔ x < extended.mantissa + 1 / 2 := by
    rw [← not_le, ← locates.half, Bool.not_eq_true]
  rw [lower, locates.rest]
  constructor
  · rintro ⟨less, rfl | rfl⟩
    · rfl
    · exact absurd less (lt_irrefl _)
  · rintro rfl
    exact ⟨by linarith, .inl rfl⟩

theorem shiftRightOne (locates : Locates extended x) : Locates extended.shiftRightOne (x / 2) := by
  have floor := locates.floor
  have ceil := locates.ceil
  have exact_iff := locates.exact_iff
  obtain ⟨mantissa, roundBit, stickyBit⟩ := extended
  -- The last bit of the mantissa becomes the round bit.
  obtain ⟨quotient, even | odd⟩ := Nat.even_or_odd' mantissa
  · have half : (2 * quotient) / 2 = quotient := by omega
    have parity : (2 * quotient) % 2 = 0 := by omega
    subst even
    push_cast at floor ceil exact_iff
    constructor <;> simp only [ExtendedMantissa.shiftRightOne, half, parity]
    · linarith
    · linarith
    · refine iff_of_false (by simp) ?_
      linarith
    · rw [Bool.or_eq_false_iff, exact_iff]
      constructor
      · intro same
        exact .inl (by linarith)
      · rintro (same | same) <;> linarith
  · have half : (2 * quotient + 1) / 2 = quotient := by omega
    have parity : (2 * quotient + 1) % 2 = 1 := by omega
    subst odd
    push_cast at floor ceil exact_iff
    constructor <;> simp only [ExtendedMantissa.shiftRightOne, half, parity]
    · linarith
    · linarith
    · refine iff_of_true rfl ?_
      linarith
    · rw [Bool.or_eq_false_iff, exact_iff]
      constructor
      · intro same
        exact .inr (by linarith)
      · rintro (same | same) <;> linarith

theorem shiftRight (locates : Locates extended x) (count : Nat) :
    Locates (extended >>> count) (x / 2 ^ count) := by
  change Locates (count.repeat ExtendedMantissa.shiftRightOne extended) _
  induction count with
  | zero =>
    rw [pow_zero, div_one]
    exact locates
  | succ count ih =>
    rw [pow_succ, ← div_div]
    exact ih.shiftRightOne

theorem rounded (locates : Locates extended x) : |(extended.roundedMantissa : Rat) - x| ≤ 1 / 2 := by
  obtain ⟨mantissa, roundBit, stickyBit⟩ := extended
  obtain ⟨floor, ceil, half, rest⟩ := locates
  simp only at floor ceil half rest
  have parity : (mantissa : Rat) ≤ (mantissa + mantissa % 2 : Nat) ∧
      ((mantissa + mantissa % 2 : Nat) : Rat) ≤ mantissa + 1 := by
    constructor
    · exact_mod_cast Nat.le_add_right _ _
    · exact_mod_cast Nat.add_le_add_left (Nat.le_of_lt_succ (Nat.mod_lt _ two_pos)) _
  rw [abs_le]
  cases roundBit <;> cases stickyBit <;>
    simp only [Bool.false_eq_true, reduceCtorEq, false_iff, true_iff, not_le, not_or] at half rest <;>
    simp only [ExtendedMantissa.roundedMantissa, ExtendedMantissa.accuracy,
      Accuracy.roundToNearestEven]
  · rcases rest with rfl | rfl <;> constructor <;> linarith
  · constructor <;> linarith
  · rcases rest with rfl | rfl <;> constructor <;> linarith
  · push_cast
    constructor <;> linarith

end Locates

/-! ### Shifting to the unit -/

/-- The exponent that a number of this mantissa and exponent is rounded to. -/
theorem targetExponent_eq (mantissa : Nat) (exponent : Int) :
    Format.binary32.targetExponent (totalExponent mantissa exponent) =
      max (mantissa.log2 + exponent - 23) (-149) := by
  simp only [Format.targetExponent, totalExponent, Format.mantissaBits, Format.minExponent]
  omega

/-- What is put together again after rounding: a mantissa of 24 bits stays, and one that has just
got one bit more is halved. -/
theorem shiftToTargetExponent_rounded {mantissa : Nat} {exponent : Int} (few : mantissa ≤ 2 ^ 24)
    (least : -149 ≤ exponent) :
    (UnpackedFloat.shiftToTargetExponent Format.binary32 mantissa exponent .exact).1.mantissa =
        (if mantissa < 2 ^ 24 then mantissa else 2 ^ 23) ∧
      (UnpackedFloat.shiftToTargetExponent Format.binary32 mantissa exponent .exact).2 =
        (if mantissa < 2 ^ 24 then exponent else exponent + 1) := by
  simp only [UnpackedFloat.shiftToTargetExponent, UnpackedFloat.shiftToExponent, targetExponent_eq]
  split
  · rename_i small
    have bits : mantissa.log2 ≤ 23 := by
      by_cases zero : mantissa = 0
      · simp [zero]
      · exact Nat.le_of_lt_succ ((Nat.log2_lt zero).mpr small)
    have none : (max ((mantissa.log2 : Int) + exponent - 23) (-149) - exponent).toNat = 0 := by omega
    rw [none]
    exact ⟨rfl, by simp⟩
  · obtain rfl : mantissa = 2 ^ 24 := by omega
    have one : (max (((2 ^ 24).log2 : Int) + exponent - 23) (-149) - exponent).toNat = 1 := by
      have bits : (2 ^ 24).log2 = 24 := Nat.log2_two_pow
      omega
    rw [one]
    exact ⟨rfl, rfl⟩

theorem Nearest.neg {unit : Int} {exact rounded : Rat} (nearest : Nearest unit exact rounded) :
    Nearest unit (-exact) (-rounded) := by
  obtain ⟨least, ⟨count, multiple⟩, close, above, below⟩ := nearest
  refine ⟨least, ⟨-count, ?_⟩, ?_, ?_, ?_⟩
  · rw [multiple]
    push_cast
    ring
  · rwa [neg_sub_neg, abs_sub_comm]
  · rwa [abs_neg]
  · rwa [abs_neg]

theorem nearest_rounded {x : Rat} {mantissa : Nat} {unit : Int} (least : -149 ≤ unit)
    (notNegative : 0 ≤ x) (close : |(mantissa : Rat) - x| ≤ 1 / 2) (above : x < 2 ^ 24)
    (below : unit = -149 ∨ 2 ^ 23 ≤ x) :
    Nearest unit (x * 2 ^ unit) (mantissa * 2 ^ unit) ∧ mantissa ≤ 2 ^ 24 ∧
      (unit = -149 ∨ 2 ^ 23 ≤ mantissa) := by
  have scale : (0 : Rat) < 2 ^ unit := by positivity
  obtain ⟨lower, upper⟩ := abs_le.mp close
  refine ⟨⟨least, ⟨mantissa, by norm_cast⟩, ?_, ?_, ?_⟩, ?_, ?_⟩
  · rw [← sub_mul, abs_mul, abs_of_pos scale]
    calc |(mantissa : Rat) - x| * 2 ^ unit ≤ 1 / 2 * 2 ^ unit :=
          mul_le_mul_of_nonneg_right close scale.le
      _ = 2 ^ unit / 2 := by ring
  · rw [abs_mul, abs_of_pos scale, abs_of_nonneg notNegative, add_comm, zpow_add₀ two_ne_zero]
    exact mul_lt_mul_of_pos_right (by exact_mod_cast above) scale
  · apply below.imp id
    intro low
    rw [abs_mul, abs_of_pos scale, abs_of_nonneg notNegative, add_comm, zpow_add₀ two_ne_zero]
    exact mul_le_mul_of_nonneg_right (by exact_mod_cast low) scale.le
  · have most : (mantissa : Rat) < (2 ^ 24 + 1 : Nat) := by
      push_cast
      linarith
    exact Nat.le_of_lt_succ (by exact_mod_cast most)
  · apply below.imp id
    intro low
    have more : ((2 ^ 23 : Nat) : Rat) < (mantissa + 1 : Nat) := by
      push_cast
      linarith
    exact Nat.le_of_lt_succ (by exact_mod_cast more)

-- A mantissa of so many bits, shifted until 24 are left or the least unit is reached.
theorem shifted_bounds {mantissa : Nat} {exponent unit : Int} {x : Rat}
    (target : unit = max ((mantissa.log2 : Int) + exponent - 23) (-149)) (low : exponent ≤ unit)
    (floor : mantissa ≤ x) (ceil : x < mantissa + 1) :
    x / 2 ^ (unit - exponent).toNat < 2 ^ 24 ∧
      (unit = -149 ∨ 2 ^ 23 ≤ x / 2 ^ (unit - exponent).toNat) := by
  obtain ⟨count, shift⟩ : ∃ count : Nat, (unit - exponent).toNat = count := ⟨_, rfl⟩
  have scale : (0 : Rat) < 2 ^ count := by positivity
  rw [shift, div_lt_iff₀ scale, le_div_iff₀ scale, ← pow_add, ← pow_add]
  constructor
  · have bits : mantissa + 1 ≤ 2 ^ (24 + count) :=
      Nat.le_trans Nat.lt_log2_self (Nat.pow_le_pow_right two_pos (by omega))
    exact lt_of_lt_of_le ceil (by exact_mod_cast bits)
  · rw [or_iff_not_imp_left]
    intro more
    have log : mantissa.log2 = 23 + count := by omega
    have some : mantissa ≠ 0 := by
      intro zero
      rw [zero, Nat.log2_zero] at log
      omega
    have bits : 2 ^ (23 + count) ≤ mantissa := log ▸ Nat.log2_self_le some
    exact le_trans (by exact_mod_cast bits) floor

-- However the sign and the exponent of the parts are put together.
theorem canonical_assembled (sign : Sign) {mantissa : Nat} {unit : Int} (most : mantissa ≤ 2 ^ 24)
    (least : -149 ≤ unit) (normal : unit = -149 ∨ 2 ^ 23 ≤ mantissa) {last : ExtendedMantissa × Int}
    (same : UnpackedFloat.shiftToTargetExponent Format.binary32 mantissa unit .exact = last) :
    let float := if zero : last.1.mantissa = 0 then UnpackedFloat.zero sign
      else .finite sign last.1.mantissa last.2 (Nat.pos_of_ne_zero zero)
    Canonical float ∧ number float = sign.apply 1 * (mantissa * 2 ^ unit) := by
  obtain ⟨bits, power⟩ := shiftToTargetExponent_rounded most least
  obtain ⟨⟨last, roundBit, stickyBit⟩, exponent⟩ := last
  rw [same] at bits power
  simp only at bits power ⊢
  have assembled : Canonical (if zero : last = 0 then .zero sign
      else .finite sign last exponent (Nat.pos_of_ne_zero zero)) ∧
      (last : Rat) * 2 ^ exponent = mantissa * 2 ^ unit := by
    split at bits
    · rename_i small
      rw [if_pos small] at power
      subst bits power
      refine ⟨?_, rfl⟩
      split
      · exact .zero sign
      · exact .finite small least normal
    · rename_i large
      rw [if_neg large] at power
      obtain rfl : mantissa = 2 ^ 24 := by omega
      subst bits power
      constructor
      · exact .finite (by decide) (by omega) (.inr (Nat.le_refl _))
      · rw [zpow_add_one₀ two_ne_zero]
        push_cast
        ring
  refine ⟨assembled.1, ?_⟩
  rw [← assembled.2]
  split
  · rename_i zero
    simp [number, zero]
  · cases sign <;> simp [number, Sign.apply]

/-- Rounding a positive number given by a mantissa, where its unit is not below the exponent. -/
theorem rounds_roundWithAccuracy (sign : Sign) (mantissa : Nat) (exponent : Int)
    (accuracy : Accuracy) {x : Rat}
    (locates : Locates (ExtendedMantissa.ofMantissaAndAccuracy mantissa accuracy) x)
    (low : exponent ≤ max (mantissa.log2 + exponent - 23) (-149)) :
    Rounds (sign.apply 1 * (x * 2 ^ exponent))
      (UnpackedFloat.roundWithAccuracy Format.binary32 sign mantissa exponent accuracy) := by
  obtain ⟨unit, target⟩ : ∃ unit, unit = max ((mantissa.log2 : Int) + exponent - 23) (-149) := ⟨_, rfl⟩
  have kept : (ExtendedMantissa.ofMantissaAndAccuracy mantissa accuracy).mantissa = mantissa := by
    rcases accuracy with _ | (_ | _ | _) <;> rfl
  have floor := locates.floor
  have ceil := locates.ceil
  rw [kept] at floor ceil
  obtain ⟨above, below⟩ := shifted_bounds target (target ▸ low) floor ceil
  obtain ⟨nearest, most, normal⟩ := nearest_rounded (by omega)
    (div_nonneg (le_trans (Nat.cast_nonneg _) floor) (by positivity))
    (locates.shiftRight (unit - exponent).toNat).rounded above below
  have split : x * (2 : Rat) ^ exponent = x / 2 ^ (unit - exponent).toNat * 2 ^ unit := by
    have power : (2 : Rat) ^ unit = 2 ^ (unit - exponent).toNat * 2 ^ exponent := by
      rw [← zpow_natCast, ← zpow_add₀ two_ne_zero]
      congr 1
      omega
    rw [power]
    field_simp
  rw [split]
  have first : UnpackedFloat.shiftToTargetExponent Format.binary32 mantissa exponent accuracy =
      (ExtendedMantissa.ofMantissaAndAccuracy mantissa accuracy >>> (unit - exponent).toNat, unit) := by
    simp only [UnpackedFloat.shiftToTargetExponent, UnpackedFloat.shiftToExponent, targetExponent_eq,
      ← target]
    congr 1
    omega
  obtain ⟨canonical, value⟩ := canonical_assembled sign most nearest.least normal rfl
  simp only [UnpackedFloat.roundWithAccuracy, first]
  refine ⟨canonical, unit, ?_⟩
  rw [value]
  cases sign
  · simpa [Sign.apply] using nearest.neg
  · simpa [Sign.apply] using nearest

theorem decreaseExponent_value (mantissa : Nat) (exponent lower : Int) :
    ((UnpackedFloat.decreaseExponent mantissa exponent lower).1 : Rat) *
        2 ^ (UnpackedFloat.decreaseExponent mantissa exponent lower).2 =
      mantissa * 2 ^ exponent := by
  simp only [UnpackedFloat.decreaseExponent, Nat.shiftLeft_eq]
  push_cast
  rw [mul_assoc, ← zpow_natCast, ← zpow_add₀ two_ne_zero]
  congr 2
  omega

theorem log2_shiftLeft {mantissa : Nat} (positive : 0 < mantissa) (count : Nat) :
    (mantissa <<< count).log2 = mantissa.log2 + count := by
  rw [Nat.shiftLeft_eq, Nat.log2_eq_iff (by positivity), pow_add, ← Nat.add_right_comm, pow_add]
  constructor
  · exact Nat.mul_le_mul_right _ (Nat.log2_self_le positive.ne')
  · exact Nat.mul_lt_mul_of_pos_right Nat.lt_log2_self (by positivity)

theorem rounds_round (sign : Sign) {mantissa : Nat} (positive : 0 < mantissa) (exponent : Int) :
    Rounds (sign.apply 1 * (mantissa * 2 ^ exponent))
      (UnpackedFloat.round Format.binary32 sign mantissa exponent) := by
  simp only [UnpackedFloat.round, targetExponent_eq]
  obtain ⟨lower, target⟩ : ∃ lower, lower = max ((mantissa.log2 : Int) + exponent - 23) (-149) :=
    ⟨_, rfl⟩
  rw [← target, ← decreaseExponent_value mantissa exponent lower]
  apply rounds_roundWithAccuracy sign _ _ .exact (Locates.exact _)
  obtain ⟨count, shift⟩ : ∃ count : Nat, (exponent - lower).toNat = count := ⟨_, rfl⟩
  simp only [UnpackedFloat.decreaseExponent, shift, log2_shiftLeft positive]
  push_cast
  omega

theorem rounds_zero (sign : Sign) : Rounds 0 (.zero sign) := by
  refine ⟨.zero sign, -149, le_refl _, ⟨0, by simp⟩, ?_, by simp, .inl rfl⟩
  rw [number_zero, sub_self, abs_zero]
  positivity

theorem rounds_normalize (mantissa exponent : Int) (zeroSign : Sign) :
    Rounds (mantissa * 2 ^ exponent)
      (UnpackedFloat.normalize Format.binary32 mantissa exponent zeroSign) := by
  rw [UnpackedFloat.normalize]
  rcases lt_trichotomy mantissa 0 with negative | rfl | positive
  · rw [compare_lt_iff_lt.mpr negative]
    have rounds := rounds_round .negative (by omega : 0 < (-mantissa).toNat) exponent
    have magnitude : (((-mantissa).toNat : Int) : Rat) = -mantissa := by
      rw [Int.toNat_of_nonneg (by omega)]
      push_cast
      rfl
    rw [Int.cast_natCast] at magnitude
    simpa [magnitude, Sign.apply] using rounds
  · simpa using rounds_zero zeroSign
  · rw [compare_gt_iff_gt.mpr positive]
    have rounds := rounds_round .positive (by omega : 0 < mantissa.toNat) exponent
    have magnitude : ((mantissa.toNat : Int) : Rat) = mantissa := by
      rw [Int.toNat_of_nonneg positive.le]
    rw [Int.cast_natCast] at magnitude
    simpa [magnitude, Sign.apply] using rounds

/-- What has 24 bits already stays. -/
theorem Canonical.rounds {float : UnpackedFloat} (canonical : Canonical float) :
    Rounds (number float) float := by
  refine ⟨canonical, ?_⟩
  cases canonical with
  | zero sign => exact (rounds_zero sign).2
  | @finite sign mantissa exponent positive few least normal =>
    have scale : (0 : Rat) < 2 ^ exponent := by positivity
    refine ⟨exponent, least, ⟨sign.apply mantissa, rfl⟩, ?_, ?_, ?_⟩
    · rw [sub_self, abs_zero]
      exact div_nonneg scale.le zero_le_two
    · rw [abs_number, add_comm, zpow_add₀ two_ne_zero]
      exact mul_lt_mul_of_pos_right (by exact_mod_cast few) scale
    · apply normal.imp id
      intro bits
      rw [abs_number, add_comm, zpow_add₀ two_ne_zero]
      exact mul_le_mul_of_nonneg_right (by exact_mod_cast bits) scale.le

end Letterhead.Binary
