import Letterhead.Proofs.Float.Rounding

/-!
Sums, differences, products and quotients of finite floats are the exact ones, rounded once.
-/

namespace Letterhead.Binary

open Float.Model (Format UnpackedFloat totalExponent)
open Float.Model.UnpackedFloat (Sign Accuracy ExtendedMantissa)

variable {left right : UnpackedFloat}

/-! ### Sums and differences -/

-- A mantissa brought to a lower exponent.
theorem number_decreased (sign : Sign) (mantissa : Nat) {exponent lower : Int} (low : lower ≤ exponent) :
    ((sign.apply (UnpackedFloat.decreaseExponent mantissa exponent lower).1 : Int) : Rat) * 2 ^ lower =
      sign.apply mantissa * 2 ^ exponent := by
  have value := decreaseExponent_value mantissa exponent lower
  have reached : (UnpackedFloat.decreaseExponent mantissa exponent lower).2 = lower := by
    simp only [UnpackedFloat.decreaseExponent]
    omega
  rw [reached] at value
  cases sign
  · simpa [Sign.apply] using value
  · simpa [Sign.apply] using value

theorem rounds_add (one : Canonical left) (two : Canonical right) :
    Rounds (number left + number right) (UnpackedFloat.add Format.binary32 left right) := by
  cases one with
  | zero sign =>
    cases two with
    | zero other =>
      have zeros : ∃ kept, UnpackedFloat.add Format.binary32 (.zero sign) (.zero other) = .zero kept := by
        cases sign <;> cases other <;> exact ⟨_, rfl⟩
      obtain ⟨kept, same⟩ := zeros
      rw [same]
      simpa using rounds_zero kept
    | finite few least normal =>
      simpa [UnpackedFloat.add] using (Canonical.finite few least normal).rounds
  | @finite sign mantissa exponent _ few least normal =>
    cases two with
    | zero other =>
      simpa [UnpackedFloat.add] using (Canonical.finite few least normal).rounds
    | @finite other more power =>
      have sum := rounds_normalize
        (sign.apply (UnpackedFloat.decreaseExponent mantissa exponent (min exponent power)).1 +
          other.apply (UnpackedFloat.decreaseExponent more power (min exponent power)).1)
        (min exponent power) .positive
      rw [Int.cast_add, add_mul, number_decreased sign mantissa (min_le_left _ _),
        number_decreased other more (min_le_right _ _)] at sum
      exact sum

theorem number_neg (float : UnpackedFloat) : number float.neg = -number float := by
  rcases float with _ | _ | _ | ⟨sign, mantissa, exponent, positive⟩
  · exact neg_zero.symm
  · exact neg_zero.symm
  · exact neg_zero.symm
  · rw [UnpackedFloat.neg, number, number, ← neg_mul, ← Int.cast_neg]
    cases sign
    · exact congrArg (fun count : Int => (count : Rat) * 2 ^ exponent) (neg_neg _).symm
    · rfl

theorem Canonical.neg {float : UnpackedFloat} (canonical : Canonical float) : Canonical float.neg := by
  cases canonical with
  | zero sign => exact .zero (-sign)
  | finite few least normal => exact .finite few least normal

theorem sub_eq_add (left right : UnpackedFloat) :
    UnpackedFloat.sub Format.binary32 left right = UnpackedFloat.add Format.binary32 left right.neg := by
  rcases left with sign | _ | sign | ⟨sign, mantissa, exponent, positive⟩ <;>
    rcases right with other | _ | other | ⟨other, more, power, some⟩ <;> try rfl
  cases other
  · simp only [UnpackedFloat.sub, UnpackedFloat.add, UnpackedFloat.neg]
    congr 1
    exact sub_neg_eq_add _ _
  · rfl

theorem rounds_sub (one : Canonical left) (two : Canonical right) :
    Rounds (number left - number right) (UnpackedFloat.sub Format.binary32 left right) := by
  rw [sub_eq_add, sub_eq_add_neg, ← number_neg]
  exact rounds_add one two.neg

/-! ### Products -/

theorem apply_mul (sign other : Sign) (mantissa more : Nat) :
    ((sign.apply mantissa : Int) : Rat) * (other.apply more : Int) =
      ((sign * other).apply 1 : Int) * ((mantissa * more : Nat) : Rat) := by
  cases sign <;> cases other <;> simp [Sign.apply]

theorem rounds_mul (one : Canonical left) (two : Canonical right) :
    Rounds (number left * number right) (UnpackedFloat.mul Format.binary32 left right) := by
  cases one with
  | zero sign =>
    rw [number_zero, zero_mul]
    cases two <;> exact rounds_zero _
  | @finite sign mantissa exponent positive few least normal =>
    cases two with
    | zero other =>
      rw [number_zero, mul_zero]
      exact rounds_zero _
    | @finite other more power some lower above full =>
      -- A factor of 24 bits makes a product of at least as many.
      have low : exponent + power ≤ max (((mantissa * more).log2 : Int) + (exponent + power) - 23) (-149) := by
        by_cases bits : 2 ^ 23 ≤ mantissa * more
        · have log := (Nat.le_log2 (Nat.mul_pos positive some).ne').mpr bits
          omega
        · have small : exponent = -149 ∧ power = -149 := by
            refine ⟨normal.resolve_right ?_, full.resolve_right ?_⟩
            · intro enough
              exact bits (Nat.le_trans enough (Nat.le_mul_of_pos_right _ some))
            · intro enough
              exact bits (Nat.le_trans enough (Nat.le_mul_of_pos_left _ positive))
          omega
      have product := rounds_roundWithAccuracy (sign * other) (mantissa * more) (exponent + power)
        .exact (Locates.exact _) low
      have same : ((sign * other).apply 1 : Int) * (((mantissa * more : Nat) : Rat) * 2 ^ (exponent + power)) =
          number (.finite sign mantissa exponent positive) * number (.finite other more power some) := by
        rw [← mul_assoc, ← apply_mul, zpow_add₀ two_ne_zero, number, number]
        ring
      rwa [same] at product

/-! ### Quotients -/

-- Where a quotient is between its whole part and the next number.
theorem locates_div (dividend : Nat) {divisor : Nat} (positive : 0 < divisor) :
    Locates (ExtendedMantissa.ofMantissaAndAccuracy (dividend / divisor)
      (UnpackedFloat.accuracyOfFraction (dividend % divisor) divisor)) (dividend / divisor : Rat) := by
  obtain ⟨whole, quotient⟩ : ∃ whole, dividend / divisor = whole := ⟨_, rfl⟩
  obtain ⟨left, remainder⟩ : ∃ left, dividend % divisor = left := ⟨_, rfl⟩
  have scale : (0 : Rat) < divisor := by exact_mod_cast positive
  have value : (dividend / divisor : Rat) = whole + left / divisor := by
    have parts : (dividend : Rat) = divisor * whole + left := by
      rw [← quotient, ← remainder]
      exact_mod_cast (Nat.div_add_mod dividend divisor).symm
    rw [parts]
    field_simp
  have small : (left / divisor : Rat) < 1 := by
    rw [div_lt_iff₀ scale, one_mul, ← remainder]
    exact_mod_cast Nat.mod_lt dividend positive
  rw [quotient, remainder, value, UnpackedFloat.accuracyOfFraction]
  split
  · rename_i none
    rw [none, Nat.cast_zero, zero_div, add_zero]
    exact .exact whole
  · rename_i some
    have more : (0 : Rat) < left / divisor := div_pos (by exact_mod_cast Nat.pos_of_ne_zero some) scale
    rcases lt_trichotomy (2 * left) divisor with less | same | greater
    · rw [compare_lt_iff_lt.mpr less]
      have half : (left / divisor : Rat) < 1 / 2 := by
        rw [div_lt_div_iff₀ scale two_pos, one_mul, mul_comm]
        exact_mod_cast less
      constructor <;> simp only [ExtendedMantissa.ofMantissaAndAccuracy]
      · linarith
      · linarith
      · exact iff_of_false nofun (by linarith)
      · exact iff_of_false nofun (by rintro (zero | other) <;> linarith)
    · rw [compare_eq_iff_eq.mpr same]
      have half : (left / divisor : Rat) = 1 / 2 := by
        rw [div_eq_div_iff scale.ne' two_ne_zero, one_mul, mul_comm]
        exact_mod_cast same
      rw [half]
      constructor <;> simp only [ExtendedMantissa.ofMantissaAndAccuracy]
      · linarith
      · linarith
      · exact iff_of_true trivial (le_refl _)
      · exact iff_of_true trivial (.inr trivial)
    · rw [compare_gt_iff_gt.mpr greater]
      have half : (1 / 2 : Rat) < left / divisor := by
        rw [div_lt_div_iff₀ two_pos scale, one_mul, mul_comm _ (2 : Rat)]
        exact_mod_cast greater
      constructor <;> simp only [ExtendedMantissa.ofMantissaAndAccuracy]
      · linarith
      · linarith
      · exact iff_of_true trivial (by linarith)
      · exact iff_of_false nofun (by rintro (zero | other) <;> linarith)

theorem apply_div (sign other : Sign) (mantissa more : Nat) :
    ((sign.apply mantissa : Int) : Rat) / (other.apply more : Int) =
      ((sign / other).apply 1 : Int) * ((mantissa : Rat) / more) := by
  have same : sign / other = sign * other := by
    cases sign <;> cases other <;> rfl
  rw [same]
  cases sign <;> cases other <;> simp [Sign.apply, neg_div, div_neg]

/-- The dividend is shifted until the quotient has all its bits, or is as fine as it can be. -/
theorem divCore_eq {mantissa more : Nat} (exponent power : Int) (positive : 0 < mantissa) (some : 0 < more) :
    ∃ (count : Nat) (lower : Int), exponent - power = count + lower ∧
      UnpackedFloat.divCore Format.binary32 mantissa exponent more power =
        ((mantissa <<< count) / more, lower,
          UnpackedFloat.accuracyOfFraction ((mantissa <<< count) % more) more) ∧
      lower ≤ max ((((mantissa <<< count) / more).log2 : Int) + lower - 23) (-149) := by
  obtain ⟨lower, target⟩ : ∃ lower, lower = min (exponent - power)
    (Format.binary32.targetExponent (totalExponent mantissa exponent - totalExponent more power)) :=
    ⟨_, rfl⟩
  obtain ⟨count, shift⟩ : ∃ count : Nat, (exponent - power - lower).toNat = count := ⟨_, rfl⟩
  have below : lower ≤ exponent - power := target ▸ min_le_left _ _
  refine ⟨count, lower, by omega, by simp only [UnpackedFloat.divCore, ← target, shift], ?_⟩
  by_cases least : lower ≤ -149
  · exact le_max_of_le_right least
  · have aligned : 24 + more.log2 ≤ mantissa.log2 + count := by
      simp only [Format.targetExponent, totalExponent, Format.mantissaBits, Format.minExponent] at target
      omega
    have bits : 2 ^ 23 * more ≤ mantissa <<< count := by
      rw [Nat.shiftLeft_eq]
      calc 2 ^ 23 * more ≤ 2 ^ 23 * 2 ^ (more.log2 + 1) :=
            Nat.mul_le_mul_left _ Nat.lt_log2_self.le
        _ = 2 ^ (24 + more.log2) := by ring
        _ ≤ 2 ^ (mantissa.log2 + count) := Nat.pow_le_pow_right two_pos aligned
        _ = 2 ^ mantissa.log2 * 2 ^ count := pow_add _ _ _
        _ ≤ mantissa * 2 ^ count := Nat.mul_le_mul_right _ (Nat.log2_self_le positive.ne')
    have full : 2 ^ 23 ≤ (mantissa <<< count) / more := (Nat.le_div_iff_mul_le some).mpr bits
    have log := (Nat.le_log2 (by omega)).mpr full
    omega

theorem rounds_div (one : Canonical left) (two : Canonical right) (nonzero : number right ≠ 0) :
    Rounds (number left / number right) (UnpackedFloat.div Format.binary32 left right) := by
  cases two with
  | zero other => exact absurd rfl nonzero
  | @finite other more power some =>
    cases one with
    | zero sign =>
      rw [number_zero, zero_div]
      exact rounds_zero _
    | @finite sign mantissa exponent positive =>
      obtain ⟨count, lower, split, core, low⟩ := divCore_eq exponent power positive some
      have quotient := rounds_roundWithAccuracy (sign / other) _ lower _
        (locates_div (mantissa <<< count) some) low
      have same : ((sign / other).apply 1 : Int) *
          (((mantissa <<< count : Nat) : Rat) / more * 2 ^ lower) =
          number (.finite sign mantissa exponent positive) / number (.finite other more power some) := by
        have scales : (2 : Rat) ^ exponent / 2 ^ power = 2 ^ count * 2 ^ lower := by
          rw [← zpow_sub₀ two_ne_zero, split, zpow_add₀ two_ne_zero, zpow_natCast]
        rw [number, number, mul_div_mul_comm, apply_div, scales, Nat.shiftLeft_eq]
        push_cast
        ring
      rw [same] at quotient
      simpa only [UnpackedFloat.div, core] using quotient

/-! ### Whole numbers -/

theorem rounds_ofNat (count : Nat) : Rounds count (UnpackedFloat.ofNat Format.binary32 count) := by
  simpa [UnpackedFloat.ofNat, UnpackedFloat.ofInt] using rounds_normalize count 0 .positive

/-- A decimal number without a decimal exponent. -/
theorem rounds_ofScientific (count : Nat) :
    Rounds count (UnpackedFloat.ofScientific Format.binary32 count 0) := by
  rw [UnpackedFloat.ofScientific]
  split
  · rename_i zero
    simpa [zero] using rounds_zero .positive
  · rename_i some
    have positive : 0 < count := Nat.pos_of_ne_zero some
    have notTiny : ¬ (0 : Int) < -(2 ^ Format.binary32.exponentBits + count.log2) := by
      have bits : (0 : Int) ≤ 2 ^ Format.binary32.exponentBits := by positivity
      omega
    rw [if_neg (by decide), if_neg notTiny, if_pos (le_refl _)]
    have rounds := rounds_roundWithAccuracy .positive (count <<< 24 * 10 ^ 0) (-24 + 0) .exact
      (Locates.exact _) (by rw [pow_zero, mul_one, log2_shiftLeft positive]; omega)
    have same : (Sign.positive.apply 1 : Int) * (((count <<< 24 * 10 ^ 0 : Nat) : Rat) * 2 ^ (-24 + 0 : Int)) =
        count := by
      have unit : (2 : Rat) ^ 24 * 2 ^ (-24 + 0 : Int) = 1 := by
        rw [← zpow_natCast, ← zpow_add₀ two_ne_zero]
        exact zpow_zero 2
      rw [Nat.shiftLeft_eq, pow_zero, mul_one, Nat.cast_mul, Nat.cast_pow, Nat.cast_two, mul_assoc, unit,
        mul_one]
      exact one_mul _
    rw [same] at rounds
    exact rounds

end Letterhead.Binary
