import Letterhead.Proofs.Float.Order

/-!
Rounding keeps the order of numbers: no float is nearer to a number than the one it is rounded to,
and equal numbers are rounded alike, however they are given.
-/

namespace Letterhead.Binary

open Float.Model (Format UnpackedFloat totalExponent)
open Float.Model.UnpackedFloat (Sign Accuracy ExtendedMantissa)

/-! ### No float is nearer -/

namespace Nearest

variable {unit : Int} {exact rounded : Rat}

theorem le_multiple (nearest : Nearest unit exact rounded) (count : Int) :
    |rounded - exact| ≤ |count * (2 : Rat) ^ unit - exact| := by
  have scale : (0 : Rat) < 2 ^ unit := by positivity
  have close := nearest.close
  obtain ⟨taken, rfl⟩ := nearest.multiple
  by_cases same : taken = count
  · rw [same]
  · -- Two multiples are a unit apart, and the number is half a unit from one of them at most.
    have one : (1 : Rat) ≤ |((taken - count : Int) : Rat)| := by
      exact_mod_cast Int.one_le_abs (sub_ne_zero.mpr same)
    have apart : (2 : Rat) ^ unit ≤ |taken * (2 : Rat) ^ unit - count * 2 ^ unit| := by
      rw [← sub_mul, abs_mul, abs_of_pos scale, ← Int.cast_sub]
      exact le_mul_of_one_le_left scale.le one
    have between := abs_sub_le (taken * (2 : Rat) ^ unit) exact (count * 2 ^ unit)
    rw [abs_sub_comm exact] at between
    linarith

theorem le_canonical (nearest : Nearest unit exact rounded) {float : UnpackedFloat}
    (canonical : Canonical float) : |rounded - exact| ≤ |number float - exact| := by
  cases canonical with
  | zero sign => simpa using nearest.le_multiple 0
  | @finite sign mantissa exponent positive few least normal =>
    by_cases coarse : unit ≤ exponent
    · have same : number (.finite sign mantissa exponent positive) =
          (sign.apply mantissa * 2 ^ (exponent - unit).toNat : Int) * (2 : Rat) ^ unit := by
        rw [number, Int.cast_mul, Int.cast_pow, Int.cast_two, mul_assoc, ← zpow_natCast,
          ← zpow_add₀ two_ne_zero]
        congr 2
        omega
      rw [same]
      exact nearest.le_multiple _
    · -- The float is finer than the unit, so a power of two separates it from the number.
      have low : (2 : Rat) ^ (unit + 23) ≤ |exact| := nearest.below.resolve_left (by omega)
      have small : |number (.finite sign mantissa exponent positive)| < 2 ^ (unit + 23) := by
        rw [abs_number]
        calc (mantissa : Rat) * 2 ^ exponent < 2 ^ 24 * 2 ^ exponent :=
              mul_lt_mul_of_pos_right (by exact_mod_cast few) (by positivity)
          _ = 2 ^ (24 + exponent : Int) := by rw [zpow_add₀ two_ne_zero]; rfl
          _ ≤ 2 ^ (unit + 23) := power_le (by omega)
      have power : (2 : Rat) ^ (unit + 23) = (2 ^ 23 : Int) * 2 ^ unit := by
        rw [zpow_add₀ two_ne_zero, mul_comm]
        norm_num
      obtain ⟨above, below⟩ := abs_lt.mp small
      rcases le_total 0 exact with right | left
      · rw [abs_of_nonneg right, power] at low
        have near := nearest.le_multiple (2 ^ 23)
        rw [abs_of_nonpos (by linarith : ((2 ^ 23 : Int) : Rat) * 2 ^ unit - exact ≤ 0)] at near
        rw [abs_of_neg (by linarith : number (.finite sign mantissa exponent positive) - exact < 0)]
        linarith
      · rw [abs_of_nonpos left, power] at low
        have near := nearest.le_multiple (-2 ^ 23)
        rw [Int.cast_neg, neg_mul, abs_of_nonneg (by linarith :
          0 ≤ -(((2 ^ 23 : Int) : Rat) * 2 ^ unit) - exact)] at near
        rw [abs_of_pos (by linarith : 0 < number (.finite sign mantissa exponent positive) - exact)]
        linarith

-- A number of 24 bits is one of the multiples.
theorem eq_of_multiple (nearest : Nearest unit exact rounded) {fine : Int} (least : -149 ≤ fine)
    {count : Int} (multiple : exact = count * (2 : Rat) ^ fine) (few : |exact| < 2 ^ (fine + 24)) :
    rounded = exact := by
  have coarse : unit ≤ fine := by
    rcases nearest.below with same | below
    · omega
    · have power := (zpow_lt_zpow_iff_right₀ one_lt_two).mp (lt_of_le_of_lt below few)
      omega
  have same : exact = (count * 2 ^ (fine - unit).toNat : Int) * (2 : Rat) ^ unit := by
    rw [multiple, Int.cast_mul, Int.cast_pow, Int.cast_two, mul_assoc, ← zpow_natCast,
      ← zpow_add₀ two_ne_zero]
    congr 2
    omega
  have none := nearest.le_multiple (count * 2 ^ (fine - unit).toNat)
  rw [← same, sub_self, abs_zero] at none
  exact sub_eq_zero.mp (abs_eq_zero.mp (le_antisymm none (abs_nonneg _)))

end Nearest

namespace Rounds

variable {exact more : Rat} {float other : UnpackedFloat}

theorem le_of_le (rounds : Rounds exact float) (canonical : Canonical other)
    (below : number other ≤ exact) : number other ≤ number float := by
  obtain ⟨-, unit, nearest⟩ := rounds
  have near := nearest.le_canonical canonical
  by_contra beyond
  rw [abs_of_nonpos (by linarith : number other - exact ≤ 0),
    abs_of_neg (by linarith : number float - exact < 0)] at near
  linarith

theorem ge_of_ge (rounds : Rounds exact float) (canonical : Canonical other)
    (above : exact ≤ number other) : number float ≤ number other := by
  obtain ⟨-, unit, nearest⟩ := rounds
  have near := nearest.le_canonical canonical
  by_contra beyond
  rw [abs_of_nonneg (by linarith : 0 ≤ number other - exact),
    abs_of_pos (by linarith : 0 < number float - exact)] at near
  linarith

theorem mono_of_lt (rounds : Rounds exact float) (later : Rounds more other) (less : exact < more) :
    number float ≤ number other := by
  by_contra beyond
  -- Both numbers are between the two floats, and each is nearer to the one that is farther off.
  have high : more < number float := by
    by_contra low
    exact beyond (later.le_of_le rounds.1 (not_lt.mp low))
  have low : number other < exact := by
    by_contra high
    exact beyond (rounds.ge_of_ge later.1 (not_lt.mp high))
  obtain ⟨one, unit, nearest⟩ := rounds
  obtain ⟨two, power, nearby⟩ := later
  have near := nearest.le_canonical two
  have close := nearby.le_canonical one
  rw [abs_of_pos (by linarith : 0 < number float - exact),
    abs_of_neg (by linarith : number other - exact < 0)] at near
  rw [abs_of_neg (by linarith : number other - more < 0),
    abs_of_pos (by linarith : 0 < number float - more)] at close
  linarith

theorem eq_of_canonical (rounds : Rounds exact float) (canonical : Canonical other)
    (same : exact = number other) : number float = number other :=
  le_antisymm (rounds.ge_of_ge canonical same.le) (rounds.le_of_le canonical same.ge)

end Rounds

/-! ### Equal numbers -/

theorem Locates.unique {one two : ExtendedMantissa} {x : Rat} (first : Locates one x)
    (second : Locates two x) : one = two := by
  obtain ⟨mantissa, roundBit, stickyBit⟩ := one
  obtain ⟨more, otherRound, otherSticky⟩ := two
  obtain ⟨floor, ceil, half, rest⟩ := first
  obtain ⟨lower, upper, middle, least⟩ := second
  simp only at floor ceil half rest lower upper middle least
  have above : mantissa < more + 1 := by exact_mod_cast lt_of_le_of_lt floor upper
  have below : more < mantissa + 1 := by exact_mod_cast lt_of_le_of_lt lower ceil
  obtain rfl : mantissa = more := by omega
  have rounds : roundBit = otherRound := Bool.eq_iff_iff.mpr (half.trans middle.symm)
  have sticks : stickyBit = otherSticky := by
    have same := rest.trans least.symm
    cases stickyBit <;> cases otherSticky <;> simp at same <;> rfl
  rw [rounds, sticks]

/-- What is put together of a mantissa with residual bits. -/
def assembled (sign : Sign) (extended : ExtendedMantissa) (unit : Int) : UnpackedFloat :=
  let last := UnpackedFloat.shiftToTargetExponent Format.binary32 extended.roundedMantissa unit .exact
  if zero : last.1.mantissa = 0 then .zero sign
  else .finite sign last.1.mantissa last.2 (Nat.pos_of_ne_zero zero)

theorem round_eq_assembled (sign : Sign) {mantissa : Nat} (positive : 0 < mantissa) (exponent : Int) :
    ∃ extended, UnpackedFloat.round Format.binary32 sign mantissa exponent =
        assembled sign extended (max ((mantissa.log2 : Int) + exponent - 23) (-149)) ∧
      Locates extended (mantissa * (2 : Rat) ^ exponent /
        2 ^ max ((mantissa.log2 : Int) + exponent - 23) (-149)) := by
  obtain ⟨unit, target⟩ : ∃ unit, unit = max ((mantissa.log2 : Int) + exponent - 23) (-149) := ⟨_, rfl⟩
  rw [← target, ← decreaseExponent_value mantissa exponent unit]
  obtain ⟨count, shift⟩ : ∃ count : Nat, (exponent - unit).toNat = count := ⟨_, rfl⟩
  have decreased : UnpackedFloat.decreaseExponent mantissa exponent unit =
      (mantissa <<< count, exponent - count) := by
    simp only [UnpackedFloat.decreaseExponent, shift]
  have still : unit = max (((mantissa <<< count).log2 : Int) + (exponent - count) - 23) (-149) := by
    rw [log2_shiftLeft positive]
    omega
  rw [decreased]
  refine ⟨ExtendedMantissa.ofMantissaAndAccuracy (mantissa <<< count) .exact >>>
    (unit - (exponent - count)).toNat, ?_, ?_⟩
  · have first : UnpackedFloat.shiftToTargetExponent Format.binary32 (mantissa <<< count)
        (exponent - count) .exact =
          (ExtendedMantissa.ofMantissaAndAccuracy (mantissa <<< count) .exact >>>
            (unit - (exponent - count)).toNat, unit) := by
      simp only [UnpackedFloat.shiftToTargetExponent, UnpackedFloat.shiftToExponent, targetExponent_eq,
        ← still]
      congr 1
      omega
    simp only [UnpackedFloat.round, targetExponent_eq, ← target, decreased,
      UnpackedFloat.roundWithAccuracy, first]
    rfl
  · have located := (Locates.exact (mantissa <<< count)).shiftRight (unit - (exponent - count)).toNat
    have same : ((mantissa <<< count : Nat) : Rat) * 2 ^ (exponent - count) / 2 ^ unit =
        (mantissa <<< count : Nat) / 2 ^ (unit - (exponent - count)).toNat := by
      have power : (2 : Rat) ^ unit = 2 ^ (unit - (exponent - count)).toNat * 2 ^ (exponent - count) := by
        rw [← zpow_natCast, ← zpow_add₀ two_ne_zero]
        congr 1
        omega
      rw [power]
      field_simp
    rw [same]
    exact located

theorem log2_le_of_eq {mantissa more : Nat} {exponent power : Int} (positive : 0 < mantissa)
    (same : (mantissa : Rat) * 2 ^ exponent = more * 2 ^ power) :
    (mantissa.log2 : Int) + exponent ≤ more.log2 + power := by
  have low : (2 : Rat) ^ ((mantissa.log2 : Int) + exponent) ≤ mantissa * 2 ^ exponent := by
    rw [zpow_add₀ two_ne_zero, zpow_natCast]
    exact mul_le_mul_of_nonneg_right (by exact_mod_cast Nat.log2_self_le positive.ne') (by positivity)
  have high : (more : Rat) * 2 ^ power < 2 ^ ((more.log2 : Int) + 1 + power) := by
    rw [zpow_add₀ two_ne_zero]
    exact mul_lt_mul_of_pos_right (by exact_mod_cast Nat.lt_log2_self) (by positivity)
  have less := (zpow_lt_zpow_iff_right₀ one_lt_two).mp (lt_of_le_of_lt (low.trans same.le) high)
  omega

theorem round_unique (sign : Sign) {mantissa more : Nat} {exponent power : Int}
    (positive : 0 < mantissa) (some : 0 < more)
    (same : (mantissa : Rat) * 2 ^ exponent = more * 2 ^ power) :
    UnpackedFloat.round Format.binary32 sign mantissa exponent =
      UnpackedFloat.round Format.binary32 sign more power := by
  have bits : (mantissa.log2 : Int) + exponent = more.log2 + power :=
    le_antisymm (log2_le_of_eq positive same) (log2_le_of_eq some same.symm)
  obtain ⟨one, first, located⟩ := round_eq_assembled sign positive exponent
  obtain ⟨two, second, found⟩ := round_eq_assembled sign some power
  rw [same, bits] at located
  rw [first, second, bits, located.unique found]

theorem normalize_unique {mantissa more exponent power : Int} (zeroSign otherSign : Sign)
    (same : (mantissa : Rat) * 2 ^ exponent = more * 2 ^ power) :
    number (UnpackedFloat.normalize Format.binary32 mantissa exponent zeroSign) =
      number (UnpackedFloat.normalize Format.binary32 more power otherSign) := by
  have scale : (0 : Rat) < 2 ^ exponent := by positivity
  have other : (0 : Rat) < 2 ^ power := by positivity
  rw [UnpackedFloat.normalize, UnpackedFloat.normalize]
  rcases lt_trichotomy mantissa 0 with negative | rfl | positive
  · have below : (more : Rat) * 2 ^ power < 0 :=
      same ▸ mul_neg_of_neg_of_pos (by exact_mod_cast negative) scale
    have less : more < 0 := by exact_mod_cast neg_of_mul_neg_left below other.le
    rw [compare_lt_iff_lt.mpr negative, compare_lt_iff_lt.mpr less]
    refine congrArg number (round_unique .negative (by omega) (by omega) ?_)
    have left : (((-mantissa).toNat : Int) : Rat) = -mantissa := by
      rw [Int.toNat_of_nonneg (by omega), Int.cast_neg]
    have right : (((-more).toNat : Int) : Rat) = -more := by
      rw [Int.toNat_of_nonneg (by omega), Int.cast_neg]
    rw [Int.cast_natCast] at left right
    rw [left, right, neg_mul, neg_mul, same]
  · have none : more = 0 := by
      rw [Int.cast_zero, zero_mul, eq_comm, mul_eq_zero] at same
      exact_mod_cast same.resolve_right other.ne'
    rw [none]
    rfl
  · have above : (0 : Rat) < more * 2 ^ power :=
      same ▸ mul_pos (by exact_mod_cast positive) scale
    have greater : 0 < more := by exact_mod_cast (mul_pos_iff_of_pos_right other).mp above
    rw [compare_gt_iff_gt.mpr positive, compare_gt_iff_gt.mpr greater]
    refine congrArg number (round_unique .positive (by omega) (by omega) ?_)
    have left : ((mantissa.toNat : Int) : Rat) = mantissa := by rw [Int.toNat_of_nonneg positive.le]
    have right : ((more.toNat : Int) : Rat) = more := by rw [Int.toNat_of_nonneg greater.le]
    rw [Int.cast_natCast] at left right
    rw [left, right, same]

/-! ### Sums -/

section Sums

variable {left right first second : UnpackedFloat}

-- A sum that is a float already is not rounded at all.
theorem add_eq_normalize (one : Canonical left) (two : Canonical right) :
    ∃ mantissa exponent : Int, (mantissa : Rat) * 2 ^ exponent = number left + number right ∧
      number (UnpackedFloat.add Format.binary32 left right) =
        number (UnpackedFloat.normalize Format.binary32 mantissa exponent .positive) := by
  have plain {float : UnpackedFloat} (canonical : Canonical float)
      (same : number left + number right = number float) :
      ∃ mantissa exponent : Int, (mantissa : Rat) * 2 ^ exponent = number left + number right ∧
        number (UnpackedFloat.add Format.binary32 left right) =
          number (UnpackedFloat.normalize Format.binary32 mantissa exponent .positive) := by
    obtain ⟨mantissa, exponent, parts⟩ :
        ∃ mantissa exponent : Int, (mantissa : Rat) * 2 ^ exponent = number float := by
      cases canonical with
      | zero sign => exact ⟨0, 0, by simp⟩
      | @finite sign mantissa exponent => exact ⟨sign.apply mantissa, exponent, rfl⟩
    refine ⟨mantissa, exponent, parts.trans same.symm, ?_⟩
    rw [(rounds_add one two).eq_of_canonical canonical same,
      (rounds_normalize mantissa exponent .positive).eq_of_canonical canonical parts]
  cases one with
  | zero sign => exact plain two (by rw [number_zero, zero_add])
  | @finite sign mantissa exponent _ few least normal =>
    cases two with
    | zero other => exact plain (.finite few least normal) (by rw [number_zero, add_zero])
    | @finite other more power =>
      refine ⟨sign.apply (UnpackedFloat.decreaseExponent mantissa exponent (min exponent power)).1 +
        other.apply (UnpackedFloat.decreaseExponent more power (min exponent power)).1,
        min exponent power, ?_, rfl⟩
      rw [Int.cast_add, add_mul, number_decreased sign mantissa (min_le_left _ _),
        number_decreased other more (min_le_right _ _)]
      rfl

theorem add_mono (one : Canonical left) (two : Canonical right) (three : Canonical first)
    (four : Canonical second) (le : number left + number right ≤ number first + number second) :
    number (UnpackedFloat.add Format.binary32 left right) ≤
      number (UnpackedFloat.add Format.binary32 first second) := by
  rcases le.lt_or_eq with less | same
  · exact (rounds_add one two).mono_of_lt (rounds_add three four) less
  · obtain ⟨mantissa, exponent, parts, sum⟩ := add_eq_normalize one two
    obtain ⟨more, power, others, total⟩ := add_eq_normalize three four
    rw [sum, total, normalize_unique .positive .positive (parts.trans (same.trans others.symm))]

end Sums

end Letterhead.Binary
