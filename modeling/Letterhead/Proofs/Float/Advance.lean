import Letterhead.Proofs.Float.Comparison

/-!
Going on from a float. Numbers and infinities are in one order, and adding to two of them keeps it:
what is not negative leads further or nowhere, though it may be lost in rounding. A difference has the
sign of the exact one, for it is never rounded to zero.
-/

namespace Letterhead.Binary

open Float.Model (Format UnpackedFloat)

variable {x y z s : Float32}

/-! ### The order of numbers and infinities -/

def IsNumber (x : Float32) : Prop := x.toModel.unpack ≠ .notANumber

/-- Where a float is among the rational numbers and the two infinities. -/
def reach (x : Float32) : WithBot (WithTop Rat) :=
  match x.toModel.unpack with
  | .infinity .positive => ⊤
  | .infinity .negative => ⊥
  | float => ((number float : WithTop Rat) : WithBot (WithTop Rat))

theorem reach_finite (finite : x.isFinite = true) :
    reach x = ((value x : WithTop Rat) : WithBot (WithTop Rat)) := by
  have canonical := canonical_unpack finite
  rw [reach, value]
  generalize x.toModel.unpack = float at canonical
  cases canonical <;> rfl

theorem reach_top (great : x.toModel.unpack = .infinity .positive) : reach x = ⊤ := by
  rw [reach, great]

theorem reach_bot (low : x.toModel.unpack = .infinity .negative) : reach x = ⊥ := by
  rw [reach, low]

theorem isNumber_of_finite (finite : x.isFinite = true) : IsNumber x := by
  intro none
  have canonical := canonical_unpack finite
  rw [none] at canonical
  cases canonical

theorem isNumber_iff : IsNumber x ↔ x.isNaN = false := by
  show x.toModel.unpack ≠ .notANumber ↔ x.toModel.unpack.isNaN = false
  cases x.toModel.unpack <;> simp [UnpackedFloat.isNaN]

theorem IsNumber.cases (number : IsNumber x) : x.isFinite = true ∨
    x.toModel.unpack = .infinity .positive ∨ x.toModel.unpack = .infinity .negative := by
  rcases finite_or x with finite | ⟨_ | _, extreme⟩ | none
  · exact .inl finite
  · exact .inr (.inr extreme)
  · exact .inr (.inl extreme)
  · exact absurd none number

theorem isNumber_of_le (le : x ≤ y) : IsNumber x ∧ IsNumber y := by
  rw [le_iff_compare] at le
  constructor <;> intro none <;> rw [none] at le
  · cases le
  · cases read : x.toModel.unpack <;> rw [read] at le <;> cases le

theorem le_iff_reach (one : IsNumber x) (two : IsNumber y) : x ≤ y ↔ reach x ≤ reach y := by
  rcases one.cases with finite | great | low
  · rcases two.cases with other | more | less
    · rw [le_iff finite other, reach_finite finite, reach_finite other, WithBot.coe_le_coe,
        WithTop.coe_le_coe]
    · rw [reach_top more]
      exact iff_of_true (le_of_lt_float (lt_infinity finite more)) le_top
    · rw [reach_bot less, reach_finite finite, le_bot_iff]
      refine iff_of_false (fun le => ?_) (WithBot.coe_ne_bot)
      have canonical := canonical_unpack finite
      rw [le_iff_compare, less] at le
      generalize x.toModel.unpack = float at canonical le
      cases canonical <;> cases le
  · rcases two.cases with other | more | less
    · rw [reach_top great, reach_finite other]
      refine iff_of_false (fun le => ?_) (not_le.mpr (WithBot.coe_lt_coe.mpr (WithTop.coe_lt_top _)))
      have canonical := canonical_unpack other
      rw [le_iff_compare, great] at le
      generalize y.toModel.unpack = float at canonical le
      cases canonical <;> cases le
    · rw [reach_top more, le_iff_compare, great, more]
      exact iff_of_true rfl le_top
    · rw [reach_top great, reach_bot less, le_iff_compare, great, less]
      exact iff_of_false (by decide) (by decide)
  · rw [reach_bot low]
    refine iff_of_true ?_ bot_le
    rcases two.cases with other | more | less
    · exact le_of_lt_float (infinity_lt low (.inl other))
    · exact le_of_lt_float (infinity_lt low (.inr more))
    · rw [le_iff_compare, low, less]
      rfl

theorem lt_iff_reach (one : IsNumber x) (two : IsNumber y) : x < y ↔ reach x < reach y := by
  rcases one.cases with finite | great | low
  · rcases two.cases with other | more | less
    · rw [lt_iff finite other, reach_finite finite, reach_finite other, WithBot.coe_lt_coe,
        WithTop.coe_lt_coe]
    · rw [reach_finite finite, reach_top more]
      exact iff_of_true (lt_infinity finite more) (WithBot.coe_lt_coe.mpr (WithTop.coe_lt_top _))
    · rw [reach_bot less]
      exact iff_of_false (not_lt_of_right x (.inl less)) not_lt_bot
  · rw [reach_top great]
    exact iff_of_false (not_lt_of_left (.inl great) y) not_top_lt
  · rw [reach_bot low]
    rcases two.cases with other | more | less
    · rw [reach_finite other]
      exact iff_of_true (infinity_lt low (.inl other)) (WithBot.bot_lt_coe _)
    · rw [reach_top more]
      exact iff_of_true (infinity_lt low (.inr more)) bot_lt_top
    · rw [reach_bot less]
      exact iff_of_false (not_lt_of_right x (.inl less)) not_lt_bot

theorem isNumber_of_lt (less : x < y) : IsNumber x ∧ IsNumber y := isNumber_of_le (le_of_lt_float less)

theorem le_self (number : IsNumber x) : x ≤ x := (le_iff_reach number number).mpr le_rfl

theorem le_trans_float (one : x ≤ y) (two : y ≤ z) : x ≤ z := by
  obtain ⟨first, second⟩ := isNumber_of_le one
  have third := (isNumber_of_le two).2
  rw [le_iff_reach first third]
  exact ((le_iff_reach first second).mp one).trans ((le_iff_reach second third).mp two)

theorem lt_of_lt_of_le_float (one : x < y) (two : y ≤ z) : x < z := by
  obtain ⟨first, second⟩ := isNumber_of_lt one
  have third := (isNumber_of_le two).2
  rw [lt_iff_reach first third]
  exact ((lt_iff_reach first second).mp one).trans_le ((le_iff_reach second third).mp two)

theorem not_lt_of_le_float (le : x ≤ y) : ¬ y < x := by
  obtain ⟨one, two⟩ := isNumber_of_le le
  rw [lt_iff_reach two one, not_lt]
  exact (le_iff_reach one two).mp le

theorem not_lt_self (x : Float32) : ¬ x < x := fun less => not_lt_of_le_float (le_of_lt_float less) less

/-! ### Sums -/

theorem isNumber_of_stores {exact : Rat} (stores : Stores exact x.toModel.unpack) : IsNumber x := by
  intro none
  rw [none] at stores
  cases stores with
  | finite canonical => cases canonical

theorem isNumber_add (number : IsNumber x) (finite : s.isFinite = true) : IsNumber (x + s) := by
  rcases number.cases with one | great | low
  · exact isNumber_of_stores (stores_pack (rounds_add (canonical_unpack one) (canonical_unpack finite)).1)
  · intro none
    cases (infinity_add great (.inl finite)).symm.trans none
  · intro none
    cases (infinity_add low (.inl finite)).symm.trans none

/-- Adding the same to both keeps the order. -/
theorem add_le_add_float (le : x ≤ y) (finite : s.isFinite = true) : x + s ≤ y + s := by
  obtain ⟨one, two⟩ := isNumber_of_le le
  have first := isNumber_add one finite
  have second := isNumber_add two finite
  rcases extremes_of_le le with low | great | ⟨small, large⟩
  · rw [le_iff_reach first second, reach_bot (infinity_add low (.inl finite))]
    exact bot_le
  · rw [le_iff_reach first second, reach_top (infinity_add great (.inl finite))]
    exact le_top
  · have lower := rounds_add (canonical_unpack small) (canonical_unpack finite)
    have upper := rounds_add (canonical_unpack large) (canonical_unpack finite)
    refine le_iff_compare.mpr ((stores_pack lower.1).order (stores_pack upper.1) ?_).1
    apply add_mono (canonical_unpack small) (canonical_unpack finite) (canonical_unpack large)
      (canonical_unpack finite)
    simpa [value] using (le_iff small large).mp le

theorem add_zero_le (finite : x.isFinite = true) : x + 0 ≤ x := by
  have rounds := rounds_add (canonical_unpack finite) (canonical_unpack zero_within.finite)
  have less := rounds.ge_of_ge (canonical_unpack finite) (add_zero _).le
  exact le_iff_compare.mpr ((stores_pack rounds.1).order (stores_value finite) less).1

theorem value_nonneg (finite : s.isFinite = true) (some : 0 ≤ s) : 0 ≤ value s :=
  (le_iff zero_within.finite finite).mp some

theorem le_add_of_nonneg (number : IsNumber x) (finite : s.isFinite = true) (some : 0 ≤ s) : x ≤ x + s := by
  rcases number.cases with one | great | low
  · have rounds := rounds_add (canonical_unpack one) (canonical_unpack finite)
    have more := rounds.le_of_le (canonical_unpack one) (le_add_of_nonneg_right (value_nonneg finite some))
    exact le_iff_compare.mpr ((stores_value one).order (stores_pack rounds.1) more).1
  · rw [le_iff_reach number (isNumber_add number finite), reach_top (infinity_add great (.inl finite))]
    exact le_top
  · rw [le_iff_reach number (isNumber_add number finite), reach_bot low]
    exact bot_le

/-! ### What is not negative -/

theorem zero_nonneg : (0 : Float32) ≤ 0 := by decide

theorem nonneg_of_rounds {exact : Rat} {float : UnpackedFloat} (rounds : Rounds exact float)
    (notNegative : 0 ≤ exact) : 0 ≤ Float32.ofModel (.pack float) := by
  have low := rounds.le_of_le (.zero .positive) (by rwa [number_zero])
  rw [number_zero] at low
  have zero : Stores 0 (0 : Float32).toModel.unpack := stores_value zero_within.finite
  exact le_iff_compare.mpr (zero.order (stores_pack rounds.1) low).1

theorem nonneg_of_infinity (great : x.toModel.unpack = .infinity .positive) : 0 ≤ x :=
  le_of_lt_float (lt_infinity zero_within.finite great)

theorem finite_or_infinity_of_nonneg (some : 0 ≤ x) :
    x.isFinite = true ∨ x.toModel.unpack = .infinity .positive := by
  rcases (isNumber_of_le some).2.cases with finite | great | low
  · exact .inl finite
  · exact .inr great
  · exact absurd (infinity_lt low (.inl zero_within.finite)) (not_lt_of_le_float some)

theorem add_nonneg_float (one : 0 ≤ x) (two : 0 ≤ y) : 0 ≤ x + y := by
  rcases finite_or_infinity_of_nonneg one with finite | great
  · rcases finite_or_infinity_of_nonneg two with other | more
    · exact nonneg_of_rounds (rounds_add (canonical_unpack finite) (canonical_unpack other))
        (add_nonneg (value_nonneg finite one) (value_nonneg other two))
    · exact nonneg_of_infinity (add_infinity finite more)
  · exact nonneg_of_infinity (infinity_add great (finite_or_infinity_of_nonneg two))

theorem unpack_of_positive (finite : s.isFinite = true) (positive : 0 < s) :
    ∃ mantissa exponent some, s.toModel.unpack = .finite .positive mantissa exponent some := by
  have canonical := canonical_unpack finite
  rw [lt_iff_compare, zero_unpack] at positive
  generalize s.toModel.unpack = float at canonical positive
  cases canonical with
  | zero => cases positive
  | @finite sign mantissa exponent some =>
    cases sign with
    | negative => cases positive
    | positive => exact ⟨mantissa, exponent, some, rfl⟩

theorem value_pos (finite : s.isFinite = true) (positive : 0 < s) : 0 < value s :=
  (lt_iff zero_within.finite finite).mp positive

theorem mul_nonneg_float (one : 0 ≤ x) (finite : s.isFinite = true) (positive : 0 < s) : 0 ≤ x * s := by
  rcases finite_or_infinity_of_nonneg one with small | great
  · exact nonneg_of_rounds (rounds_mul (canonical_unpack small) (canonical_unpack finite))
      (mul_nonneg (value_nonneg small one) (value_pos finite positive).le)
  · obtain ⟨mantissa, exponent, some, read⟩ := unpack_of_positive finite positive
    apply nonneg_of_infinity
    show (Float32.Model.pack (UnpackedFloat.mul Format.binary32 x.toModel.unpack s.toModel.unpack)).unpack = _
    rw [great, read]
    exact unpack_pack_infinity .positive

theorem div_nonneg_float (one : 0 ≤ x) (finite : s.isFinite = true) (positive : 0 < s) : 0 ≤ x / s := by
  rcases finite_or_infinity_of_nonneg one with small | great
  · have more := value_pos finite positive
    exact nonneg_of_rounds (rounds_div (canonical_unpack small) (canonical_unpack finite) more.ne')
      (div_nonneg (value_nonneg small one) more.le)
  · obtain ⟨mantissa, exponent, some, read⟩ := unpack_of_positive finite positive
    apply nonneg_of_infinity
    show (Float32.Model.pack (UnpackedFloat.div Format.binary32 x.toModel.unpack s.toModel.unpack)).unpack = _
    rw [great, read]
    exact unpack_pack_infinity .positive

theorem ofNat_nonneg (count : Nat) : 0 ≤ Float32.ofNat count := by
  change 0 ≤ Float32.ofScientific count false 0
  rw [Float32.ofScientific]
  split
  · have whole : 0 ≤ count.toUInt64.toFloat32 := nonneg_of_rounds (rounds_ofNat _) (Nat.cast_nonneg _)
    have one : 0 ≤ count.toUInt64.toFloat32 * Float32.ofBits 0x3F800000 :=
      mul_nonneg_float whole rfl (by decide)
    exact one
  · exact nonneg_of_rounds (rounds_ofScientific count) (Nat.cast_nonneg _)

/-! ### Differences -/

theorem sub_finite (one : x.isFinite = true) (two : y.isFinite = true) (first : 0 ≤ x) (second : 0 ≤ y) :
    (x - y).isFinite = true := by
  have rounds := rounds_sub (canonical_unpack one) (canonical_unpack two)
  have above := value_nonneg one first
  have below := value_nonneg two second
  rw [value] at above below
  have high := rounds.ge_of_ge (canonical_unpack one) (by linarith)
  have low := rounds.le_of_le (canonical_unpack two).neg (by rw [number_neg]; linarith)
  rw [number_neg] at low
  have small := (abs_lt.mp (value_lt one)).2
  have great := (abs_lt.mp (value_lt two)).2
  rw [value] at small great
  have kept := unpack_pack rounds.1 (abs_lt.mpr ⟨by linarith, by linarith⟩)
  have canonical := rounds.1
  show (Float32.Model.pack (UnpackedFloat.sub _ _ _)).unpack.isFinite = true
  rw [kept]
  generalize UnpackedFloat.sub Format.binary32 x.toModel.unpack y.toModel.unpack = float at canonical
  cases canonical <;> rfl

/-- Two floats are multiples of the least one apart, so rounding leaves something of a difference. -/
theorem not_nonneg_of_rounds {first second float : UnpackedFloat} (one : Canonical first)
    (two : Canonical second) (rounds : Rounds (number first - number second) float)
    (less : number first < number second) : ¬ 0 ≤ Float32.ofModel (.pack float) := by
  have scale : (0 : Rat) < 2 ^ (-149 : Int) := by positivity
  obtain ⟨count, left⟩ := one.multiple
  obtain ⟨more, right⟩ := two.multiple
  have fewer : count < more := by
    rw [left, right] at less
    exact_mod_cast lt_of_mul_lt_mul_right less scale.le
  have read : (Float32.ofBits 0x80000001).toModel.unpack = .finite .negative 1 (-149) Nat.one_pos := rfl
  have finite : (Float32.ofBits 0x80000001).isFinite = true := rfl
  have least : number first - number second ≤ value (.ofBits 0x80000001) := by
    rw [value, read, number_negative, left, right, ← sub_mul, Nat.cast_one, ← neg_mul, ← Int.cast_sub]
    refine mul_le_mul_of_nonneg_right ?_ scale.le
    exact_mod_cast (by omega : count - more ≤ -1)
  have low := rounds.ge_of_ge (canonical_unpack finite) least
  have le : Float32.ofModel (.pack float) ≤ .ofBits 0x80000001 :=
    le_iff_compare.mpr ((stores_pack rounds.1).order (stores_value finite) low).1
  intro some
  exact absurd (le_trans_float some le) (by decide)

/-- The difference has the sign of the exact one. -/
theorem sub_nonneg_iff (finite : x.isFinite = true) : 0 ≤ x - y ↔ y ≤ x := by
  rcases finite_or y with other | ⟨sign, extreme⟩ | none
  · have rounds := rounds_sub (canonical_unpack finite) (canonical_unpack other)
    rw [le_iff other finite]
    refine ⟨fun some => ?_, fun le => nonneg_of_rounds rounds (sub_nonneg.mpr le)⟩
    by_contra beyond
    exact not_nonneg_of_rounds (canonical_unpack finite) (canonical_unpack other) rounds
      (not_le.mp beyond) some
  · have difference := sub_infinity finite extreme
    cases sign
    · exact iff_of_true (nonneg_of_infinity difference) (le_of_lt_float (infinity_lt extreme (.inl finite)))
    · exact iff_of_false
        (fun some => not_lt_of_le_float some (infinity_lt difference (.inl zero_within.finite)))
        fun le => not_lt_of_le_float le (lt_infinity finite extreme)
  · exact iff_of_false (fun some => (isNumber_of_le some).2 (sub_nan x none))
      fun le => (isNumber_of_le le).1 none

end Letterhead.Binary
