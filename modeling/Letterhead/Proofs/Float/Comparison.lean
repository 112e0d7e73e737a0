import Letterhead.Proofs.Float.Storage

/-!
Comparisons that outlast an operation. What lies below a sum lies below a greater one, whatever the
summands are: a sum that is no number has nothing below it. A share of a float is no greater than
the float, however it is rounded.
-/

namespace Letterhead.Binary

open Float.Model (Format UnpackedFloat)

theorem unpacked_add_comm (left right : UnpackedFloat) :
    UnpackedFloat.add Format.binary32 left right = UnpackedFloat.add Format.binary32 right left := by
  rcases left with sign | _ | sign | ⟨sign, mantissa, exponent, positive⟩ <;>
    rcases right with other | _ | other | ⟨other, more, power, some⟩
  case finite.finite => simp only [UnpackedFloat.add, min_comm exponent power, add_comm]
  case infinity.infinity | zero.zero => cases sign <;> cases other <;> rfl
  all_goals rfl

variable {x y z s bound : Float32}

theorem compare_eq_symm {left right : UnpackedFloat} (same : left.compare right = some .eq) :
    right.compare left = some .eq := by
  rcases left with (_ | _) | _ | (_ | _) | ⟨_ | _, m, e, _⟩ <;>
    rcases right with (_ | _) | _ | (_ | _) | ⟨_ | _, n, f, _⟩ <;>
    simp_all [UnpackedFloat.compare, Ordering.then_eq_eq]

-- Such floats are equal, or zeros of either sign.
theorem ge_of_le_of_not_lt (le : x ≤ y) (high : ¬ x < y) : y ≤ x := by
  rw [le_iff_compare] at le ⊢
  rw [lt_iff_compare] at high
  have same : x.toModel.unpack.compare y.toModel.unpack = some .eq := by
    rcases found : x.toModel.unpack.compare y.toModel.unpack with _ | (_ | _ | _) <;>
      simp [found] at le high ⊢
  rw [compare_eq_symm same]
  rfl
/-! ### Sums -/

theorem float_add_comm (x y : Float32) : x + y = y + x :=
  congrArg (fun sum => Float32.ofModel (Float32.Model.pack sum))
    (unpacked_add_comm x.toModel.unpack y.toModel.unpack)

theorem not_lt_of_stores_below {exact : Rat} (stores : Stores exact x.toModel.unpack)
    (low : exact ≤ -2 ^ 128) : ¬ z < x := by
  apply not_lt_of_right z
  generalize x.toModel.unpack = float at stores
  cases stores with
  | finite _ _ small => exact absurd (abs_lt.mp small).1 (not_lt.mpr low)
  | above great =>
    have positive : (0 : Rat) < 2 ^ 128 := by positivity
    linarith
  | below _ => exact .inl rfl

theorem lt_of_stores {exact more : Rat} (one : Stores exact x.toModel.unpack)
    (two : Stores more y.toModel.unpack) (le : exact ≤ more) (less : z < x) : z < y := by
  rcases finite_or z with finite | ⟨sign, extreme⟩ | none
  · have below : value z < more := by
      by_contra high
      exact (one.order (stores_value finite) (le.trans (not_lt.mp high))).2 (lt_iff_compare.mp less)
    exact lt_iff_compare.mpr (two.lt (canonical_unpack finite) (value_lt finite) below)
  · cases sign with
    | positive => exact absurd less (not_lt_of_left (.inl extreme) x)
    | negative =>
      apply infinity_lt extreme
      show y.toModel.unpack.isFinite = true ∨ _
      generalize y.toModel.unpack = float at two
      cases two with
      | finite canonical => cases canonical <;> exact .inl rfl
      | above _ => exact .inr rfl
      | below low => exact absurd less (not_lt_of_stores_below one (le.trans low))
  · exact absurd less (not_lt_of_left (.inr none) x)

theorem lt_infinity_of_lt (less : z < x) (great : y.toModel.unpack = .infinity .positive) : z < y := by
  rcases finite_or z with finite | ⟨sign, extreme⟩ | none
  · exact lt_infinity finite great
  · cases sign with
    | positive => exact absurd less (not_lt_of_left (.inl extreme) x)
    | negative => exact infinity_lt extreme (.inr great)
  · exact absurd less (not_lt_of_left (.inr none) x)

theorem not_lt_low_add (low : x.toModel.unpack = .infinity .negative) (y : Float32) : ¬ z < x + y := by
  apply not_lt_of_right z
  rcases finite_or y with finite | ⟨sign, extreme⟩ | none
  · exact .inl (infinity_add low (.inl finite))
  · cases sign with
    | negative => exact .inl (infinity_add low (.inr extreme))
    | positive => exact .inr (opposite_add low extreme)
  · exact .inr (add_nan x none)

theorem extremes_of_le (le : x ≤ y) : x.toModel.unpack = .infinity .negative ∨
    y.toModel.unpack = .infinity .positive ∨ (x.isFinite = true ∧ y.isFinite = true) := by
  rw [le_iff_compare] at le
  show _ ∨ _ ∨ (x.toModel.unpack.isFinite = true ∧ y.toModel.unpack.isFinite = true)
  generalize x.toModel.unpack = left at le ⊢
  generalize y.toModel.unpack = right at le ⊢
  rcases left with (_ | _) | _ | _ | _ <;> rcases right with (_ | _) | _ | _ | _ <;>
    simp [UnpackedFloat.compare, UnpackedFloat.isFinite] at le ⊢
  exact absurd le (by decide)

/-- What lies below a sum lies below a greater one, whatever the summands are. -/
theorem lt_add_of_le (le : x ≤ y) (less : z < s + x) : z < s + y := by
  rcases extremes_of_le le with low | great | ⟨one, two⟩
  · rw [float_add_comm] at less
    exact absurd less (not_lt_low_add low s)
  · rcases finite_or s with finite | ⟨sign, extreme⟩ | none
    · exact lt_infinity_of_lt less (add_infinity finite great)
    · cases sign with
      | positive => exact lt_infinity_of_lt less (infinity_add extreme (.inr great))
      | negative => exact absurd less (not_lt_low_add extreme x)
    · exact absurd less (not_lt_of_right z (.inr (nan_add none x)))
  · rcases finite_or s with finite | ⟨sign, extreme⟩ | none
    · have lower := rounds_add (canonical_unpack finite) (canonical_unpack one)
      have upper := rounds_add (canonical_unpack finite) (canonical_unpack two)
      apply lt_of_stores (stores_pack lower.1) (stores_pack upper.1) _ less
      apply add_mono (canonical_unpack finite) (canonical_unpack one) (canonical_unpack finite)
        (canonical_unpack two)
      simpa [value] using (le_iff one two).mp le
    · cases sign with
      | positive => exact lt_infinity_of_lt less (infinity_add extreme (.inl two))
      | negative => exact absurd less (not_lt_low_add extreme x)
    · exact absurd less (not_lt_of_right z (.inr (nan_add none x)))

theorem zero_unpack : (0 : Float32).toModel.unpack = .zero .positive := rfl

/-- A zero added to a summand makes no difference to what lies below the sum. -/
theorem lt_add_of_lt_add_zero (less : z < x + 0 + y) : z < x + y := by
  rcases finite_or x with finite | ⟨sign, extreme⟩ | none
  · have zero : (0 : Float32).isFinite = true := rfl
    have rounds := rounds_add (canonical_unpack finite) (canonical_unpack zero)
    have exact : number x.toModel.unpack + number (0 : Float32).toModel.unpack =
        number x.toModel.unpack := by
      rw [zero_unpack, number_zero, add_zero]
    have same := rounds.eq_of_canonical (canonical_unpack finite) exact
    have le : x + 0 ≤ x :=
      le_iff_compare.mpr ((stores_pack rounds.1).order (stores_value finite) same.le).1
    rw [float_add_comm] at less ⊢
    exact lt_add_of_le le less
  · have zero := infinity_add extreme (.inl (rfl : (0 : Float32).isFinite = true))
    have sums : (x + 0 + y).toModel.unpack = (x + y).toModel.unpack := by
      refine (unpack_add ?_).trans rfl
      rw [zero, extreme]
    rw [lt_iff_compare] at less ⊢
    rwa [sums] at less
  · exact absurd less (not_lt_of_right z (.inr (nan_add (nan_add none 0) y)))

/-! ### Shares -/

/-- Not negative, and not beyond the bound. -/
structure UpTo (bound x : Float32) : Prop where
  finite : x.isFinite = true
  notNegative : 0 ≤ value x
  le : value x ≤ value bound

theorem upTo_of_rounds {exact : Rat} {float : UnpackedFloat} (rounds : Rounds exact float)
    (finite : bound.isFinite = true) (notNegative : 0 ≤ exact) (le : exact ≤ value bound) :
    UpTo bound (.ofModel (.pack float)) := by
  have high : number float ≤ value bound := rounds.ge_of_ge (canonical_unpack finite) le
  have low := rounds.le_of_le (.zero .positive) (by rwa [number_zero])
  rw [number_zero] at low
  have small : |number float| < 2 ^ 128 := by
    rw [abs_of_nonneg low]
    exact high.trans_lt (abs_lt.mp (value_lt finite)).2
  have kept := unpack_pack rounds.1 small
  refine ⟨?_, by rwa [value, kept], by rwa [value, kept]⟩
  have canonical := rounds.1
  show (Float32.Model.pack float).unpack.isFinite = true
  rw [kept]
  cases canonical <;> rfl

theorem upTo_mul (one : x.isFinite = true) (two : y.isFinite = true) (finite : bound.isFinite = true)
    (notNegative : 0 ≤ value x * value y) (le : value x * value y ≤ value bound) :
    UpTo bound (x * y) :=
  upTo_of_rounds (rounds_mul (canonical_unpack one) (canonical_unpack two)) finite notNegative le

namespace UpTo

theorem trans (one : UpTo bound x) (two : UpTo x y) : UpTo bound y :=
  ⟨two.finite, two.notNegative, two.le.trans one.le⟩

theorem mul (whole : UpTo bound x) (finite : y.isFinite = true) (notNegative : 0 ≤ value y)
    (share : value y ≤ 1) : UpTo bound (x * y) :=
  whole.trans <| upTo_mul whole.finite finite whole.finite
    (mul_nonneg whole.notNegative notNegative) (mul_le_of_le_one_right whole.notNegative share)

theorem div (whole : UpTo bound x) (finite : y.isFinite = true) (share : 1 ≤ value y) :
    UpTo bound (x / y) :=
  have positive : 0 < value y := zero_lt_one.trans_le share
  whole.trans <| upTo_of_rounds
    (rounds_div (canonical_unpack whole.finite) (canonical_unpack finite) positive.ne')
    whole.finite (div_nonneg whole.notNegative positive.le) (div_le_self whole.notNegative share)

end UpTo

theorem value_of_unpack {mantissa : Nat} {exponent : Int} {positive : 0 < mantissa}
    (read : x.toModel.unpack = .finite .positive mantissa exponent positive) :
    value x = mantissa * 2 ^ exponent := by
  rw [value, read, number_positive]

end Letterhead.Binary
