import Letterhead.Proofs.Float.Magnitude

/-!
The order of finite floats is that of the numbers they stand for, and what lies between two finite
floats is finite.
-/

namespace Letterhead.Binary

open Float.Model (UnpackedFloat)
open Float.Model.UnpackedFloat (Sign)

/-! ### Unpacked floats -/

/-- Where all bits are in use, the greater exponent has the greater number. -/
theorem shifted_lt {mantissa more : Nat} {exponent power : Int} (few : mantissa < 2 ^ 24)
    (least : -149 ≤ exponent) (normal : power = -149 ∨ 2 ^ 23 ≤ more) (less : exponent < power) :
    (mantissa : Rat) * 2 ^ exponent < more * 2 ^ power := by
  have bits : 2 ^ 23 ≤ more := normal.resolve_left (by omega)
  have scale : (0 : Rat) < 2 ^ exponent := by positivity
  have higher : (0 : Rat) < 2 ^ power := by positivity
  calc (mantissa : Rat) * 2 ^ exponent < 2 ^ 24 * 2 ^ exponent :=
        mul_lt_mul_of_pos_right (by exact_mod_cast few) scale
    _ = 2 ^ (24 + exponent : Int) := by rw [zpow_add₀ two_ne_zero]; rfl
    _ ≤ 2 ^ (23 + power : Int) := power_le (by omega)
    _ = 2 ^ 23 * 2 ^ power := by rw [zpow_add₀ two_ne_zero]; rfl
    _ ≤ more * 2 ^ power := mul_le_mul_of_nonneg_right (by exact_mod_cast bits) higher.le

theorem compare_shifted {mantissa more : Nat} {exponent power : Int} (few : mantissa < 2 ^ 24)
    (least : -149 ≤ exponent) (normal : exponent = -149 ∨ 2 ^ 23 ≤ mantissa) (some : more < 2 ^ 24)
    (lower : -149 ≤ power) (full : power = -149 ∨ 2 ^ 23 ≤ more) :
    (compare exponent power).then (compare mantissa more) =
      compare ((mantissa : Rat) * 2 ^ exponent) (more * 2 ^ power) := by
  rcases lt_trichotomy exponent power with less | rfl | greater
  · rw [compare_lt_iff_lt.mpr less, compare_lt_iff_lt.mpr (shifted_lt few least full less)]
    rfl
  · have scale : (0 : Rat) < 2 ^ exponent := by positivity
    rw [compare_eq_iff_eq.mpr rfl, Ordering.eq_then]
    rcases lt_trichotomy mantissa more with less | rfl | greater
    · rw [compare_lt_iff_lt.mpr less, compare_lt_iff_lt.mpr]
      exact mul_lt_mul_of_pos_right (by exact_mod_cast less) scale
    · rw [compare_eq_iff_eq.mpr rfl, compare_eq_iff_eq.mpr rfl]
    · rw [compare_gt_iff_gt.mpr greater, compare_gt_iff_gt.mpr]
      exact mul_lt_mul_of_pos_right (by exact_mod_cast greater) scale
  · rw [compare_gt_iff_gt.mpr greater, compare_gt_iff_gt.mpr (shifted_lt some lower normal greater)]
    rfl

theorem number_positive (mantissa : Nat) (exponent : Int) (positive : 0 < mantissa) :
    number (.finite .positive mantissa exponent positive) = mantissa * 2 ^ exponent :=
  rfl

theorem number_negative (mantissa : Nat) (exponent : Int) (positive : 0 < mantissa) :
    number (.finite .negative mantissa exponent positive) = -(mantissa * 2 ^ exponent) := by
  simp [number, Sign.apply]

theorem compare_neg (a b : Rat) : compare (-a) (-b) = (compare a b).swap := by
  rcases lt_trichotomy a b with less | rfl | greater
  · rw [compare_lt_iff_lt.mpr less, compare_gt_iff_gt.mpr (neg_lt_neg less)]
    rfl
  · rw [compare_eq_iff_eq.mpr rfl, compare_eq_iff_eq.mpr rfl]
    rfl
  · rw [compare_gt_iff_gt.mpr greater, compare_lt_iff_lt.mpr (neg_lt_neg greater)]
    rfl

theorem compare_number {left right : UnpackedFloat} (one : Canonical left) (two : Canonical right) :
    left.compare right = some (compare (number left) (number right)) := by
  have magnitude {mantissa : Nat} (exponent : Int) (positive : 0 < mantissa) :
      (0 : Rat) < mantissa * 2 ^ exponent :=
    mul_pos (by exact_mod_cast positive) (by positivity)
  cases one with
  | zero sign =>
    cases two with
    | zero other =>
      rw [number_zero, number_zero, compare_eq_iff_eq.mpr rfl]
      rfl
    | @finite other more power positive =>
      have size := magnitude power positive
      cases other
      · rw [number_zero, number_negative, compare_gt_iff_gt.mpr (neg_lt_zero.mpr size)]
        rfl
      · rw [number_zero, number_positive, compare_lt_iff_lt.mpr size]
        rfl
  | @finite sign mantissa exponent positive few least normal =>
    have size := magnitude exponent positive
    cases two with
    | zero other =>
      cases sign
      · rw [number_zero, number_negative, compare_lt_iff_lt.mpr (neg_lt_zero.mpr size)]
        rfl
      · rw [number_zero, number_positive, compare_gt_iff_gt.mpr size]
        rfl
    | @finite other more power above some lower full =>
      have order := compare_shifted few least normal some lower full
      have other_size := magnitude power above
      cases sign <;> cases other
      · rw [number_negative, number_negative, compare_neg, ← order]
        rfl
      · rw [number_negative, number_positive, compare_lt_iff_lt.mpr (by linarith)]
        rfl
      · rw [number_negative, number_positive, compare_gt_iff_gt.mpr (by linarith)]
        rfl
      · rw [number_positive, number_positive, ← order]
        rfl

/-! ### Floats -/

variable {x y lower upper : Float32}

theorem le_iff_compare : x ≤ y ↔ (x.toModel.unpack.compare y.toModel.unpack).any (·.isLE) = true := by
  show decide (x.toModel ≤ y.toModel) = true ↔ _
  rw [decide_eq_true_iff]
  rfl

theorem le_iff (one : x.isFinite = true) (two : y.isFinite = true) : x ≤ y ↔ value x ≤ value y := by
  have order := compare_number (canonical_unpack one) (canonical_unpack two)
  rw [le_iff_compare, order, Option.any_some, Ordering.isLE_iff_ne_gt]
  exact compare_le_iff_le

theorem lt_iff_compare : x < y ↔ (x.toModel.unpack.compare y.toModel.unpack == some .lt) = true := by
  show decide (x.toModel < y.toModel) = true ↔ _
  rw [decide_eq_true_iff]
  rfl

theorem lt_iff (one : x.isFinite = true) (two : y.isFinite = true) : x < y ↔ value x < value y := by
  have order := compare_number (canonical_unpack one) (canonical_unpack two)
  rw [lt_iff_compare, order]
  simp [compare_lt_iff_lt, value]

/-! ### Between finite floats -/

-- An infinity is beyond one of the two, and what is no number compares with neither.
theorem isFinite_between {left middle right : UnpackedFloat} (one : Canonical left)
    (two : Canonical right) (low : (left.compare middle).any (·.isLE) = true)
    (high : (middle.compare right).any (·.isLE) = true) : middle.isFinite = true := by
  rcases middle with sign | _ | _ | _
  · cases sign
    · cases one <;> cases low
    · cases two <;> cases high
  · cases one <;> cases low
  · rfl
  · rfl

theorem finite_of_between (low : lower ≤ x) (high : x ≤ upper) (below : lower.isFinite = true)
    (above : upper.isFinite = true) : x.isFinite = true :=
  isFinite_between (canonical_unpack below) (canonical_unpack above) (le_iff_compare.mp low)
    (le_iff_compare.mp high)

theorem isFinite_of_not_lt {left middle right : UnpackedFloat} (one : Canonical left)
    (two : Canonical right) (number : middle.isNaN = false) (low : ¬ (middle.compare left == some .lt) = true)
    (high : ¬ (right.compare middle == some .lt) = true) : middle.isFinite = true := by
  rcases middle with sign | _ | _ | _
  · cases sign
    · cases one <;> exact absurd rfl low
    · cases two <;> exact absurd rfl high
  · cases number
  · rfl
  · rfl

/-- A number that is beyond neither of two finite ones. -/
theorem finite_of_not_lt (number : x.isNaN = false) (low : ¬ x < lower) (high : ¬ upper < x)
    (below : lower.isFinite = true) (above : upper.isFinite = true) : x.isFinite = true := by
  rw [lt_iff_compare] at low high
  exact isFinite_of_not_lt (canonical_unpack below) (canonical_unpack above) number low high

theorem within_of_between {bits : Int} (low : lower ≤ x) (high : x ≤ upper) (below : Within bits lower)
    (above : Within bits upper) : Within bits x := by
  have finite := finite_of_between low high below.finite above.finite
  refine ⟨finite, abs_le.mpr ⟨?_, ?_⟩⟩
  · exact (abs_le.mp below.bound).1.trans ((le_iff below.finite finite).mp low)
  · exact ((le_iff finite above.finite).mp high).trans (abs_le.mp above.bound).2

theorem within_of_positive {bits : Int} (finite : x.isFinite = true) (positive : 0 < x) (high : x ≤ upper)
    (above : Within bits upper) : Within bits x := by
  have more : value 0 < value x := (lt_iff zero_within.finite finite).mp positive
  have zero : value 0 = 0 := rfl
  rw [zero] at more
  refine ⟨finite, ?_⟩
  rw [abs_of_pos more]
  exact ((le_iff finite above.finite).mp high).trans (abs_le.mp above.bound).2

end Letterhead.Binary
