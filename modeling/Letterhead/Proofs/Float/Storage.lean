import Letterhead.Proofs.Float.Monotone

/-!
Sums and differences as they are compared once they are stored. A number too great for a float is
stored as an infinity, which keeps the order. Where an operand is not finite, nor is the result.
-/

namespace Letterhead.Binary

open Float.Model (Format UnpackedFloat)
open Float.Model.UnpackedFloat (Sign)

/-! ### Numbers too great for a float -/

/-- How a number of 24 bits is stored. -/
inductive Stores (exact : Rat) : UnpackedFloat → Prop
  | finite {float : UnpackedFloat} (canonical : Canonical float) (same : number float = exact)
      (small : |exact| < 2 ^ 128) : Stores exact float
  | above (great : 2 ^ 128 ≤ exact) : Stores exact (.infinity .positive)
  | below (great : exact ≤ -2 ^ 128) : Stores exact (.infinity .negative)

theorem unpack_pack_infinity (sign : Sign) :
    (Float32.Model.pack (.infinity sign)).unpack = .infinity sign := by
  cases sign <;> rfl

theorem unpack_pack_great (sign : Sign) {mantissa : Nat} {exponent : Int} (positive : 0 < mantissa)
    (few : mantissa < 2 ^ 24) (great : (2 : Rat) ^ 128 ≤ mantissa * 2 ^ exponent) :
    (Float32.Model.pack (.finite sign mantissa exponent positive)).unpack = .infinity sign := by
  have power : (2 : Rat) ^ (128 : Int) < 2 ^ (24 + exponent) := by
    rw [zpow_add₀ two_ne_zero]
    calc (2 : Rat) ^ (128 : Int) = 2 ^ 128 := zpow_natCast 2 128
      _ ≤ mantissa * 2 ^ exponent := great
      _ < 2 ^ (24 : Int) * 2 ^ exponent :=
        mul_lt_mul_of_pos_right (by exact_mod_cast few) (by positivity)
  have high := (zpow_lt_zpow_iff_right₀ one_lt_two).mp power
  have packed : UnpackedFloat.pack Format.binary32 (.finite sign mantissa exponent positive) =
      UnpackedFloat.pack Format.binary32 (.infinity sign) := by
    simp only [UnpackedFloat.pack]
    rw [if_pos]
    simp only [Format.exponentBias]
    omega
  rw [unpack_pack_eq, packed]
  exact unpack_pack_infinity sign

theorem stores_pack {float : UnpackedFloat} (canonical : Canonical float) :
    Stores (number float) (Float32.Model.pack float).unpack := by
  by_cases small : |number float| < 2 ^ 128
  · rw [unpack_pack canonical small]
    exact .finite canonical rfl small
  · rw [not_lt] at small
    cases canonical with
    | zero sign => norm_num at small
    | @finite sign mantissa exponent positive few =>
      rw [abs_number] at small
      rw [unpack_pack_great sign positive few small]
      cases sign
      · rw [number_negative]
        exact .below (neg_le_neg small)
      · rw [number_positive]
        exact .above small

namespace Stores

variable {exact more : Rat} {float other : UnpackedFloat}

theorem order (one : Stores exact float) (two : Stores more other) (le : exact ≤ more) :
    (float.compare other).any (·.isLE) = true ∧ ¬ (other.compare float == some .lt) = true := by
  cases one with
  | finite canonical same small =>
    cases two with
    | finite later equal =>
      rw [compare_number canonical later, compare_number later canonical, same, equal]
      simp [compare_lt_iff_lt, le, Ordering.isLE_iff_ne_gt, compare_gt_iff_gt]
    | above great => cases canonical <;> exact ⟨rfl, Bool.false_ne_true⟩
    | below great => exact absurd (abs_lt.mp small).1 (by linarith)
  | above great =>
    cases two with
    | finite later equal small => exact absurd (abs_lt.mp small).2 (by linarith)
    | above _ => exact ⟨rfl, Bool.false_ne_true⟩
    | below low =>
      have positive : (0 : Rat) < 2 ^ 128 := by positivity
      linarith
  | below great =>
    cases two with
    | finite later => cases later <;> exact ⟨rfl, Bool.false_ne_true⟩
    | above _ => exact ⟨rfl, Bool.false_ne_true⟩
    | below _ => exact ⟨rfl, Bool.false_ne_true⟩

theorem lt (one : Canonical float) (two : Stores more other) (small : |number float| < 2 ^ 128)
    (less : number float < more) : (float.compare other == some .lt) = true := by
  cases two with
  | finite later equal =>
    rw [compare_number one later, equal]
    simp [compare_lt_iff_lt, less]
  | above great => cases one <;> rfl
  | below great => exact absurd (abs_lt.mp small).1 (by linarith)

end Stores

/-! ### Floats -/

variable {x y z w : Float32}

theorem value_lt (finite : x.isFinite = true) : |value x| < 2 ^ 128 := by
  have unpacked : x.toModel.unpack.isFinite = true := finite
  rw [value]
  rcases read : x.toModel.unpack with sign | _ | sign | ⟨sign, mantissa, exponent, positive⟩
  · rw [read] at unpacked
    cases unpacked
  · rw [read] at unpacked
    cases unpacked
  · norm_num
  · obtain ⟨few, -, most, -⟩ := unpack_finite read
    rw [abs_number]
    calc (mantissa : Rat) * 2 ^ exponent < 2 ^ 24 * 2 ^ exponent :=
          mul_lt_mul_of_pos_right (by exact_mod_cast few) (by positivity)
      _ = 2 ^ (24 + exponent : Int) := by rw [zpow_add₀ two_ne_zero]; rfl
      _ ≤ 2 ^ (128 : Int) := power_le (by omega)
      _ = 2 ^ 128 := zpow_natCast 2 128

theorem stores_value (finite : x.isFinite = true) : Stores (value x) x.toModel.unpack :=
  .finite (canonical_unpack finite) rfl (value_lt finite)

/-- What exceeds a rounded sum exceeds the sum. -/
theorem add_lt_of_not_le (one : x.isFinite = true) (two : y.isFinite = true) (three : z.isFinite = true)
    (beyond : ¬ z ≤ x + y) : value x + value y < value z := by
  by_contra low
  have rounds := rounds_add (canonical_unpack one) (canonical_unpack two)
  have below := rounds.le_of_le (canonical_unpack three) (not_lt.mp low)
  exact beyond (le_iff_compare.mpr ((stores_value three).order (stores_pack rounds.1) below).1)

/-- What does not exceed a difference does not exceed it rounded. -/
theorem le_sub_of_le (one : x.isFinite = true) (two : y.isFinite = true) (three : z.isFinite = true)
    (low : value z ≤ value x - value y) : z ≤ x - y := by
  have rounds := rounds_sub (canonical_unpack one) (canonical_unpack two)
  have below := rounds.le_of_le (canonical_unpack three) low
  exact le_iff_compare.mpr ((stores_value three).order (stores_pack rounds.1) below).1

/-- A sum that does not exceed a difference does not when both are rounded. -/
theorem sub_not_lt_add (one : x.isFinite = true) (two : y.isFinite = true) (three : z.isFinite = true)
    (four : w.isFinite = true) (low : value x + value y ≤ value z - value w) : ¬ z - w < x + y := by
  rw [sub_eq_add_neg (value z), value, value, value, value, ← number_neg] at low
  have le := add_mono (canonical_unpack one) (canonical_unpack two) (canonical_unpack three)
    (canonical_unpack four).neg low
  rw [← sub_eq_add] at le
  have sum := rounds_add (canonical_unpack one) (canonical_unpack two)
  have difference := rounds_sub (canonical_unpack three) (canonical_unpack four)
  rw [lt_iff_compare]
  exact ((stores_pack sum.1).order (stores_pack difference.1) le).2

theorem Canonical.multiple {float : UnpackedFloat} (canonical : Canonical float) :
    ∃ count : Int, number float = count * (2 : Rat) ^ (-149 : Int) := by
  cases canonical with
  | zero sign => exact ⟨0, by simp⟩
  | @finite sign mantissa exponent positive few least =>
    refine ⟨sign.apply mantissa * 2 ^ (exponent + 149).toNat, ?_⟩
    rw [number, Int.cast_mul, Int.cast_pow, Int.cast_two, mul_assoc, ← zpow_natCast,
      ← zpow_add₀ two_ne_zero]
    congr 2
    omega

/-- A difference that exceeds a float by more than its last bit does when rounded. -/
theorem lt_sub_of_room (one : x.isFinite = true) (two : y.isFinite = true) (three : z.isFinite = true)
    (room : |value x - value y| / 2 ^ 24 < value x - value y - value z) : z < x - y := by
  have rounds := rounds_sub (canonical_unpack one) (canonical_unpack two)
  have less : value z < number (UnpackedFloat.sub Format.binary32 x.toModel.unpack y.toModel.unpack) := by
    obtain ⟨-, unit, nearest⟩ := rounds
    rcases nearest.below with least | low
    · -- A difference this small is a float itself.
      obtain ⟨first, left⟩ := (canonical_unpack one).multiple
      obtain ⟨second, right⟩ := (canonical_unpack two).multiple
      have whole : number x.toModel.unpack - number y.toModel.unpack =
          (first - second : Int) * (2 : Rat) ^ (-149 : Int) := by
        rw [left, right, Int.cast_sub, sub_mul]
      rw [nearest.eq_of_multiple (le_refl _) whole (least ▸ nearest.above)]
      have some : 0 ≤ |value x - value y| / 2 ^ 24 := by positivity
      exact sub_pos.mp (lt_of_le_of_lt some room)
    · have half : (2 : Rat) ^ unit / 2 ≤ |value x - value y| / 2 ^ 24 := by
        rw [zpow_add₀ two_ne_zero] at low
        norm_num at low
        rw [value, value]
        linarith
      have close := (abs_le.mp nearest.close).1
      rw [value, value] at half room
      linarith
  rw [lt_iff_compare]
  exact Stores.lt (canonical_unpack three) (stores_pack rounds.1) (value_lt three) less

/-- A sum of 24 bits is exact. -/
theorem add_exact (one : x.isFinite = true) (two : y.isFinite = true) {unit : Int} {count : Int}
    (range : -149 ≤ unit ∧ unit ≤ 103) (multiple : value x + value y = count * (2 : Rat) ^ unit)
    (few : |value x + value y| < 2 ^ (unit + 24)) :
    (x + y).isFinite = true ∧ value (x + y) = value x + value y := by
  have small : |value x + value y| ≤ 2 ^ 127 :=
    few.le.trans ((power_le (by omega)).trans (zpow_natCast 2 127).le)
  obtain ⟨finite, power, nearest⟩ := approximates_add one two small
  exact ⟨finite, nearest.eq_of_multiple range.1 multiple few⟩

/-! ### Infinities -/

theorem finite_or (x : Float32) : x.isFinite = true ∨
    (∃ sign, x.toModel.unpack = .infinity sign) ∨ x.toModel.unpack = .notANumber := by
  show x.toModel.unpack.isFinite = true ∨ _
  rcases x.toModel.unpack with sign | _ | _ | _
  · exact .inr (.inl ⟨sign, rfl⟩)
  · exact .inr (.inr rfl)
  · exact .inl rfl
  · exact .inl rfl

theorem unpack_add {float : UnpackedFloat}
    (sum : UnpackedFloat.add Format.binary32 x.toModel.unpack y.toModel.unpack = float) :
    (x + y).toModel.unpack = (Float32.Model.pack float).unpack :=
  congrArg (fun result => (Float32.Model.pack result).unpack) sum

theorem unpack_sub {float : UnpackedFloat}
    (difference : UnpackedFloat.sub Format.binary32 x.toModel.unpack y.toModel.unpack = float) :
    (x - y).toModel.unpack = (Float32.Model.pack float).unpack :=
  congrArg (fun result => (Float32.Model.pack result).unpack) difference

theorem unpack_pack_nan : (Float32.Model.pack .notANumber).unpack = .notANumber := rfl

theorem Canonical.add_infinity {float : UnpackedFloat} (canonical : Canonical float) (sign : Sign) :
    UnpackedFloat.add Format.binary32 float (.infinity sign) = .infinity sign ∧
      UnpackedFloat.add Format.binary32 (.infinity sign) float = .infinity sign := by
  cases canonical <;> exact ⟨rfl, rfl⟩

theorem infinity_add {sign : Sign} (great : x.toModel.unpack = .infinity sign)
    (other : y.isFinite = true ∨ y.toModel.unpack = .infinity sign) :
    (x + y).toModel.unpack = .infinity sign := by
  refine (unpack_add ?_).trans (unpack_pack_infinity sign)
  rw [great]
  rcases other with finite | same
  · exact ((canonical_unpack finite).add_infinity sign).2
  · rw [same]
    cases sign <;> rfl

theorem add_infinity {sign : Sign} (finite : x.isFinite = true)
    (great : y.toModel.unpack = .infinity sign) : (x + y).toModel.unpack = .infinity sign := by
  refine (unpack_add ?_).trans (unpack_pack_infinity sign)
  rw [great]
  exact ((canonical_unpack finite).add_infinity sign).1

theorem sub_infinity {sign : Sign} (finite : x.isFinite = true)
    (great : y.toModel.unpack = .infinity sign) : (x - y).toModel.unpack = .infinity (-sign) := by
  refine (unpack_sub ?_).trans (unpack_pack_infinity (-sign))
  rw [great, sub_eq_add]
  exact ((canonical_unpack finite).add_infinity (-sign)).1

theorem opposite_add {sign : Sign} (one : x.toModel.unpack = .infinity sign)
    (two : y.toModel.unpack = .infinity (-sign)) : (x + y).toModel.unpack = .notANumber := by
  refine (unpack_add ?_).trans unpack_pack_nan
  rw [one, two]
  cases sign <;> rfl

theorem nan_add (none : x.toModel.unpack = .notANumber) (y : Float32) :
    (x + y).toModel.unpack = .notANumber := by
  refine (unpack_add ?_).trans unpack_pack_nan
  rw [none]
  rfl

theorem add_nan (x : Float32) (none : y.toModel.unpack = .notANumber) :
    (x + y).toModel.unpack = .notANumber := by
  refine (unpack_add ?_).trans unpack_pack_nan
  rw [none]
  rcases x.toModel.unpack with _ | _ | _ | _ <;> rfl

theorem sub_nan (x : Float32) (none : y.toModel.unpack = .notANumber) :
    (x - y).toModel.unpack = .notANumber := by
  refine (unpack_sub ?_).trans unpack_pack_nan
  rw [none]
  rcases x.toModel.unpack with _ | _ | _ | _ <;> rfl

theorem isNaN_of_unpack (none : x.toModel.unpack = .notANumber) : x.isNaN = true := by
  show x.toModel.unpack.isNaN = true
  rw [none]
  rfl

theorem isNaN_of_finite (finite : x.isFinite = true) : x.isNaN = false := by
  have canonical := canonical_unpack finite
  show x.toModel.unpack.isNaN = false
  generalize x.toModel.unpack = float at canonical
  cases canonical <;> rfl

/-- Nothing is beyond an infinity, or beyond what is no number. -/
theorem not_lt_of_left (extreme : x.toModel.unpack = .infinity .positive ∨ x.toModel.unpack = .notANumber)
    (y : Float32) : ¬ x < y := by
  rw [lt_iff_compare]
  rcases extreme with great | none
  · rw [great]
    rcases y.toModel.unpack with sign | _ | _ | _
    · cases sign <;> exact Bool.false_ne_true
    all_goals exact Bool.false_ne_true
  · rw [none]
    exact Bool.false_ne_true

theorem not_lt_of_right (x : Float32)
    (extreme : y.toModel.unpack = .infinity .negative ∨ y.toModel.unpack = .notANumber) : ¬ x < y := by
  rw [lt_iff_compare]
  rcases extreme with great | none
  · rw [great]
    rcases x.toModel.unpack with sign | _ | sign | ⟨sign, _, _, _⟩
    · cases sign <;> exact Bool.false_ne_true
    · exact Bool.false_ne_true
    · exact Bool.false_ne_true
    · cases sign <;> exact Bool.false_ne_true
  · rw [none]
    rcases x.toModel.unpack with _ | _ | _ | _ <;> exact Bool.false_ne_true

theorem lt_infinity (finite : x.isFinite = true) (great : y.toModel.unpack = .infinity .positive) :
    x < y := by
  have canonical := canonical_unpack finite
  rw [lt_iff_compare, great]
  generalize x.toModel.unpack = float at canonical
  cases canonical <;> rfl

theorem infinity_lt (low : x.toModel.unpack = .infinity .negative)
    (other : y.isFinite = true ∨ y.toModel.unpack = .infinity .positive) : x < y := by
  rw [lt_iff_compare, low]
  rcases other with finite | great
  · have canonical := canonical_unpack finite
    generalize y.toModel.unpack = float at canonical
    cases canonical <;> rfl
  · rw [great]
    rfl

/-- Only a negative number makes a difference too small. -/
theorem sub_not_low (one : x.isFinite = true) (two : y.isFinite = true) (notNegative : 0 ≤ value x) :
    (x - y).isFinite = true ∨ (x - y).toModel.unpack = .infinity .positive := by
  have rounds := rounds_sub (canonical_unpack one) (canonical_unpack two)
  have low : number y.toModel.unpack.neg ≤
      number (UnpackedFloat.sub Format.binary32 x.toModel.unpack y.toModel.unpack) := by
    apply rounds.le_of_le (canonical_unpack two).neg
    rw [number_neg]
    rw [value] at notNegative
    linarith
  have small := (abs_lt.mp (value_lt two)).2
  rw [number_neg] at low
  rw [value] at small
  have stored := stores_pack rounds.1
  show (Float32.Model.pack (UnpackedFloat.sub _ _ _)).unpack.isFinite = true ∨
    (Float32.Model.pack (UnpackedFloat.sub _ _ _)).unpack = _
  generalize (Float32.Model.pack (UnpackedFloat.sub Format.binary32 x.toModel.unpack
    y.toModel.unpack)).unpack = result at stored
  cases stored with
  | finite canonical => cases canonical <;> exact .inl rfl
  | above _ => exact .inr rfl
  | below great => linarith

theorem le_of_lt_float (less : x < y) : x ≤ y := by
  rw [lt_iff_compare] at less
  rw [le_iff_compare, eq_of_beq less]
  rfl

end Letterhead.Binary
