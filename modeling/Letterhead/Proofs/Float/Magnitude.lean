import Letterhead.Proofs.Float.Arithmetic

/-!
How great the result of an operation on floats can be. A float within a power of two stays within
it when something is added that is too small to lead to the next float.
-/

namespace Letterhead.Binary

open Float.Model (Format UnpackedFloat)

/-! ### What is nearest -/

namespace Nearest

variable {unit bits : Int} {exact rounded : Rat}

theorem half_unit (unit : Int) : (2 : Rat) ^ unit / 2 = 2 ^ (unit - 1) := by
  rw [zpow_sub_one₀ two_ne_zero, div_eq_mul_inv]

theorem unit_le (nearest : Nearest unit exact rounded) (large : -125 ≤ bits)
    (bound : |exact| < 2 ^ (bits + 1)) : unit + 23 ≤ bits := by
  rcases nearest.below with least | below
  · omega
  · have power := (zpow_lt_zpow_iff_right₀ one_lt_two).mp (lt_of_le_of_lt below bound)
    omega

theorem saturates (nearest : Nearest unit exact rounded) (large : -125 ≤ bits)
    (bound : |exact| ≤ 2 ^ bits + 2 ^ (bits - 25)) : |rounded| ≤ 2 ^ bits := by
  by_contra greater
  rw [not_le] at greater
  have scale : (0 : Rat) < 2 ^ unit := by positivity
  have tiny : (2 : Rat) ^ (bits - 25) < 2 ^ bits :=
    (zpow_lt_zpow_iff_right₀ one_lt_two).mpr (by omega)
  have fine : unit + 23 ≤ bits := by
    apply nearest.unit_le large
    rw [zpow_add_one₀ two_ne_zero]
    linarith
  -- The power of two is a multiple of the unit, so the next multiple is a whole unit away.
  have next : (2 : Rat) ^ bits + 2 ^ unit ≤ |rounded| := by
    obtain ⟨count, multiple⟩ := nearest.multiple
    obtain ⟨steps, power⟩ : ∃ steps : Nat, bits = unit + steps := ⟨(bits - unit).toNat, by omega⟩
    have split : (2 : Rat) ^ bits = (2 ^ steps : Nat) * 2 ^ unit := by
      rw [power, zpow_add₀ two_ne_zero, zpow_natCast, mul_comm]
      push_cast
      rfl
    have size : |rounded| = (count.natAbs : Rat) * 2 ^ unit := by
      rw [multiple, abs_mul, abs_of_pos scale, ← Int.cast_abs, Int.abs_eq_natAbs, Int.cast_natCast]
    rw [split, size] at greater
    have more : 2 ^ steps < count.natAbs := by
      exact_mod_cast lt_of_mul_lt_mul_right greater scale.le
    rw [split, size, ← add_one_mul]
    exact mul_le_mul_of_nonneg_right (by exact_mod_cast more) scale.le
  have away : |rounded| ≤ |exact| + 2 ^ unit / 2 := by
    have triangle := abs_add_le (rounded - exact) exact
    rw [sub_add_cancel] at triangle
    linarith [nearest.close]
  have coarse : (2 : Rat) ^ (bits - 25) < 2 ^ unit / 2 := by
    have above : (2 : Rat) ^ bits < 2 ^ (unit + 24) := by linarith [nearest.above]
    have power := (zpow_lt_zpow_iff_right₀ one_lt_two).mp above
    rw [half_unit]
    exact (zpow_lt_zpow_iff_right₀ one_lt_two).mpr (by omega)
  linarith

theorem error (nearest : Nearest unit exact rounded) (large : -125 ≤ bits)
    (bound : |exact| ≤ 2 ^ bits) : |rounded - exact| ≤ 2 ^ (bits - 24) := by
  have fine : unit + 23 ≤ bits := by
    apply nearest.unit_le large
    rw [zpow_add_one₀ two_ne_zero]
    linarith [(by positivity : (0 : Rat) < 2 ^ bits)]
  calc |rounded - exact| ≤ 2 ^ unit / 2 := nearest.close
    _ = 2 ^ (unit - 1) := half_unit unit
    _ ≤ 2 ^ (bits - 24) := (zpow_le_zpow_iff_right₀ one_lt_two).mpr (by omega)

end Nearest

/-! ### Operations -/

/-- A finite float nearest to the number. -/
structure Approximates (exact : Rat) (x : Float32) : Prop where
  finite : x.isFinite = true
  nearest : ∃ unit, Nearest unit exact (value x)

theorem approximates_pack {exact : Rat} {float : UnpackedFloat} (rounds : Rounds exact float)
    (small : |exact| ≤ 2 ^ 127) : Approximates exact (.ofModel (.pack float)) := by
  obtain ⟨canonical, unit, nearest⟩ := rounds
  have less : |number float| < 2 ^ 128 := by
    apply lt_of_le_of_lt (@Nearest.saturates unit 127 exact _ nearest (by decide) ?_)
    · exact (zpow_lt_zpow_iff_right₀ one_lt_two).mpr (by decide : (127 : Int) < (128 : Nat))
    · have tiny : (0 : Rat) < 2 ^ (127 - 25 : Int) := by positivity
      have same : (2 : Rat) ^ (127 : Int) = 2 ^ 127 := zpow_natCast 2 127
      linarith
  have kept := unpack_pack canonical less
  constructor
  · show (Float32.Model.pack float).unpack.isFinite = true
    rw [kept]
    cases canonical <;> rfl
  · rw [value, kept]
    exact ⟨unit, nearest⟩

variable {x y : Float32}

theorem approximates_add (one : x.isFinite = true) (two : y.isFinite = true)
    (small : |value x + value y| ≤ 2 ^ 127) : Approximates (value x + value y) (x + y) :=
  approximates_pack (rounds_add (canonical_unpack one) (canonical_unpack two)) small

theorem approximates_sub (one : x.isFinite = true) (two : y.isFinite = true)
    (small : |value x - value y| ≤ 2 ^ 127) : Approximates (value x - value y) (x - y) :=
  approximates_pack (rounds_sub (canonical_unpack one) (canonical_unpack two)) small

theorem approximates_mul (one : x.isFinite = true) (two : y.isFinite = true)
    (small : |value x * value y| ≤ 2 ^ 127) : Approximates (value x * value y) (x * y) :=
  approximates_pack (rounds_mul (canonical_unpack one) (canonical_unpack two)) small

theorem approximates_div (one : x.isFinite = true) (two : y.isFinite = true) (nonzero : value y ≠ 0)
    (small : |value x / value y| ≤ 2 ^ 127) : Approximates (value x / value y) (x / y) :=
  approximates_pack (rounds_div (canonical_unpack one) (canonical_unpack two) nonzero) small

/-! ### Bounds -/

/-- Finite, and no greater than a power of two. -/
structure Within (bits : Int) (x : Float32) : Prop where
  finite : x.isFinite = true
  bound : |value x| ≤ 2 ^ bits

theorem power_le {m n : Int} (le : m ≤ n) : (2 : Rat) ^ m ≤ 2 ^ n :=
  (zpow_le_zpow_iff_right₀ one_lt_two).mpr le

theorem Approximates.within {exact : Rat} {bits : Int} (approximates : Approximates exact x)
    (large : -125 ≤ bits) (bound : |exact| ≤ 2 ^ bits + 2 ^ (bits - 25)) : Within bits x := by
  obtain ⟨finite, unit, nearest⟩ := approximates
  exact ⟨finite, nearest.saturates large bound⟩

/-- Read off the parts. -/
theorem within_of_unpack {sign : Float.Model.UnpackedFloat.Sign} {mantissa width : Nat}
    {exponent bits : Int} {positive : 0 < mantissa}
    (read : x.toModel.unpack = .finite sign mantissa exponent positive) (narrow : mantissa ≤ 2 ^ width)
    (fits : width + exponent ≤ bits) : Within bits x := by
  constructor
  · show x.toModel.unpack.isFinite = true
    rw [read]
    rfl
  · have scale : (0 : Rat) < 2 ^ exponent := by positivity
    rw [value, read, abs_number]
    calc (mantissa : Rat) * 2 ^ exponent ≤ 2 ^ width * 2 ^ exponent :=
          mul_le_mul_of_nonneg_right (by exact_mod_cast narrow) scale.le
      _ = 2 ^ (width + exponent) := by rw [zpow_add₀ two_ne_zero, zpow_natCast]
      _ ≤ 2 ^ bits := power_le fits

theorem great_of_unpack {sign : Float.Model.UnpackedFloat.Sign} {mantissa width : Nat}
    {exponent bits : Int} {positive : 0 < mantissa}
    (read : x.toModel.unpack = .finite sign mantissa exponent positive) (wide : 2 ^ width ≤ mantissa)
    (fits : bits ≤ width + exponent) : 2 ^ bits ≤ |value x| := by
  have scale : (0 : Rat) < 2 ^ exponent := by positivity
  rw [value, read, abs_number]
  calc (2 : Rat) ^ bits ≤ 2 ^ (width + exponent) := power_le fits
    _ = 2 ^ width * 2 ^ exponent := by rw [zpow_add₀ two_ne_zero, zpow_natCast]
    _ ≤ mantissa * 2 ^ exponent := mul_le_mul_of_nonneg_right (by exact_mod_cast wide) scale.le

namespace Within

variable {m n bits : Int}

theorem mono (within : Within m x) (fits : m ≤ bits) : Within bits x :=
  ⟨within.finite, within.bound.trans (power_le fits)⟩

-- A bound on the exact result that is still far enough from infinity.
theorem of_bound {exact : Rat} {result : Float32}
    (approximates : |exact| ≤ 2 ^ 127 → Approximates exact result)
    (range : -125 ≤ bits ∧ bits ≤ 127) (bound : |exact| ≤ 2 ^ bits) : Within bits result := by
  have small : |exact| ≤ 2 ^ 127 := bound.trans ((power_le range.2).trans (zpow_natCast 2 127).le)
  have tiny : (0 : Rat) < 2 ^ (bits - 25) := by positivity
  exact (approximates small).within range.1 (by linarith)

theorem of_saturated {exact : Rat} {result : Float32}
    (approximates : |exact| ≤ 2 ^ 127 → Approximates exact result)
    (range : -125 ≤ bits ∧ bits ≤ 126) (bound : |exact| ≤ 2 ^ bits + 2 ^ (bits - 25)) :
    Within bits result := by
  have small : |exact| ≤ 2 ^ 127 := by
    have tiny : (2 : Rat) ^ (bits - 25) ≤ 2 ^ bits := power_le (by omega)
    calc |exact| ≤ 2 ^ bits + 2 ^ bits := by linarith
      _ = 2 ^ (bits + 1) := by rw [zpow_add_one₀ two_ne_zero, mul_two]
      _ ≤ 2 ^ (127 : Int) := power_le (by omega)
      _ = 2 ^ 127 := zpow_natCast 2 127
  exact (approximates small).within range.1 bound

theorem add (one : Within m x) (two : Within m y)
    (room : m + 1 ≤ bits ∧ -125 ≤ bits ∧ bits ≤ 127) : Within bits (x + y) := by
  apply of_bound (approximates_add one.finite two.finite) room.2
  calc |value x + value y| ≤ |value x| + |value y| := abs_add_le _ _
    _ ≤ 2 ^ m + 2 ^ m := add_le_add one.bound two.bound
    _ = 2 ^ (m + 1) := by rw [zpow_add_one₀ two_ne_zero, mul_two]
    _ ≤ 2 ^ bits := power_le room.1

theorem sub (one : Within m x) (two : Within m y)
    (room : m + 1 ≤ bits ∧ -125 ≤ bits ∧ bits ≤ 127) : Within bits (x - y) := by
  apply of_bound (approximates_sub one.finite two.finite) room.2
  calc |value x - value y| ≤ |value x| + |value y| := abs_sub _ _
    _ ≤ 2 ^ m + 2 ^ m := add_le_add one.bound two.bound
    _ = 2 ^ (m + 1) := by rw [zpow_add_one₀ two_ne_zero, mul_two]
    _ ≤ 2 ^ bits := power_le room.1

/-- The second one is too small to carry the sum over the bound. -/
theorem add_absorbs (one : Within bits x) (two : Within n y)
    (room : n + 25 ≤ bits ∧ -125 ≤ bits ∧ bits ≤ 126) : Within bits (x + y) := by
  apply of_saturated (approximates_add one.finite two.finite) room.2
  calc |value x + value y| ≤ |value x| + |value y| := abs_add_le _ _
    _ ≤ 2 ^ bits + 2 ^ (bits - 25) := add_le_add one.bound (two.bound.trans (power_le (by omega)))

theorem sub_absorbs (one : Within bits x) (two : Within n y)
    (room : n + 25 ≤ bits ∧ -125 ≤ bits ∧ bits ≤ 126) : Within bits (x - y) := by
  apply of_saturated (approximates_sub one.finite two.finite) room.2
  calc |value x - value y| ≤ |value x| + |value y| := abs_sub _ _
    _ ≤ 2 ^ bits + 2 ^ (bits - 25) := add_le_add one.bound (two.bound.trans (power_le (by omega)))

theorem sub_absorbed (one : Within n x) (two : Within bits y)
    (room : n + 25 ≤ bits ∧ -125 ≤ bits ∧ bits ≤ 126) : Within bits (x - y) := by
  apply of_saturated (approximates_sub one.finite two.finite) room.2
  calc |value x - value y| ≤ |value x| + |value y| := abs_sub _ _
    _ = |value y| + |value x| := add_comm _ _
    _ ≤ 2 ^ bits + 2 ^ (bits - 25) := add_le_add two.bound (one.bound.trans (power_le (by omega)))

theorem mul (one : Within m x) (two : Within n y)
    (room : m + n ≤ bits ∧ -125 ≤ bits ∧ bits ≤ 127) : Within bits (x * y) := by
  apply of_bound (approximates_mul one.finite two.finite) room.2
  calc |value x * value y| = |value x| * |value y| := abs_mul _ _
    _ ≤ 2 ^ m * 2 ^ n := mul_le_mul one.bound two.bound (abs_nonneg _) (by positivity)
    _ = 2 ^ (m + n) := (zpow_add₀ two_ne_zero m n).symm
    _ ≤ 2 ^ bits := power_le room.1

theorem div (one : Within m x) (finite : y.isFinite = true) (great : 2 ^ n ≤ |value y|)
    (room : m - n ≤ bits ∧ -125 ≤ bits ∧ bits ≤ 127) : Within bits (x / y) := by
  have positive : (0 : Rat) < 2 ^ n := by positivity
  have nonzero : value y ≠ 0 := abs_pos.mp (lt_of_lt_of_le positive great)
  apply of_bound (approximates_div one.finite finite nonzero) room.2
  calc |value x / value y| = |value x| / |value y| := abs_div _ _
    _ ≤ 2 ^ m / 2 ^ n := div_le_div₀ (by positivity) one.bound positive great
    _ = 2 ^ (m - n) := (zpow_sub₀ two_ne_zero m n).symm
    _ ≤ 2 ^ bits := power_le room.1

/-- Going on by what is left up to a limit leads about to the limit. -/
theorem add_rest (limit : Within m y) (within : Within bits x)
    (room : m + 25 ≤ bits ∧ -124 ≤ bits ∧ bits ≤ 125) : Within bits (x + (y - x)) := by
  have far : |value y - value x| ≤ 2 ^ (bits + 1) := by
    calc |value y - value x| ≤ |value y| + |value x| := abs_sub _ _
      _ ≤ 2 ^ bits + 2 ^ bits := add_le_add (limit.bound.trans (power_le (by omega))) within.bound
      _ = 2 ^ (bits + 1) := by rw [zpow_add_one₀ two_ne_zero, mul_two]
  obtain ⟨finite, unit, nearest⟩ := approximates_sub limit.finite within.finite
    (far.trans ((power_le (by omega)).trans (zpow_natCast 2 127).le))
  have error := nearest.error (by omega) far
  apply of_saturated (approximates_add within.finite finite) (by omega)
  calc |value x + value (y - x)| = |value y + (value (y - x) - (value y - value x))| := by
        congr 1
        ring
    _ ≤ |value y| + |value (y - x) - (value y - value x)| := abs_add_le _ _
    _ ≤ 2 ^ (bits - 25) + 2 ^ bits :=
      add_le_add (limit.bound.trans (power_le (by omega))) (error.trans (power_le (by omega)))
    _ = 2 ^ bits + 2 ^ (bits - 25) := add_comm _ _

end Within

/-- Whole numbers, on both ways to convert them. -/
theorem within_ofNat {count : Nat} {bits : Nat} (fits : count ≤ 2 ^ bits) (range : bits ≤ 127) :
    Within bits (Float32.ofNat count) := by
  have bound : |(count : Rat)| ≤ 2 ^ (bits : Int) := by
    rw [Nat.abs_cast, zpow_natCast]
    exact_mod_cast fits
  have limits : -125 ≤ (bits : Int) ∧ (bits : Int) ≤ 127 := by omega
  change Within bits (Float32.ofScientific count false 0)
  rw [Float32.ofScientific]
  split
  · rename_i few
    have kept : count.toUInt64.toNat = count := by
      rw [Nat.toUInt64, UInt64.toNat_ofNat']
      omega
    have whole : Within bits count.toUInt64.toFloat32 := by
      have rounds : Rounds count (UnpackedFloat.ofUInt64 Format.binary32 count.toUInt64) := by
        rw [UnpackedFloat.ofUInt64, kept]
        exact rounds_ofNat count
      exact .of_bound (approximates_pack rounds) limits bound
    have read : (Float32.ofBits 0x3F800000).toModel.unpack =
        .finite .positive (2 ^ 23) (-23) (by decide) := rfl
    have one : Within 0 (Float32.ofBits 0x3F800000) := within_of_unpack read (le_refl _) (by decide)
    exact whole.mul one (by omega)
  · exact .of_bound (approximates_pack (rounds_ofScientific count)) limits bound

theorem zero_within : Within 0 (0 : Float32) := within_ofNat (Nat.zero_le (2 ^ 0)) (by decide)

end Letterhead.Binary
