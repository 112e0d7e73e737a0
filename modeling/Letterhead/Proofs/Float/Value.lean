import Mathlib

/-!
The rational numbers that 32-bit floats stand for. A finite float is zero or a mantissa of at most
24 bits times a power of two, in exactly one way: all 24 bits are in use unless the exponent is the
least one. Packing such a number into bits loses nothing as long as it is not too great.
-/

namespace Letterhead.Binary

open Float.Model (Format UnpackedFloat)
open Float.Model.UnpackedFloat (Sign)

/-- What is not finite stands for zero. -/
def number : UnpackedFloat → Rat
  | .finite sign mantissa exponent _ => sign.apply mantissa * (2 : Rat) ^ exponent
  | _ => 0

@[simp] theorem number_zero (sign : Sign) : number (.zero sign) = 0 :=
  rfl

def value (x : Float32) : Rat := number x.toModel.unpack

inductive Canonical : UnpackedFloat → Prop
  | zero (sign : Sign) : Canonical (.zero sign)
  | finite {sign : Sign} {mantissa : Nat} {exponent : Int} {positive : 0 < mantissa}
      (few : mantissa < 2 ^ 24) (least : -149 ≤ exponent)
      (normal : exponent = -149 ∨ 2 ^ 23 ≤ mantissa) :
      Canonical (.finite sign mantissa exponent positive)

theorem abs_number (sign : Sign) (mantissa : Nat) (exponent : Int) (positive : 0 < mantissa) :
    |number (.finite sign mantissa exponent positive)| = mantissa * (2 : Rat) ^ exponent := by
  have scale : (0 : Rat) < 2 ^ exponent := by positivity
  rw [number, abs_mul, abs_of_pos scale]
  cases sign <;> simp [Sign.apply]

/-! ### Packing -/

theorem unpack_pack_eq (float : UnpackedFloat) :
    (Float32.Model.pack float).unpack =
      UnpackedFloat.unpack Format.binary32 (UnpackedFloat.pack Format.binary32 float) :=
  rfl

theorem unpack_pack_normal (sign : Sign) (mantissa : Nat) (exponent : Int) (positive : 0 < mantissa)
    (low : 2 ^ 23 ≤ mantissa) (few : mantissa < 2 ^ 24) (least : -149 ≤ exponent)
    (most : exponent ≤ 104) :
    (Float32.Model.pack (.finite sign mantissa exponent positive)).unpack =
      .finite sign mantissa exponent positive := by
  have bits : mantissa.log2 = 23 := (Nat.log2_eq_iff positive.ne').mpr ⟨low, few⟩
  -- The stored fields: the exponent is biased, and the first bit of the mantissa is left out.
  obtain ⟨field, rfl⟩ : ∃ field : Nat, exponent = (field : Int) - 150 :=
    ⟨(exponent + 150).toNat, by omega⟩
  obtain ⟨fraction, rfl⟩ : ∃ fraction, mantissa = 2 ^ 23 + fraction := ⟨mantissa - 2 ^ 23, by omega⟩
  have biased : ((field : Int) - 150 + (Format.binary32.exponentBias : Int) +
      (Format.binary32.mantissaBitsWithoutImplicit : Int)).toNat = field := by
    simp only [Format.exponentBias]
    omega
  have packed : UnpackedFloat.pack Format.binary32
      (.finite sign (2 ^ 23 + fraction) ((field : Int) - 150) positive) =
        UnpackedFloat.packComponents Format.binary32 sign (BitVec.ofNat 8 field)
          (BitVec.ofNat 23 fraction) := by
    simp only [UnpackedFloat.pack, biased, bits]
    rw [if_neg (by simp; omega), if_pos (by rfl)]
    congr 1
    apply BitVec.eq_of_toNat_eq
    simp
  have stored : (BitVec.ofNat 8 field).toNat = field := by simp; omega
  have kept : (BitVec.ofNat 23 fraction).toNat = fraction := by simp; omega
  rw [unpack_pack_eq, packed]
  simp only [UnpackedFloat.unpack, UnpackedFloat.unpackExponent_packComponents,
    UnpackedFloat.unpackMantissa_packComponents, UnpackedFloat.unpackSign_packComponents,
    Sign.ofBitVec_toBitVec]
  rw [if_neg, if_neg]
  · simp only [UnpackedFloat.finite.injEq, true_and]
    constructor
    · simp only [BitVec.toNat_append]
      rw [← Nat.shiftLeft_add_eq_or_of_lt (BitVec.isLt _), kept]
      rfl
    · rw [stored]
      rfl
  · intro same
    have zero : field = 0 := by simpa [stored] using congrArg BitVec.toNat same
    omega
  · intro same
    have full : field = 255 := by simpa [stored] using congrArg BitVec.toNat same
    omega

theorem unpack_pack_subnormal (sign : Sign) (mantissa : Nat) (positive : 0 < mantissa)
    (few : mantissa < 2 ^ 23) :
    (Float32.Model.pack (.finite sign mantissa (-149) positive)).unpack =
      .finite sign mantissa (-149) positive := by
  have bits : mantissa.log2 < 23 := (Nat.log2_lt positive.ne').mpr few
  have packed : UnpackedFloat.pack Format.binary32 (.finite sign mantissa (-149) positive) =
      UnpackedFloat.packComponents Format.binary32 sign 0#8 (BitVec.ofNat 23 mantissa) := by
    simp only [UnpackedFloat.pack]
    rw [if_neg (by simp [Format.exponentBias]), if_neg]
    simp only [Format.mantissaBits]
    omega
  have kept : (BitVec.ofNat 23 mantissa).toNat = mantissa := by simp; omega
  have some : BitVec.ofNat 23 mantissa ≠ 0#23 := by
    intro same
    have zero : mantissa = 0 := by simpa [kept] using congrArg BitVec.toNat same
    omega
  rw [unpack_pack_eq, packed]
  simp only [UnpackedFloat.unpack, UnpackedFloat.unpackExponent_packComponents,
    UnpackedFloat.unpackMantissa_packComponents, UnpackedFloat.unpackSign_packComponents,
    Sign.ofBitVec_toBitVec]
  rw [if_neg (by simp), if_true, dif_neg some]
  simp only [UnpackedFloat.finite.injEq, true_and, kept]
  rfl

theorem unpack_pack {float : UnpackedFloat} (canonical : Canonical float)
    (small : |number float| < 2 ^ 128) : (Float32.Model.pack float).unpack = float := by
  cases canonical with
  | zero sign => cases sign <;> rfl
  | @finite sign mantissa exponent positive few least normal =>
    by_cases low : 2 ^ 23 ≤ mantissa
    · apply unpack_pack_normal sign mantissa exponent positive low few least
      rw [abs_number] at small
      have scale : (0 : Rat) < 2 ^ exponent := by positivity
      have bits : ((2 : Rat) ^ 23) ≤ mantissa := by exact_mod_cast low
      have power : (2 : Rat) ^ (23 + exponent) < 2 ^ (128 : Int) := by
        rw [zpow_add₀ two_ne_zero]
        exact lt_of_le_of_lt (mul_le_mul_of_nonneg_right bits scale.le) small
      have less := (zpow_lt_zpow_iff_right₀ one_lt_two).mp power
      omega
    · obtain rfl : exponent = -149 := normal.resolve_right low
      exact unpack_pack_subnormal sign mantissa positive (Nat.lt_of_not_le low)

/-- What can be read from 32 bits. -/
theorem unpack_finite {bits : BitVec 32} {sign : Sign} {mantissa : Nat} {exponent : Int}
    {positive : 0 < mantissa}
    (read : UnpackedFloat.unpack Format.binary32 bits = .finite sign mantissa exponent positive) :
    mantissa < 2 ^ 24 ∧ -149 ≤ exponent ∧ exponent ≤ 104 ∧
      (exponent = -149 ∨ 2 ^ 23 ≤ mantissa) := by
  have few : (@UnpackedFloat.unpackMantissa Format.binary32 bits).toNat < 2 ^ 23 := BitVec.isLt _
  have range : (@UnpackedFloat.unpackExponent Format.binary32 bits).toNat < 2 ^ 8 := BitVec.isLt _
  have unbiased (field : Nat) : (field : Int) - ((Format.binary32.exponentBias : Int) +
      (Format.binary32.mantissaBitsWithoutImplicit : Int)) = field - 150 := rfl
  rw [UnpackedFloat.unpack] at read
  simp only [unbiased] at read
  split at read
  · split at read <;> cases read
  · rename_i notFull
    have most : (@UnpackedFloat.unpackExponent Format.binary32 bits).toNat ≠ 255 :=
      fun full => notFull (BitVec.eq_of_toNat_eq full)
    split at read
    · rename_i subnormal
      split at read
      · cases read
      · cases read
        have zero : (@UnpackedFloat.unpackExponent Format.binary32 bits).toNat = 0 := by
          rw [subnormal]
          rfl
        omega
    · rename_i normal
      cases read
      have least : (@UnpackedFloat.unpackExponent Format.binary32 bits).toNat ≠ 0 :=
        fun zero => normal (BitVec.eq_of_toNat_eq zero)
      have whole : (1#1 ++ @UnpackedFloat.unpackMantissa Format.binary32 bits).toNat =
          2 ^ 23 + (@UnpackedFloat.unpackMantissa Format.binary32 bits).toNat := by
        rw [BitVec.toNat_append, ← Nat.shiftLeft_add_eq_or_of_lt few]
        rfl
      omega

theorem canonical_unpack {x : Float32} (finite : x.isFinite = true) : Canonical x.toModel.unpack := by
  have unpacked : x.toModel.unpack.isFinite = true := finite
  rcases read : x.toModel.unpack with sign | _ | sign | ⟨sign, mantissa, exponent, positive⟩
  · rw [read] at unpacked
    cases unpacked
  · rw [read] at unpacked
    cases unpacked
  · exact .zero sign
  · obtain ⟨few, least, -, normal⟩ := unpack_finite read
    exact .finite few least normal

end Letterhead.Binary
