import Letterhead.Proofs.Float.Order
import Letterhead.Proofs.Surface.Fonts

/-!
How great lengths on a paper can get. Settings and cells up to a certain size leave so much room
below infinity that the cursor never leaves it, however long the text is: rounding keeps the cursor
from moving on once a step is too small for it.
-/

namespace Letterhead

open Binary
open Pdf (Operation Bytes)

/-! ### Numbers in the content of a page -/

namespace Mark

def numbers : Mark → List Float32
  | text _ size x y _ => [size, x, y]
  | rectangle x y width height fill outline => [x, y, width, height] ++ fill.toList ++ outline.toList
  | line fromX fromY toX toY width => [fromX, fromY, toX, toY, width]

def Finite (mark : Mark) : Prop := ∀ number ∈ mark.numbers, number.isFinite = true

/-- Filling sets the gray level back to zero. No other number is made up. -/
theorem mem_numbers {mark : Mark} {operation : Operation} (drawn : operation ∈ mark.operations)
    {number : Float32} (operand : .real number ∈ operation.operands) : number = 0 ∨ number ∈ mark.numbers := by
  cases mark with
  | text font size x y bytes =>
    simp only [operations, List.mem_cons, List.not_mem_nil, or_false] at drawn
    rcases drawn with rfl | rfl | rfl | rfl | rfl <;> simp [Operation.operands] at operand <;>
      simp [numbers] <;> tauto
  | rectangle x y width height fill outline =>
    cases fill <;> cases outline <;> grind [operations, paint, Operation.operands, numbers]
  | line fromX fromY toX toY width =>
    simp only [operations, List.mem_cons, List.not_mem_nil, or_false] at drawn
    rcases drawn with rfl | rfl | rfl | rfl <;> simp [Operation.operands] at operand <;>
      simp [numbers] <;> tauto

end Mark

/-! ### Units -/

/-- Powers of two that bound lengths in millimetres: those that are set, the extent of a text, the
width of a line, how far the cursor gets from the top and the left edge, and where text begins. -/
abbrev lengthBits : Int := 97
abbrev extentBits : Int := 74
abbrev lineBits : Int := 99
abbrev rowBits : Int := 122
abbrev columnBits : Int := 124
abbrev startBits : Int := 125

/-- In points. -/
abbrev fontBits : Int := 12

theorem pointsPerMillimetre_unpack :
    pointsPerMillimetre.toModel.unpack = .finite .positive 11889366 (-22) (by decide) :=
  rfl

variable {x y : Float32} {m bits : Int}

/-- Nothing on the page is so far away that it gets out of reach. -/
theorem toPoints_finite (within : Within m x) (near : m ≤ startBits) : (toPoints x).isFinite = true :=
  have factor : Within 2 pointsPerMillimetre :=
    within_of_unpack pointsPerMillimetre_unpack (by decide : _ ≤ 2 ^ 24) (by decide)
  have points : Within 127 (toPoints x) := (within.mono near).mul factor (by decide)
  points.finite

theorem flip_finite {height : Float32} (row : Within rowBits y) (page : Within lengthBits height) :
    (flip y height).isFinite = true :=
  have up : Within rowBits (height - y) := page.sub_absorbed row (by decide)
  toPoints_finite up (by decide)

theorem inMillimetres_within (within : Within m x)
    (room : m - 1 ≤ bits ∧ -125 ≤ bits ∧ bits ≤ 127) : Within bits (x / pointsPerMillimetre) :=
  have great : (2 : Rat) ^ (1 : Int) ≤ |value pointsPerMillimetre| :=
    great_of_unpack pointsPerMillimetre_unpack (by decide : 2 ^ 23 ≤ _) (by decide)
  within.div rfl great room

theorem half_within (within : Within m x) (room : m - 1 ≤ bits ∧ -125 ≤ bits ∧ bits ≤ 127) :
    Within bits (x / 2) :=
  have read : (2 : Float32).toModel.unpack = .finite .positive (2 ^ 23) (-22) (by decide) := rfl
  have great : (2 : Rat) ^ (1 : Int) ≤ |value 2| := great_of_unpack read (le_refl _) (by decide)
  within.div rfl great room

/-- The factors by which lengths are multiplied. -/
theorem share_within {share : Float32} (member : share ∈ [(0.5 : Float32), 0.3, 0.1, 0.05]) :
    Within (-1) share := by
  have half : (0.5 : Float32).toModel.unpack = .finite .positive (2 ^ 23) (-24) (by decide) := rfl
  have third : (0.3 : Float32).toModel.unpack = .finite .positive 10066330 (-25) (by decide) := rfl
  have tenth : (0.1 : Float32).toModel.unpack = .finite .positive 13421773 (-27) (by decide) := rfl
  have least : (0.05 : Float32).toModel.unpack = .finite .positive 13421773 (-28) (by decide) := rfl
  simp only [List.mem_cons, List.not_mem_nil, or_false] at member
  rcases member with rfl | rfl | rfl | rfl
  · exact within_of_unpack half (le_refl _) (by decide)
  · exact within_of_unpack third (by decide : _ ≤ 2 ^ 24) (by decide)
  · exact within_of_unpack tenth (by decide : _ ≤ 2 ^ 24) (by decide)
  · exact within_of_unpack least (by decide : _ ≤ 2 ^ 24) (by decide)

theorem textExtent_within {text : List Char} {fontSize : Float32} (short : text.length ≤ 2 ^ 64)
    (size : Within fontBits fontSize) : Within extentBits (textExtent text fontSize) := by
  have count : Within 64 (Float32.ofNat text.length) := within_ofNat short (by decide)
  have sized : Within 76 (Float32.ofNat text.length * fontSize) := count.mul size (by decide)
  have halved : Within 75 (Float32.ofNat text.length * fontSize * 0.5) :=
    sized.mul (share_within (by simp)) (by decide)
  exact inMillimetres_within halved (by decide)

/-- Further down by part of a length. -/
theorem lowered_within {share : Float32} (member : share ∈ [(0.5 : Float32), 0.3, 0.1, 0.05])
    (row : Within rowBits y) (within : Within lengthBits x) : Within rowBits (y + share * x) :=
  have part : Within lengthBits (share * x) := (share_within member).mul within (by decide)
  row.add_absorbs part (by decide)

theorem cellInset_within : Within 0 Paper.cellInset :=
  have read : Paper.cellInset.toModel.unpack = .finite .positive (2 ^ 23) (-23) (by decide) := rfl
  within_of_unpack read (le_refl _) (by decide)

theorem ruleWidth_within : Within 0 Paper.ruleWidth :=
  have read : Paper.ruleWidth.toModel.unpack = .finite .positive 13421773 (-26) (by decide) := rfl
  within_of_unpack read (by decide : _ ≤ 2 ^ 24) (by decide)

/-! ### The greatest settings -/

theorem greatest_within : Within fontBits (4096 : Float32) :=
  have read : (4096 : Float32).toModel.unpack = .finite .positive (2 ^ 23) (-11) (by decide) := rfl
  within_of_unpack read (le_refl _) (by decide)

theorem longest_within : Within lengthBits (1e29 : Float32) := by
  have bits : (1e29 : Float32) = .ofBits 0x6FA18F08 := by decide +kernel
  have read : (Float32.ofBits 0x6FA18F08).toModel.unpack =
      .finite .positive 10587912 73 (by decide) := rfl
  rw [bits]
  exact within_of_unpack read (by decide : _ ≤ 2 ^ 24) (by decide)

theorem lowest_within : Within lengthBits (-1e29 : Float32) := by
  have bits : (-1e29 : Float32) = .ofBits 0xEFA18F08 := by decide +kernel
  have read : (Float32.ofBits 0xEFA18F08).toModel.unpack =
      .finite .negative 10587912 73 (by decide) := rfl
  rw [bits]
  exact within_of_unpack read (by decide : _ ≤ 2 ^ 24) (by decide)

end Letterhead
