import Letterhead.Proofs.Float.Storage
import Letterhead.Proofs.Rendering.Conservation
import Letterhead.Proofs.Surface.Fragments

/-!
Room for a line on each page. Settings are checked with sums that are rounded, and the surface
compares other sums of the same lengths, which are rounded otherwise. So settings that are accepted
may leave room for no line at all. They leave it if the lengths themselves do.
-/

namespace Letterhead

open Binary

namespace Config

/-- The margins leave room, and not only as their sums are rounded. -/
structure HasRoom (config : Config) : Prop where
  /-- The side margins are numbers, and not opposite infinities. -/
  sides : (config.margins.left + config.margins.right).isNaN = false
  width : config.margins.left.isFinite = true → config.margins.right.isFinite = true →
    |value config.page.width - value config.margins.right| / 2 ^ 24 <
      value config.page.width - value config.margins.right - value config.margins.left
  height : config.margins.top.isFinite = true → config.margins.bottom.isFinite = true →
    value config.margins.top + value config.margins.bottom + value config.lineHeight ≤
      value config.page.height

def lengths (config : Config) : List Float32 :=
  [config.page.width, config.page.height, config.margins.top, config.margins.left,
    config.margins.right, config.margins.bottom, config.lineHeight]

/-- All lengths are counted in a unit, and their sums have no more than 24 bits. -/
structure InUnit (config : Config) (unit : Int) : Prop where
  range : -149 ≤ unit ∧ unit ≤ 103
  whole : ∀ length ∈ config.lengths,
    length.isFinite = true ∧ ∃ count : Int, value length = count * (2 : Rat) ^ unit
  across : |value config.page.width| + |value config.margins.left| + |value config.margins.right| <
    2 ^ (unit + 24)
  along : |value config.margins.top| + |value config.margins.bottom| + |value config.lineHeight| <
    2 ^ (unit + 24)

variable {config : Config}

/-! ### From side to side -/

-- Infinite margins that are accepted leave room on an infinite page, or have no sum.
theorem side_margins (valid : config.fault? = none)
    (sides : (config.margins.left + config.margins.right).isNaN = false) :
    (config.margins.left.isFinite = true ∧ config.margins.right.isFinite = true) ∨
      config.margins.left < config.page.width - config.margins.right := by
  obtain ⟨fits, -⟩ := fits_of_fault? valid
  obtain ⟨width, wide, -⟩ := finite_of_fault? valid
  have number : (config.margins.left + config.margins.right).toModel.unpack ≠ .notANumber := by
    intro none
    rw [isNaN_of_unpack none] at sides
    cases sides
  have small : (config.margins.left + config.margins.right).toModel.unpack ≠ .infinity .positive :=
    fun great => fits (le_of_lt_float (lt_infinity width great))
  have some : 0 ≤ value config.page.width := ((lt_iff zero_within.finite width).mp wide).le
  rcases finite_or config.margins.right with right | ⟨sign, right⟩ | right
  · rcases finite_or config.margins.left with left | ⟨sign, left⟩ | left
    · exact .inl ⟨left, right⟩
    · cases sign
      · exact .inr (infinity_lt left (sub_not_low width right some))
      · exact absurd (infinity_add left (.inl right)) small
    · exact absurd (nan_add left _) number
  · have edge := sub_infinity width right
    rcases finite_or config.margins.left with left | ⟨other, left⟩ | left
    · cases sign
      · exact .inr (lt_infinity left edge)
      · exact absurd (add_infinity left right) small
    · cases sign <;> cases other
      · exact .inr (infinity_lt left (.inr edge))
      · exact absurd (opposite_add left right) number
      · exact absurd (opposite_add left right) number
      · exact absurd (infinity_add left (.inr right)) small
    · exact absurd (nan_add left _) number
  · exact absurd (add_nan _ right) number

theorem left_le_right (valid : config.fault? = none)
    (sides : (config.margins.left + config.margins.right).isNaN = false) :
    config.margins.left ≤ config.page.width - config.margins.right := by
  obtain ⟨fits, -⟩ := fits_of_fault? valid
  obtain ⟨width, -⟩ := finite_of_fault? valid
  rcases side_margins valid sides with ⟨left, right⟩ | less
  · have sum := add_lt_of_not_le left right width fits
    exact le_sub_of_le width right left (by linarith)
  · exact le_of_lt_float less

theorem HasRoom.left_lt_right (room : config.HasRoom) (valid : config.fault? = none) :
    config.margins.left < config.page.width - config.margins.right := by
  obtain ⟨width, -⟩ := finite_of_fault? valid
  rcases side_margins valid room.sides with ⟨left, right⟩ | less
  · exact lt_sub_of_room width right left (room.width left right)
  · exact less

/-! ### From top to bottom -/

theorem HasRoom.first_line_fits (room : config.HasRoom) (valid : config.fault? = none) :
    ¬ config.page.height - config.margins.bottom < config.margins.top + config.lineHeight := by
  obtain ⟨-, fits⟩ := fits_of_fault? valid
  obtain ⟨-, -, height, space⟩ := finite_of_fault? valid
  have small : (config.margins.top + config.margins.bottom).toModel.unpack ≠ .infinity .positive :=
    fun great => fits (lt_infinity height (infinity_add great (.inl space)))
  rcases finite_or config.margins.top with top | ⟨sign, top⟩ | top
  · rcases finite_or config.margins.bottom with bottom | ⟨sign, bottom⟩ | bottom
    · have exact := room.height top bottom
      exact sub_not_lt_add top space height bottom (by linarith)
    · cases sign
      · exact not_lt_of_left (.inl (sub_infinity height bottom)) _
      · exact absurd (add_infinity top bottom) small
    · exact not_lt_of_left (.inr (sub_nan _ bottom)) _
  · cases sign
    · exact not_lt_of_right _ (.inl (infinity_add top (.inl space)))
    · rcases finite_or config.margins.bottom with bottom | ⟨sign, bottom⟩ | bottom
      · exact absurd (infinity_add top (.inl bottom)) small
      · cases sign
        · exact not_lt_of_left (.inl (sub_infinity height bottom)) _
        · exact absurd (infinity_add top (.inr bottom)) small
      · exact not_lt_of_left (.inr (sub_nan _ bottom)) _
  · exact not_lt_of_right _ (.inr (nan_add top _))

/-! ### Lengths in a common unit -/

-- Then the sums are not rounded, so what is accepted has room.
theorem InUnit.hasRoom {unit : Int} (inUnit : config.InUnit unit) (valid : config.fault? = none) :
    config.HasRoom := by
  obtain ⟨range, whole, across, along⟩ := inUnit
  obtain ⟨wide, tall⟩ := fits_of_fault? valid
  simp only [lengths, List.forall_mem_cons] at whole
  obtain ⟨⟨width, w, widths⟩, ⟨height, -⟩, ⟨top, t, tops⟩, ⟨left, l, lefts⟩, ⟨right, r, rights⟩,
    ⟨bottom, b, bottoms⟩, ⟨space, s, spaces⟩, -⟩ := whole
  have scale : (0 : Rat) < 2 ^ unit := by positivity
  have sides := add_lt_of_not_le left right width wide
  refine ⟨?_, fun _ _ => ?_, fun _ _ => ?_⟩
  · have few : |value config.margins.left + value config.margins.right| < 2 ^ (unit + 24) :=
      lt_of_le_of_lt (abs_add_le _ _) (by linarith [abs_nonneg (value config.page.width)])
    have multiple : value config.margins.left + value config.margins.right =
        (l + r : Int) * (2 : Rat) ^ unit := by
      rw [lefts, rights, Int.cast_add, add_mul]
    exact isNaN_of_finite (add_exact left right range multiple few).1
  · -- The room is a positive multiple of the unit.
    have rest : value config.page.width - value config.margins.right - value config.margins.left =
        (w - r - l : Int) * (2 : Rat) ^ unit := by
      rw [widths, rights, lefts]
      push_cast
      ring
    have positive : (0 : Rat) < (w - r - l : Int) * (2 : Rat) ^ unit := rest ▸ by linarith
    have one : (1 : Rat) ≤ (w - r - l : Int) := by
      exact_mod_cast (mul_pos_iff_of_pos_right scale).mp positive
    calc |value config.page.width - value config.margins.right| / 2 ^ 24 < 2 ^ (unit + 24) / 2 ^ 24 := by
          apply div_lt_div_of_pos_right _ (by positivity)
          exact lt_of_le_of_lt (abs_sub _ _) (by linarith [abs_nonneg (value config.margins.left)])
      _ = 2 ^ unit := by
          rw [zpow_add₀ two_ne_zero]
          exact mul_div_cancel_right₀ _ (by positivity)
      _ ≤ (w - r - l : Int) * 2 ^ unit := le_mul_of_one_le_left scale.le one
      _ = value config.page.width - value config.margins.right - value config.margins.left := rest.symm
  · have first : value config.margins.top + value config.margins.bottom =
        (t + b : Int) * (2 : Rat) ^ unit := by
      rw [tops, bottoms, Int.cast_add, add_mul]
    have one := abs_add_le (value config.margins.top) (value config.margins.bottom)
    obtain ⟨margins, sum⟩ := add_exact top bottom range first
      (lt_of_le_of_lt one (by linarith [abs_nonneg (value config.lineHeight)]))
    have second : value (config.margins.top + config.margins.bottom) + value config.lineHeight =
        (t + b + s : Int) * (2 : Rat) ^ unit := by
      rw [sum, first, spaces, ← add_mul]
      push_cast
      ring
    have two := abs_add_le (value (config.margins.top + config.margins.bottom)) (value config.lineHeight)
    rw [sum] at two second
    obtain ⟨finite, total⟩ := add_exact margins space range (sum ▸ second)
      (by rw [sum]; exact lt_of_le_of_lt two (by linarith))
    rw [lt_iff height finite, total, sum] at tall
    exact not_lt.mp tall

end Config

/-! ### What is drawn at the top of a page -/

namespace Paper

variable {paper : Paper} {config : Config}

theorem emit_at_top (settings : paper.settings = config.paperSettings) (top : paper.y = config.margins.top)
    (fits : ¬ config.page.height - config.margins.bottom < config.margins.top + config.lineHeight)
    (x : Float32) (text : List Char) :
    paper.emit x config.lineHeight text = paper.place x config.lineHeight text := by
  have stays : paper.turnPageFor config.lineHeight = paper := by
    rw [turnPageFor, lowerLimit, settings, top]
    exact if_neg fits
  rw [emit, stays]
  split
  · rename_i empty
    rw [place, if_pos empty]
  · rfl

end Paper

/-- In settings that are accepted, the left margin is never beyond the right one. If there is exact
room for the margins and a line, they are apart, and a line at the top of a page is drawn on that
page. Lengths that are counted in one unit always leave exact room if they are accepted. -/
theorem Config.accepted_leave_room (config : Config) (valid : config.fault? = none) (paper : Paper)
    (settings : paper.settings = config.paperSettings) :
    ((config.margins.left + config.margins.right).isNaN = false →
        config.margins.left ≤ paper.rightLimit) ∧
      (config.HasRoom →
        config.margins.left < paper.rightLimit ∧
          ¬ paper.lowerLimit < config.margins.top + config.lineHeight ∧
          (paper.y = config.margins.top → ∀ x text,
            paper.emit x config.lineHeight text = paper.place x config.lineHeight text ∧
              (paper.emit x config.lineHeight text).finished = paper.finished ∧
              (paper.emit x config.lineHeight text).breaks = paper.breaks)) ∧
      ∀ unit, config.InUnit unit → config.HasRoom := by
  have edge : paper.rightLimit = config.page.width - config.margins.right := by
    rw [Paper.rightLimit, settings]
    rfl
  have trigger : paper.lowerLimit = config.page.height - config.margins.bottom := by
    rw [Paper.lowerLimit, settings]
    rfl
  rw [edge, trigger]
  refine ⟨left_le_right valid, fun room => ?_, fun unit inUnit => inUnit.hasRoom valid⟩
  have fits := room.first_line_fits valid
  refine ⟨room.left_lt_right valid, fits, fun top x text => ?_⟩
  have same := Paper.emit_at_top settings top fits x text
  rw [same]
  exact ⟨rfl, paper.place_turns x config.lineHeight text⟩

/-- The standard settings are in whole millimetres. -/
theorem Config.standard_leave_room :
    (({} : Config).fault? = none) ∧ ({} : Config).InUnit 0 ∧
      ({} : Config).margins.left < (Paper.new ({} : Config).paperSettings none).rightLimit ∧
      ∀ x text, (Paper.new ({} : Config).paperSettings none).emit x 5 text =
        (Paper.new ({} : Config).paperSettings none).place x 5 text := by
  have valid : ({} : Config).fault? = none := by decide
  have millimetres : ({} : Config).InUnit 0 :=
    { range := by decide
      whole := by
        simp only [lengths, List.forall_mem_cons]
        refine ⟨⟨by decide, 210, ?_⟩, ⟨by decide, 297, ?_⟩, ⟨by decide, 10, ?_⟩, ⟨by decide, 10, ?_⟩,
          ⟨by decide, 10, ?_⟩, ⟨by decide, 20, ?_⟩, ⟨by decide, 5, ?_⟩, nofun⟩ <;> decide +kernel
      across := by decide +kernel
      along := by decide +kernel }
  obtain ⟨-, room, unit⟩ := accepted_leave_room {} valid (Paper.new ({} : Config).paperSettings none) rfl
  obtain ⟨apart, -, drawn⟩ := room (unit 0 millimetres)
  exact ⟨valid, millimetres, apart, fun x text => (drawn rfl x text).1⟩

/-- A strip that has no width between its margins. -/
def Config.strip : Config := { page := ⟨12.8, 297⟩, margins := ⟨10, 10.4, 2.4, 20⟩ }

namespace Job

/-- A label for one line, whose height is that of the line and the margins. -/
def label : Job :=
  { text := ['a'], destination := "label.pdf"
    config := { page := ⟨210, 8.4⟩, margins := ⟨0.5, 10, 10, 2.9⟩ } }

/-- Both are accepted, but the line goes on a second page, and the margins meet. -/
theorem label_starts_on_second_page :
    label.config.fault? = none ∧ label.blank.y = label.config.margins.top ∧
      label.blank.lowerLimit < label.config.margins.top + label.config.lineHeight ∧
      (label.pages accepting).map Page.shown = [[], [['a'.toNat.toUInt8]]] ∧
      Config.strip.fault? = none ∧
      ¬ Config.strip.margins.left < (Paper.new Config.strip.paperSettings none).rightLimit := by
  refine ⟨by decide +kernel, rfl, by decide +kernel, ?_, by decide +kernel, by decide +kernel⟩
  decide +kernel

end Job

end Letterhead
