import Letterhead.Config

/-!
What is known of settings that are accepted.
-/

namespace Letterhead.Config

variable {config : Config}

theorem positive_of_fault? (valid : config.fault? = none) :
    ∀ setting ∈ config.positiveSettings, isPositive setting.2 = true := by
  rw [fault?] at valid
  split at valid
  · cases valid
  · rename_i found
    intro setting member
    simpa using List.find?_eq_none.mp found setting member

theorem fits_of_fault? (valid : config.fault? = none) :
    ¬ config.page.width ≤ config.margins.left + config.margins.right ∧
      ¬ config.page.height < config.margins.top + config.margins.bottom + config.lineHeight := by
  rw [fault?] at valid
  split at valid
  · cases valid
  · dsimp only at valid
    split at valid
    · cases valid
    · rename_i wide
      split at valid
      · cases valid
      · rename_i tall
        exact ⟨wide, tall⟩

theorem finite_of_fault? (valid : config.fault? = none) : config.page.width.isFinite = true ∧
    0 < config.page.width ∧ config.page.height.isFinite = true ∧ config.lineHeight.isFinite = true := by
  have positive (name : String) (setting : Float32) (member : (name, setting) ∈ config.positiveSettings) :
      setting.isFinite = true ∧ 0 < setting := by
    simpa [isPositive] using positive_of_fault? valid _ member
  obtain ⟨width, wide⟩ := positive "page.width" config.page.width (by simp [positiveSettings])
  obtain ⟨height, -⟩ := positive "page.height" config.page.height (by simp [positiveSettings])
  obtain ⟨space, -⟩ := positive "lineHeight" config.lineHeight (by simp [positiveSettings])
  exact ⟨width, wide, height, space⟩

theorem lineHeight_of_fault? (valid : config.fault? = none) :
    config.lineHeight.isFinite = true ∧ 0 < config.lineHeight := by
  simpa [isPositive] using
    positive_of_fault? valid ("lineHeight", config.lineHeight) (by simp [positiveSettings])

theorem fontSize_of_fault? (valid : config.fault? = none) :
    config.fontSize.isFinite = true ∧ 0 < config.fontSize := by
  simpa [isPositive] using
    positive_of_fault? valid ("defaultFontSize", config.fontSize) (by simp [positiveSettings])

end Letterhead.Config
