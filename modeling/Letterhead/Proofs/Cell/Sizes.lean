import Letterhead.Cell.State

/-!
The sizes of a cell, as its tag sets them, are never negative.
-/

namespace Letterhead

theorem not_negative {length : Float32} (least : 0 ≤ length) : ¬ length < 0 := by
  have zero : (0 : Float32).toModel.unpack = .zero .positive := by rfl
  intro below
  have above : (0 : Float32).toModel.unpack.le length.toModel.unpack = true := of_decide_eq_true least
  have under : length.toModel.unpack.lt (0 : Float32).toModel.unpack = true := of_decide_eq_true below
  rw [zero] at above under
  generalize length.toModel.unpack = unpacked at above under
  rcases unpacked with (_ | _) | _ | (_ | _) | ⟨_ | _, _, _, _⟩ <;>
    cases under <;> cases above

def CellLayout.IsSized (layout : CellLayout) : Prop := ¬ (layout.height < 0 ∨ layout.width < 0)

namespace CellLayout

theorem length?_least {value : List Char} {length : Float32} (read : length? value = some length) :
    0 ≤ length := by
  obtain ⟨-, accepted⟩ := Option.filter_eq_some_iff.mp read
  simp only [Bool.and_eq_true, decide_eq_true_eq] at accepted
  exact accepted.2

theorem setting_least (attributes : Markup.Attributes) (name : String) {default : Float32}
    (fallback : 0 ≤ default) : 0 ≤ setting attributes name length? default := by
  rw [setting]
  rcases read : (attributes.get? name.toList).bind (fun value => length? (Text.uppercase value))
    with _ | length
  · exact fallback
  · obtain ⟨value, -, same⟩ := Option.bind_eq_some_iff.mp read
    exact length?_least same

theorem ofAttributes_least (attributes : Markup.Attributes) :
    0 ≤ (ofAttributes attributes).width ∧ 0 ≤ (ofAttributes attributes).height :=
  ⟨setting_least attributes "W" (by decide), setting_least attributes "H" (by decide)⟩

theorem ofAttributes_isSized (attributes : Markup.Attributes) : (ofAttributes attributes).IsSized := by
  obtain ⟨width, height⟩ := ofAttributes_least attributes
  rintro (low | narrow)
  · exact not_negative height low
  · exact not_negative width narrow

end CellLayout

end Letterhead
