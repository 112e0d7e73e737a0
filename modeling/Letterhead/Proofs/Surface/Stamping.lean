import Letterhead.Proofs.Surface.Glyphs

/-!
Stamping a page changes what lies behind it and what has been imported, and nothing else.
-/

namespace Letterhead

open Pdf (Bytes)

def Page.bare (page : Page) : Page := { page with backdrop := none }

namespace Paper

-- The paper without its template and without what the template has left on it.
def bare (paper : Paper) : Paper :=
  { paper with
    template := none
    imports := ⟨{}, {}⟩
    forms := []
    finished := paper.finished.map Page.bare
    current := paper.current.bare }

theorem glyphs_bare (paper : Paper) : paper.bare.glyphs = paper.glyphs := by
  have same : ∀ page : Page, page.bare.glyphs = page.glyphs := fun page => page.glyphs_backdrop none
  simp [glyphs, sheets, bare, same, List.flatMap_map]

theorem putBehind_bare (paper : Paper) (page : Nat) (name : Bytes) :
    (paper.putBehind page name).bare = paper.bare := by
  rw [putBehind]
  split
  · have same : (paper.finished.modify (page - 1) fun drawn => { drawn with backdrop := some name }).map
        Page.bare = paper.finished.map Page.bare := by
      apply List.ext_getElem?
      intro index
      simp only [List.getElem?_map, List.getElem?_modify]
      rcases paper.finished[index]? with _ | drawn
      · rfl
      · by_cases here : page - 1 = index <;> simp [here, Page.bare]
    simp only [bare, same]
  · rfl

theorem requireForm_bare (paper : Paper) (template : Template) (templatePage : Nat) :
    (paper.requireForm template templatePage).2.bare = paper.bare := by
  rw [requireForm]
  split
  · rfl
  · split
    · rfl
    · split <;> rfl

theorem stamp_bare (paper : Paper) (page templatePage : Nat) :
    (paper.stamp page templatePage).2.bare = paper.bare := by
  rw [stamp]
  rcases paper.template with _ | template
  · rfl
  · simp only
    split
    · rfl
    · have same := paper.requireForm_bare template templatePage
      rcases outcome : paper.requireForm template templatePage with ⟨_ | _, after⟩ <;>
        simp only [outcome] at same ⊢
      · exact same
      · exact (after.putBehind_bare page _).trans same

end Paper

end Letterhead
