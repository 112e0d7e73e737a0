import Letterhead.Proofs.Pdf.Lookup
import Letterhead.Proofs.Surface.History

/-!
Fonts and their names. Text is drawn with fonts that have one of four names, whatever the style, and
the resources that all pages share have these four.
-/

namespace Letterhead

open Pdf (Dictionary Bytes Operation ascii)

/-- Fonts are selected under the names of the four faces. -/
def Mark.Faced (mark : Mark) : Prop :=
  ∀ name size, .selectFont name size ∈ mark.operations → ∃ variant, name = ascii (Paper.faceKey variant)

theorem Mark.faced_of_plain {mark : Mark} (plain : mark.isText = false) : mark.Faced := by
  intro name size selects
  cases mark with
  | text => cases plain
  | rectangle x y width height fill outline =>
    cases fill <;> cases outline <;> simp [operations, paint] at selects
  | line => simp [operations] at selects

theorem Mark.faced_text (variant : FontStyle) (size x y : Float32) (bytes : Bytes) :
    (Mark.text (ascii (Paper.faceKey variant)) size x y bytes).Faced := by
  intro name size selects
  simp only [operations, List.mem_cons, Operation.selectFont.injEq, reduceCtorEq, false_or,
    or_false, List.not_mem_nil] at selects
  exact ⟨variant, selects.1⟩

namespace Paper

/-- Something holds of all marks on the paper. -/
def Bears (Holds : Mark → Prop) (paper : Paper) : Prop :=
  ∀ page ∈ paper.sheets, ∀ mark ∈ page.marks, Holds mark

variable {Holds : Mark → Prop} {paper after : Paper} {use : Use}

theorem bears_of_blank (blank : paper.sheets = [{}]) : paper.Bears Holds := by
  intro page member mark inside
  obtain rfl := List.mem_singleton.mp (blank ▸ member)
  cases inside

theorem Bears.draw (bears : paper.Bears Holds) {mark : Mark} (holds : Holds mark) :
    (paper.draw mark).Bears Holds := by
  intro page member drawn inside
  simp only [sheets, Paper.draw, List.mem_append, List.mem_singleton] at member
  rcases member with ended | rfl
  · exact bears page (List.mem_append_left _ ended) drawn inside
  · rw [Page.marks_draw, List.mem_append, List.mem_singleton] at inside
    rcases inside with old | rfl
    · exact bears paper.current (by simp [sheets]) drawn old
    · exact holds

theorem Bears.turnPage (bears : paper.Bears Holds) : paper.turnPage.Bears Holds := by
  intro page member mark inside
  simp only [sheets, Paper.turnPage, List.mem_append, List.mem_singleton] at member
  rcases member with old | rfl
  · exact bears page (by simpa [sheets] using old) mark inside
  · cases inside

theorem Bears.warnIfReplaced (bears : paper.Bears Holds) (text : List Char) :
    (paper.warnIfReplaced text).Bears Holds := by
  rw [Paper.warnIfReplaced]
  split <;> exact bears

-- Marks stay when something is put behind their page.
theorem Bears.stamp (bears : paper.Bears Holds) (page templatePage : Nat) :
    (paper.stamp page templatePage).2.Bears Holds := by
  have bare (paper : Paper) : paper.bare.sheets.map Page.marks = paper.sheets.map Page.marks := by
    have same : ∀ page : Page, page.bare.marks = page.marks := fun _ => rfl
    simp [sheets, Paper.bare, Function.comp_def, same]
  have marks : (paper.stamp page templatePage).2.sheets.map Page.marks = paper.sheets.map Page.marks := by
    rw [← bare, stamp_bare, bare]
  intro sheet member mark inside
  have there : sheet.marks ∈ paper.sheets.map Page.marks := marks ▸ List.mem_map_of_mem member
  obtain ⟨old, before, same⟩ := List.mem_map.mp there
  exact bears old before mark (same ▸ inside)

theorem Bears.place (bears : paper.Bears Mark.Faced) (x height : Float32) (text : List Char) :
    (paper.place x height text).Bears Mark.Faced := by
  have drawn (y : Float32) : ((paper.warnIfReplaced text).draw <|
      .text (ascii (faceKey paper.variant)) paper.fontSize (toPoints x) y
        (Text.WinAnsi.encode text)).Bears Mark.Faced :=
    (bears.warnIfReplaced text).draw (Mark.faced_text _ _ _ _ _)
  simp only [Paper.place]
  split
  · exact bears
  · split
    · exact (drawn _).draw (Mark.faced_of_plain rfl)
    · exact drawn _

theorem Draws.faced {texts : List (List Char)} (draws : Draws paper texts after)
    (bears : paper.Bears Mark.Faced) : after.Bears Mark.Faced := by
  induction draws with
  | stay => exact bears
  | place x height _ _ ih => exact ih.place x height _
  | rule plain _ ih => exact ih.draw (Mark.faced_of_plain plain)
  | turn _ ih => exact ih.turnPage
  | move _ _ _ ih => exact ih

theorem Used.faced (used : paper.Used use after) (bears : paper.Bears Mark.Faced) :
    after.Bears Mark.Faced := by
  cases used with
  | drawn _ draws => exact draws.faced bears
  | set | handedOut => exact bears
  | stamped page templatePage => exact bears.stamp page templatePage

theorem faceKey_mem (family : String) (variant : FontStyle) :
    Dictionary.get? (fontFaces.map (fontEntry family)) (ascii (faceKey variant)) ≠ none := by
  obtain ⟨bold, italic, underline⟩ := variant
  cases bold <;> cases italic <;>
    simp [fontFaces, fontEntry, faceKey, Dictionary.get?_cons, ascii]

end Paper

end Letterhead
