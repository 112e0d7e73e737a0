import Letterhead.Proofs.Surface.Dressing
import Letterhead.Proofs.Surface.Stamping

/-!
Drawing takes no notice of the template: what is drawn on a paper without it is what is drawn on
the paper itself, without what the template has left there.
-/

namespace Letterhead

open Pdf (Operation)

/-- Page content without the form that is painted before all else, if there is one. -/
def withoutUnderlay : List Operation → List Operation
  | .save :: .paintForm _ :: .restore :: rest => rest
  | operations => operations

theorem withoutUnderlay_plain {operations : List Operation}
    (plain : ∀ name, .paintForm name ∉ operations) : withoutUnderlay operations = operations := by
  unfold withoutUnderlay
  split
  · rename_i name rest
    exact absurd (List.mem_cons_of_mem _ List.mem_cons_self) (plain name)
  · rfl

theorem Page.withoutUnderlay_content (page : Page) :
    withoutUnderlay page.content = page.bare.content := by
  rcases behind : page.backdrop with _ | name
  · rw [withoutUnderlay_plain (paints_no_form behind), content, behind]
    rfl
  · rw [content, behind]
    rfl

namespace Paper

variable (paper : Paper)

@[simp] theorem bare_currentPage : paper.bare.currentPage = paper.currentPage := by
  simp [currentPage, bare]

theorem bare_pages : paper.bare.pages = paper.pages.map Page.bare := by
  rw [pages, pages, apply_ite (List.map Page.bare), List.map_append]
  rfl

/-! ### Marks and pages -/

@[simp] theorem bare_draw (mark : Mark) : paper.bare.draw mark = (paper.draw mark).bare := rfl

@[simp] theorem bare_turnPage : paper.bare.turnPage = paper.turnPage.bare := by
  simp [turnPage, bare, Page.bare]

@[simp] theorem bare_turnPageFor (height : Float32) :
    paper.bare.turnPageFor height = (paper.turnPageFor height).bare := by
  rw [turnPageFor, turnPageFor, apply_ite bare, bare_turnPage]
  rfl

@[simp] theorem bare_startLine (lineHeight : Float32) :
    paper.bare.startLine lineHeight = (paper.startLine lineHeight).bare := rfl

@[simp] theorem bare_warnIfReplaced (text : List Char) :
    paper.bare.warnIfReplaced text = (paper.warnIfReplaced text).bare := by
  rw [warnIfReplaced, warnIfReplaced, apply_ite bare]
  rfl

@[simp] theorem bare_place (x height : Float32) (text : List Char) :
    paper.bare.place x height text = (paper.place x height text).bare := by
  simp only [place, apply_ite bare, bare_warnIfReplaced, bare_draw]
  rfl

@[simp] theorem bare_emit (x lineHeight : Float32) (text : List Char) :
    paper.bare.emit x lineHeight text = (paper.emit x lineHeight text).bare := by
  rw [emit, emit, apply_ite bare, bare_turnPageFor, bare_place]

/-! ### Lines -/

namespace Line

variable (lineHeight : Float32) (line : Line)

def bare : Line := { line with paper := line.paper.bare }

@[simp] theorem bare_flush : line.bare.flush lineHeight = (line.flush lineHeight).bare := by
  simp only [flush, bare, bare_emit, bare_startLine]
  rfl

@[simp] theorem bare_append (text : List Char) : line.bare.append text = (line.append text).bare :=
  rfl

@[simp] theorem bare_letter (c : Char) :
    line.bare.letter lineHeight c = (line.letter lineHeight c).bare := by
  simp only [letter, ← bare_append, apply_ite bare, ← bare_flush]
  rfl

@[simp] theorem bare_makeRoom :
    line.bare.makeRoom lineHeight = (line.makeRoom lineHeight).bare := by
  simp only [makeRoom, apply_ite bare, ← bare_flush]
  rfl

@[simp] theorem bare_word (word : List Char) :
    line.bare.word lineHeight word = (line.word lineHeight word).bare := by
  simp only [Line.word, apply_ite bare, bare_makeRoom, bare_append,
    List.foldl_hom bare fun line c => bare_letter lineHeight line c]
  rfl

theorem bare_words (words : List (List Char)) :
    words.foldl (Line.word lineHeight) line.bare = (words.foldl (Line.word lineHeight) line).bare :=
  List.foldl_hom bare fun line word => line.bare_word lineHeight word

end Line

@[simp] theorem bare_flowLine (lineHeight : Float32) (segment : List Char) :
    paper.bare.flowLine lineHeight segment = (paper.flowLine lineHeight segment).bare := by
  let line : Line := ⟨paper, [], paper.x, 0⟩
  simp only [flowLine]
  rw [show (⟨paper.bare, [], paper.bare.x, 0⟩ : Line) = line.bare from rfl, line.bare_words lineHeight,
    Line.bare, bare_emit]
  rfl

theorem bare_flowLines (lineHeight : Float32) (segments : List (List Char)) :
    paper.bare.flowLines lineHeight segments = (paper.flowLines lineHeight segments).bare := by
  induction segments generalizing paper with
  | nil => rfl
  | cons segment rest ih =>
    cases rest with
    | nil => exact paper.bare_flowLine lineHeight segment
    | cons next others => simp only [flowLines, bare_flowLine, bare_startLine, ih]

theorem bare_flowText (lineHeight : Float32) (content : List Char) :
    paper.bare.flowText lineHeight content = (paper.flowText lineHeight content).bare :=
  paper.bare_flowLines lineHeight _

theorem bare_boxText (content : List Char) (layout : CellLayout) :
    paper.bare.boxText content layout = (paper.boxText content layout).bare := by
  have framed (marks : List Mark) (after : Paper) :
      marks.foldl draw after.bare = (marks.foldl draw after).bare :=
    List.foldl_hom bare fun after mark => after.bare_draw mark
  simp only [boxText, bare_turnPageFor]
  rw [show ∀ after : Paper, after.bare.cellMarks = after.cellMarks from fun _ => rfl, framed,
    bare_place]
  rfl

end Paper

end Letterhead
