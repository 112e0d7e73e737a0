import Letterhead.Proofs.Surface.Drawing

/-!
What a reader of the pages sees: every byte that is shown, with the font and the size selected
last. Drawing a text adds its bytes, and nothing else that is drawn adds or takes any.
-/

namespace Letterhead

open Pdf (Bytes Operation ascii)

/-- A byte with the name and the size of its font, if the page has selected one. -/
structure Glyph where
  byte : UInt8
  face : Option (Bytes × Float32)
deriving DecidableEq

-- The bytes of all operators `Tj`, each with the operands of the latest `Tf`.
def Glyph.read : Option (Bytes × Float32) → List Operation → List Glyph
  | _, [] => []
  | _, .selectFont name size :: rest => read (some (name, size)) rest
  | face, .showText bytes :: rest => bytes.map (⟨·, face⟩) ++ read face rest
  | face, _ :: rest => read face rest

def Mark.glyphs : Mark → List Glyph
  | .text font size _ _ bytes => bytes.map (⟨·, some (font, size)⟩)
  | _ => []

-- Every text selects its own font, so what was selected before it makes no difference.
theorem Mark.read_operations (mark : Mark) (face : Option (Bytes × Float32))
    (rest : List Operation) :
    ∃ last, Glyph.read face (mark.operations ++ rest) = mark.glyphs ++ Glyph.read last rest := by
  cases mark with
  | text font size x y bytes => exact ⟨some (font, size), rfl⟩
  | rectangle x y width height fill outline =>
    refine ⟨face, ?_⟩
    cases fill <;> cases outline <;> rfl
  | line fromX fromY toX toY width => exact ⟨face, rfl⟩

theorem Mark.glyphs_eq_nil {mark : Mark} (plain : mark.isText = false) : mark.glyphs = [] := by
  cases mark with
  | text => cases plain
  | rectangle => rfl
  | line => rfl

namespace Page

def glyphs (page : Page) : List Glyph := Glyph.read none page.content

theorem read_marks (marks : List Mark) (face : Option (Bytes × Float32)) :
    Glyph.read face (marks.flatMap Mark.operations) = marks.flatMap Mark.glyphs := by
  induction marks generalizing face with
  | nil => rfl
  | cons mark rest ih =>
    obtain ⟨last, same⟩ := mark.read_operations face (rest.flatMap Mark.operations)
    rw [List.flatMap_cons, List.flatMap_cons, same, ih]

theorem glyphs_eq (page : Page) : page.glyphs = page.marks.flatMap Mark.glyphs := by
  rw [glyphs, content]
  rcases page.backdrop with _ | name <;> exact read_marks _ _

@[simp] theorem glyphs_draw (page : Page) (mark : Mark) :
    (page.draw mark).glyphs = page.glyphs ++ mark.glyphs := by
  simp [glyphs_eq]

@[simp] theorem glyphs_backdrop (page : Page) (backdrop : Option Bytes) :
    { page with backdrop }.glyphs = page.glyphs := by
  simp only [glyphs_eq, marks]

end Page

namespace Paper

def glyphs (paper : Paper) : List Glyph := paper.sheets.flatMap Page.glyphs

def spell (variant : FontStyle) (size : Float32) (text : List Char) : List Glyph :=
  (Text.WinAnsi.encode text).map (⟨·, some (ascii (faceKey variant), size)⟩)

theorem spell_append (variant : FontStyle) (size : Float32) (first second : List Char) :
    spell variant size (first ++ second) = spell variant size first ++ spell variant size second := by
  simp [spell]

@[simp] theorem glyphs_draw (paper : Paper) (mark : Mark) :
    (paper.draw mark).glyphs = paper.glyphs ++ mark.glyphs := by
  simp [glyphs, sheets, draw]

@[simp] theorem glyphs_turnPage (paper : Paper) : paper.turnPage.glyphs = paper.glyphs := by
  simp [glyphs, sheets, turnPage, Page.glyphs_eq, Page.marks]

@[simp] theorem glyphs_warnIfReplaced (paper : Paper) (text : List Char) :
    (paper.warnIfReplaced text).glyphs = paper.glyphs := by
  rw [warnIfReplaced]
  split <;> rfl

theorem glyphs_place (paper : Paper) (x height : Float32) {text : List Char} (some : text ≠ []) :
    (paper.place x height text).glyphs =
      paper.glyphs ++ spell paper.variant paper.fontSize text := by
  have filled : text.isEmpty = false := by simpa using some
  simp only [place, filled, Bool.false_eq_true, if_false]
  split <;> simp [Mark.glyphs, underlineMark, spell]

theorem Draws.glyphs {paper after : Paper} {texts : List (List Char)}
    (draws : Draws paper texts after) :
    after.glyphs = paper.glyphs ++ spell paper.variant paper.fontSize texts.flatten := by
  induction draws with
  | stay => exact (List.append_nil _).symm
  | place x height some draws ih =>
    rw [glyphs_place _ x height some, ih, draws.kept.variant, draws.kept.fontSize,
      List.append_assoc, ← spell_append, List.flatten_append, List.flatten_singleton]
  | rule plain _ ih => rw [glyphs_draw, Mark.glyphs_eq_nil plain, List.append_nil, ih]
  | turn _ ih => rw [glyphs_turnPage, ih]
  | move _ _ _ ih => exact ih

end Paper

end Letterhead
