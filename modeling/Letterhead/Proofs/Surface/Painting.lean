import Letterhead.Proofs.Pdf.Painting
import Letterhead.Surface.Page
import Mathlib.Data.List.Forall2

/-!
The content of a page, executed. Each mark is a block of operators that leaves nothing open and the
ink black, so a page paints its backdrop, then its marks one after the other, each with its own ink.
-/

namespace Letterhead

open Pdf (Operation Bytes Painted Canvas)

/-! ### Marks -/

namespace Mark

/-- The operators of a mark, as a page has them in one piece. -/
inductive Block : Mark → List Operation → Prop
  | text (font : Bytes) (size x y : Float32) (bytes : Bytes) :
      Block (.text font size x y bytes)
        [.beginText, .selectFont font size, .moveText x y, .showText bytes, .endText]
  | filled (x y width height gray : Float32) :
      Block (.rectangle x y width height (some gray) none)
        [.setGray gray, .rectangle x y width height, .fill, .setGray 0]
  | outlined (x y width height stroke : Float32) :
      Block (.rectangle x y width height none (some stroke))
        [.setLineWidth stroke, .rectangle x y width height, .stroke]
  | filledAndOutlined (x y width height gray stroke : Float32) :
      Block (.rectangle x y width height (some gray) (some stroke))
        [.setGray gray, .setLineWidth stroke, .rectangle x y width height, .fillAndStroke, .setGray 0]
  | invisible (x y width height : Float32) :
      Block (.rectangle x y width height none none) [.rectangle x y width height, .endPath]
  | line (fromX fromY toX toY width : Float32) :
      Block (.line fromX fromY toX toY width)
        [.setLineWidth width, .moveTo fromX fromY, .lineTo toX toY, .stroke]

/-- What is to be seen of a mark: a text in black, a rectangle and a line in their own ink. -/
def painted : Mark → List Painted
  | text font size x y bytes => [.text font size x y bytes 0]
  | rectangle _ _ _ _ none none => []
  | rectangle x y width height fill outline => [.path [.rectangle x y width height] fill outline]
  | line fromX fromY toX toY width => [.path [.move fromX fromY, .line toX toY] none (some width)]

theorem operations_block (mark : Mark) : mark.Block mark.operations := by
  cases mark with
  | text font size x y bytes => exact .text font size x y bytes
  | line fromX fromY toX toY width => exact .line fromX fromY toX toY width
  | rectangle x y width height fill outline =>
    rcases fill with _ | gray <;> rcases outline with _ | stroke
    · exact .invisible x y width height
    · exact .outlined x y width height stroke
    · exact .filled x y width height gray
    · exact .filledAndOutlined x y width height gray stroke

-- Whatever font and line width an earlier mark has left, the next one sets those that it uses.
theorem Block.run {mark : Mark} {operations : List Operation} (block : mark.Block operations)
    {canvas : Canvas} (idle : canvas.Idle) :
    ∃ after, canvas.run operations = some after ∧ after.Idle ∧
      after.painted = canvas.painted ++ mark.painted := by
  obtain ⟨⟨gray, width, font⟩, saved, scope, items⟩ := canvas
  obtain ⟨rfl, rfl, rfl⟩ := idle
  cases block with
  | text | filled | outlined | filledAndOutlined | line => exact ⟨_, rfl, ⟨rfl, rfl, rfl⟩, rfl⟩
  | invisible => exact ⟨_, rfl, ⟨rfl, rfl, rfl⟩, (List.append_nil _).symm⟩

theorem run_blocks {marks : List Mark} {blocks : List (List Operation)}
    (each : List.Forall₂ Block marks blocks) {canvas : Canvas} (idle : canvas.Idle) :
    ∃ after, canvas.run blocks.flatten = some after ∧ after.Idle ∧
      after.painted = canvas.painted ++ marks.flatMap painted := by
  induction each generalizing canvas with
  | nil => exact ⟨canvas, rfl, idle, (List.append_nil _).symm⟩
  | @cons mark operations marks blocks block _ ih =>
    obtain ⟨middle, begun, still, first⟩ := block.run idle
    obtain ⟨after, done, last, all⟩ := ih still
    refine ⟨after, ?_, last, ?_⟩
    · rw [List.flatten_cons, Canvas.run_append, begun]
      exact done
    · rw [all, first, List.append_assoc, List.flatMap_cons]

end Mark

/-! ### Pages -/

namespace Page

theorem run_backdrop (backdrop : Option Bytes) :
    ∃ canvas, Canvas.run {} (backdropOperations backdrop) = some canvas ∧ canvas.Idle ∧
      canvas.painted = backdrop.toList.map Painted.form := by
  cases backdrop <;> exact ⟨_, rfl, ⟨rfl, rfl, rfl⟩, rfl⟩

theorem content_blocks (page : Page) :
    ∃ blocks, List.Forall₂ Mark.Block page.marks blocks ∧
      page.content = backdropOperations page.backdrop ++ blocks.flatten := by
  refine ⟨page.marks.map Mark.operations, ?_, ?_⟩
  · rw [List.forall₂_map_right_iff, List.forall₂_same]
    exact fun mark _ => mark.operations_block
  · rw [content, List.flatMap_def]

/-- What can be done to a page. -/
inductive Change where
  | draw (mark : Mark)
  | putBehind (name : Bytes)

def Change.mark? : Change → Option Mark
  | .draw mark => some mark
  | .putBehind _ => none

def Change.backdrop? : Change → Option Bytes
  | .draw _ => none
  | .putBehind name => some name

def change (page : Page) : Change → Page
  | .draw mark => page.draw mark
  | .putBehind name => { page with backdrop := some name }

def ofChanges (changes : List Change) : Page := changes.foldl change {}

theorem foldl_change (page : Page) (changes : List Change) :
    (changes.foldl change page).marks = page.marks ++ changes.filterMap Change.mark? ∧
      (changes.foldl change page).backdrop =
        (changes.filterMap Change.backdrop?).getLast?.or page.backdrop := by
  induction changes generalizing page with
  | nil => exact ⟨(List.append_nil _).symm, rfl⟩
  | cons first rest ih =>
    obtain ⟨marks, backdrop⟩ := ih (page.change first)
    rw [List.foldl_cons, marks, backdrop]
    cases first with
    | draw mark =>
      constructor
      · rw [change, marks_draw, List.append_assoc]
        rfl
      · rfl
    | putBehind name =>
      constructor
      · rfl
      · show _ = (name :: rest.filterMap Change.backdrop?).getLast?.or page.backdrop
        rw [List.getLast?_cons]
        cases (rest.filterMap Change.backdrop?).getLast? <;> rfl

/-- Whatever is drawn on a page and put behind it, in any order: its content is the form put behind
it last, between a save and a restore, and then a block for each mark. Executed from the beginning,
no operator is out of place and nothing is left open; the form is painted first, and then each mark,
texts in black, rectangles and lines with the gray level and the line width with which they were
drawn. -/
theorem paints_marks_over_backdrop (changes : List Change) :
    let marks := changes.filterMap Change.mark?
    let backdrop := (changes.filterMap Change.backdrop?).getLast?
    (∃ blocks, List.Forall₂ Mark.Block marks blocks ∧
      (ofChanges changes).content = (match backdrop with
        | none => []
        | some name => [.save, .paintForm name, .restore]) ++ blocks.flatten) ∧
    ∃ canvas, Canvas.run {} (ofChanges changes).content = some canvas ∧ canvas.Idle ∧
      canvas.painted = backdrop.toList.map Painted.form ++ marks.flatMap Mark.painted := by
  intro marks backdrop
  obtain ⟨drawn, behind⟩ := foldl_change {} changes
  obtain ⟨blocks, each, content⟩ := (ofChanges changes).content_blocks
  have sameMarks : (ofChanges changes).marks = marks := drawn
  have sameBackdrop : (ofChanges changes).backdrop = backdrop := behind.trans Option.or_none
  rw [sameMarks] at each
  rw [sameBackdrop] at content
  constructor
  · refine ⟨blocks, each, content.trans ?_⟩
    cases backdrop <;> rfl
  · obtain ⟨canvas, begun, idle, form⟩ := run_backdrop backdrop
    obtain ⟨after, done, still, painted⟩ := Mark.run_blocks each idle
    refine ⟨after, ?_, still, ?_⟩
    · rw [content, Canvas.run_append, begun]
      exact done
    · rw [painted, form]

end Page

end Letterhead
