import Letterhead.Pdf.Content

/-!
The content of one page: marks in the order in which they were drawn, over a backdrop that is
painted before all of them. Coordinates are points from the bottom-left corner.
-/

namespace Letterhead

open Pdf (Operation Bytes ascii)

inductive Mark where
  | text (font : Bytes) (size x y : Float32) (bytes : Bytes)
  /-- Filled with a gray level, outlined with a line width, both or neither. -/
  | rectangle (x y width height : Float32) (fill outline : Option Float32)
  | line (fromX fromY toX toY width : Float32)

namespace Mark

def paint : Option Float32 → Option Float32 → Operation
  | some _, some _ => .fillAndStroke
  | some _, none => .fill
  | none, some _ => .stroke
  | none, none => .endPath

/-- Filling leaves the gray level black, as text needs it. -/
def operations : Mark → List Operation
  | text font size x y bytes =>
    [.beginText, .selectFont font size, .moveText x y, .showText bytes, .endText]
  | rectangle x y width height fill outline =>
    (fill.toList.map .setGray) ++ (outline.toList.map .setLineWidth) ++
      [.rectangle x y width height, paint fill outline] ++ (fill.toList.map fun _ => .setGray 0)
  | line fromX fromY toX toY width =>
    [.setLineWidth width, .moveTo fromX fromY, .lineTo toX toY, .stroke]

end Mark

structure Page where
  /-- The latest first. -/
  drawn : List Mark := []
  backdrop : Option Bytes := none

namespace Page

def draw (page : Page) (mark : Mark) : Page := { page with drawn := mark :: page.drawn }

def marks (page : Page) : List Mark := page.drawn.reverse

def backdropOperations : Option Bytes → List Operation
  | none => []
  | some name => [.save, .paintForm name, .restore]

def content (page : Page) : List Operation :=
  backdropOperations page.backdrop ++ page.marks.flatMap Mark.operations

@[simp] theorem marks_draw (page : Page) (mark : Mark) :
    (page.draw mark).marks = page.marks ++ [mark] := by
  simp [marks, draw]

theorem content_draw (page : Page) (mark : Mark) :
    (page.draw mark).content = page.content ++ mark.operations := by
  simp [content, draw, marks]

end Page

end Letterhead
