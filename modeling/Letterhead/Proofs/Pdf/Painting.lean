import Letterhead.Pdf.Content

/-!
What the operators of a page paint, and with which ink. A canvas keeps as much of the graphics state
as these operators touch. It refuses an operator that is out of place: nothing is nested, a path is
painted or ended before anything else is done, and a text is shown where the text object has been
moved, in a font that has been selected.
-/

namespace Letterhead.Pdf

/-- At first texts and fillings are black and lines one point wide, and no font is selected. -/
structure Ink where
  gray : Float32 := 0
  lineWidth : Float32 := 1
  font : Option (Bytes × Float32) := none

inductive Segment where
  | rectangle (x y width height : Float32)
  | move (x y : Float32)
  | line (x y : Float32)

/-- Something on the page, with the ink that it took. -/
inductive Painted where
  | form (name : Bytes)
  | text (font : Bytes) (size x y : Float32) (bytes : Bytes) (gray : Float32)
  /-- Filled with a gray level, outlined with a line width, or both. -/
  | path (segments : List Segment) (fill outline : Option Float32)

/-- What has been begun and not yet ended. -/
inductive Scope where
  | page
  /-- With the point to which the text object has been moved. -/
  | text (start : Option (Float32 × Float32))
  | path (segments : List Segment)

structure Canvas where
  ink : Ink := {}
  saved : Option Ink := none
  scope : Scope := .page
  /-- The earliest first. -/
  painted : List Painted := []

namespace Canvas

def paint (canvas : Canvas) (item : Painted) : Canvas :=
  { canvas with painted := canvas.painted ++ [item] }

-- The path is used up, whether it leaves anything on the page or not.
def endPath (canvas : Canvas) : Canvas := { canvas with scope := .page }

def step (canvas : Canvas) (operation : Operation) : Option Canvas :=
  match canvas.scope, operation with
  | .page, .save =>
    if canvas.saved.isNone then some { canvas with saved := some canvas.ink } else none
  | .page, .restore => canvas.saved.map fun ink => { canvas with ink, saved := none }
  | .page, .paintForm name => some (canvas.paint (.form name))
  | .page, .setGray gray => some { canvas with ink := { canvas.ink with gray } }
  | .page, .setLineWidth lineWidth => some { canvas with ink := { canvas.ink with lineWidth } }
  | .page, .beginText => some { canvas with scope := .text none }
  | .text _, .selectFont name size =>
    some { canvas with ink := { canvas.ink with font := some (name, size) } }
  | .text none, .moveText x y => some { canvas with scope := .text (some (x, y)) }
  | .text (some (x, y)), .showText bytes =>
    canvas.ink.font.map fun (name, size) => canvas.paint (.text name size x y bytes canvas.ink.gray)
  | .text _, .endText => some { canvas with scope := .page }
  | .page, .rectangle x y width height =>
    some { canvas with scope := .path [.rectangle x y width height] }
  | .page, .moveTo x y => some { canvas with scope := .path [.move x y] }
  | .path segments, .lineTo x y => some { canvas with scope := .path (segments ++ [.line x y]) }
  | .path segments, .fill =>
    some (canvas.paint (.path segments (some canvas.ink.gray) none)).endPath
  | .path segments, .stroke =>
    some (canvas.paint (.path segments none (some canvas.ink.lineWidth))).endPath
  | .path segments, .fillAndStroke =>
    some (canvas.paint
      (.path segments (some canvas.ink.gray) (some canvas.ink.lineWidth))).endPath
  | .path _, .endPath => some canvas.endPath
  | _, _ => none

/-- Nothing is left of a canvas that has refused an operator. -/
def run (canvas : Canvas) (operations : List Operation) : Option Canvas :=
  operations.foldlM step canvas

theorem run_append (canvas : Canvas) (first rest : List Operation) :
    canvas.run (first ++ rest) = (canvas.run first).bind fun middle => middle.run rest :=
  List.foldlM_append

/-- Nothing is open, and the next text will be black. -/
structure Idle (canvas : Canvas) : Prop where
  scope : canvas.scope = .page
  saved : canvas.saved = none
  black : canvas.ink.gray = 0

end Canvas

end Letterhead.Pdf
