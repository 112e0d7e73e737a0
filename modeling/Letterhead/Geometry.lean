/-!
Lengths on a page. Layout is in millimetres from the top-left corner, drawing in points from the
bottom-left one. All lengths are 32-bit floats, computed in the order written here.
-/

namespace Letterhead

structure PageSize where
  width : Float32
  height : Float32
deriving DecidableEq, Repr

def PageSize.a4 : PageSize := ⟨210, 297⟩

/-- The bottom margin is also where pages break. -/
structure Margins where
  top : Float32
  left : Float32
  right : Float32
  bottom : Float32
deriving DecidableEq, Repr

/-- The right margin follows the left one. -/
def Margins.symmetric (top left bottom : Float32) : Margins := ⟨top, left, left, bottom⟩

def Margins.standard : Margins := .symmetric 10 10 20

def pointsPerMillimetre : Float32 := 72 / 25.4

def toPoints (length : Float32) : Float32 := length * pointsPerMillimetre

/-- The height above the bottom edge, in points, of a line `y` below the top edge. -/
def flip (y pageHeight : Float32) : Float32 := (pageHeight - y) * pointsPerMillimetre

/-- An average glyph is half as wide as the font size. -/
def textExtent (text : List Char) (fontSize : Float32) : Float32 :=
  Float32.ofNat text.length * fontSize * 0.5 / pointsPerMillimetre

end Letterhead
