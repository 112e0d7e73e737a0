import Letterhead.Decimal.Read
import Letterhead.Markup.Attributes
import Letterhead.Text.Split

/-!
How a block of text is drawn as a cell: its size, borders, alignment and filling, and the tag
attributes that set them. A missing or unreadable attribute leaves the default.
-/

namespace Letterhead

open Text (uppercase trim)

inductive Alignment where
  | left
  | center
  | right
deriving DecidableEq, Repr

def Alignment.parse? (value : List Char) : Option Alignment :=
  match String.ofList (uppercase (trim value)) with
  | "L" | "LEFT" => some .left
  | "C" | "CENTER" => some .center
  | "R" | "RIGHT" => some .right
  | _ => none

structure Borders where
  left : Bool := false
  top : Bool := false
  right : Bool := false
  bottom : Bool := false
deriving DecidableEq, Repr

namespace Borders

def none : Borders := {}

def all : Borders := ⟨true, true, true, true⟩

def withSide? (borders : Borders) : Char → Option Borders
  | 'L' => some { borders with left := true }
  | 'T' => some { borders with top := true }
  | 'R' => some { borders with right := true }
  | 'B' => some { borders with bottom := true }
  | _ => Option.none

/-- `0` or nothing for no border, `1` for a frame, or the letters of the sides. -/
def parse? (value : List Char) : Option Borders :=
  match uppercase (trim value) with
  | [] | ['0'] => some none
  | ['1'] => some all
  | sides => sides.foldlM withSide? none

/-- The sides in the order in which they are drawn. -/
def letters (borders : Borders) : List Char :=
  (if borders.left then ['L'] else []) ++ (if borders.top then ['T'] else []) ++
    (if borders.right then ['R'] else []) ++ (if borders.bottom then ['B'] else [])

end Borders

/-- A cell of width zero reaches to the right margin. -/
structure CellLayout where
  width : Float32 := 0
  height : Float32 := 5
  borders : Borders := {}
  align : Alignment := .left
  fill : Bool := false
deriving Repr

namespace CellLayout

/-- A finite length that is not negative. -/
def length? (value : List Char) : Option Float32 :=
  (Decimal.parse? (trim value)).filter fun length => length.isFinite && decide (0 ≤ length)

/-- The value that `read` makes of the attribute, upper-cased, or the default. -/
def setting {α : Type} (attributes : Markup.Attributes) (name : String)
    (read : List Char → Option α) (default : α) : α :=
  ((attributes.get? name.toList).bind fun value => read (uppercase value)).getD default

def ofAttributes (attributes : Markup.Attributes) : CellLayout where
  width := setting attributes "W" length? 0
  height := setting attributes "H" length? 5
  borders := setting attributes "BORDER" Borders.parse? .none
  align := setting attributes "ALIGN" Alignment.parse? .left
  fill := setting attributes "FILL" (fun value => some (trim value == ['1'])) false

end CellLayout

end Letterhead
