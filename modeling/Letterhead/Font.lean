import Letterhead.Text.Uppercase

/-!
Font variants and the faces that show them. A family has four faces; underlining is drawn.
-/

namespace Letterhead

structure FontStyle where
  bold : Bool
  italic : Bool
  underline : Bool
deriving DecidableEq, Repr

namespace FontStyle

def plain : FontStyle := ⟨false, false, false⟩

/-- Any text with the letters B, I and U among its capitals. -/
def parse (variant : List Char) : FontStyle :=
  let letters := Text.uppercase variant
  ⟨letters.contains 'B', letters.contains 'I', letters.contains 'U'⟩

def letters (variant : FontStyle) : List Char :=
  (if variant.bold then ['B'] else []) ++ (if variant.italic then ['I'] else []) ++
    (if variant.underline then ['U'] else [])

theorem parse_letters (variant : FontStyle) : parse variant.letters = variant := by
  obtain ⟨bold, italic, underline⟩ := variant
  cases bold <;> cases italic <;> cases underline <;> rfl

end FontStyle

/-- The standard name of the family's face, such as `Helvetica-BoldOblique`. -/
def faceName (family : String) (variant : FontStyle) : String :=
  if variant.bold || variant.italic then
    family ++ "-" ++ (if variant.bold then "Bold" else "") ++ (if variant.italic then "Oblique" else "")
  else family

end Letterhead
