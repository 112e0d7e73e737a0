import Letterhead.Decimal.Plain
import Letterhead.Json.Record
import Letterhead.Json.Value
import Letterhead.Surface.Paper

/-!
Layout settings, read from JSON and written as JSON. Settings with which no line could be laid out
are refused.
-/

namespace Letterhead

/-- Lengths are in millimetres, font sizes in points. -/
structure Config where
  page : PageSize := .a4
  margins : Margins := .standard
  fontSize : Float32 := 9
  /-- Between tags for small text. -/
  smallFontSize : Float32 := 6
  lineHeight : Float32 := 5
  fontFamily : List Char := "Helvetica".toList
  /-- From black, zero, to white, one. -/
  cellFillGray : Float32 := 0.85
deriving DecidableEq

inductive ConfigFault where
  | notPositive (setting : String) (value : Float32)
  | noWidth
  | noHeight

def ConfigFault.message : ConfigFault → String
  | .notPositive setting value => setting ++ " must be positive, got " ++ Decimal.text value
  | .noWidth => "horizontal margins leave no room on the page"
  | .noHeight => "vertical margins leave no room for a line"

namespace Config

/-! ### Validity -/

def positiveSettings (config : Config) : List (String × Float32) :=
  [("defaultFontSize", config.fontSize), ("smallFontSize", config.smallFontSize),
    ("lineHeight", config.lineHeight), ("page.width", config.page.width),
    ("page.height", config.page.height)]

def isPositive (value : Float32) : Bool := value.isFinite && decide (0 < value)

def fault? (config : Config) : Option ConfigFault :=
  match config.positiveSettings.find? fun setting => !isPositive setting.2 with
  | some (name, value) => some (.notPositive name value)
  | none =>
    let margins := config.margins
    if config.page.width ≤ margins.left + margins.right then some .noWidth
    else if config.page.height < margins.top + margins.bottom + config.lineHeight then some .noHeight
    else none

/-! ### What the surface needs -/

/-- A gray level out of range is as good as the nearest one in range. -/
def clampGray (level : Float32) : Float32 :=
  if level < 0 then 0 else if 1 < level then 1 else level

def paperSettings (config : Config) : PaperSettings where
  page := config.page
  margins := config.margins
  family := String.ofList config.fontFamily
  fontSize := config.fontSize
  fillGray := clampGray config.cellFillGray

/-! ### JSON -/

open Json (Member Value)

def floatField {α : Type} (name : String) (set : α → Float32 → α) : Member α where
  name
  read record source := do
    let (value, rest) ← Json.float source
    return (set record value, rest)

def pageFields : List (Member PageSize) :=
  [floatField "width" fun page width => { page with width },
    floatField "height" fun page height => { page with height }]

def marginFields : List (Member Margins) :=
  [floatField "top" fun margins top => { margins with top },
    floatField "left" fun margins left => { margins with left },
    floatField "right" fun margins right => { margins with right },
    floatField "bottom" fun margins bottom => { margins with bottom }]

def pageField : Member Config where
  name := "page"
  read config source := do
    let (page, rest) ← Json.record pageFields .a4 source
    return ({ config with page }, rest)

def marginsField : Member Config where
  name := "margins"
  read config source := do
    let (margins, rest) ← Json.record marginFields .standard source
    return ({ config with margins }, rest)

def familyField : Member Config where
  name := "fontFamily"
  read config source := do
    let (fontFamily, rest) ← Json.string source
    return ({ config with fontFamily }, rest)

def fields : List (Member Config) :=
  [pageField, marginsField,
    floatField "defaultFontSize" fun config fontSize => { config with fontSize },
    floatField "smallFontSize" fun config smallFontSize => { config with smallFontSize },
    floatField "lineHeight" fun config lineHeight => { config with lineHeight },
    familyField,
    floatField "cellFillGray" fun config cellFillGray => { config with cellFillGray }]

def ofJson (source : List Char) : Except Json.Fault Config := Json.wholeRecord fields {} source

def toJson (config : Config) : Value :=
  .object [
    ("page", .object [("width", .ofFloat config.page.width), ("height", .ofFloat config.page.height)]),
    ("margins", .object [("top", .ofFloat config.margins.top), ("left", .ofFloat config.margins.left),
      ("right", .ofFloat config.margins.right), ("bottom", .ofFloat config.margins.bottom)]),
    ("defaultFontSize", .ofFloat config.fontSize), ("smallFontSize", .ofFloat config.smallFontSize),
    ("lineHeight", .ofFloat config.lineHeight), ("fontFamily", .string config.fontFamily),
    ("cellFillGray", .ofFloat config.cellFillGray)]

end Config

end Letterhead
