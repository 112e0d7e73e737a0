import Letterhead.Geometry
import Letterhead.Pdf.Document
import Letterhead.Surface.Basic
import Letterhead.Surface.Page
import Letterhead.Template.Import
import Letterhead.Text.Encoding

/-!
A surface that assembles a PDF. A cursor in millimetres from the top-left corner moves over the
current page; text flows between the side margins and is broken at spaces, or between characters
where a word is wider than a line; a page ends when the next line or cell would cross the bottom
margin. Template pages become forms, imported once each.
-/

namespace Letterhead

open Pdf (Object ObjectId Dictionary Document Bytes ascii)

structure PaperSettings where
  page : PageSize := .a4
  margins : Margins := .standard
  family : String := "Helvetica"
  fontSize : Float32 := 9
  /-- From black, zero, to white, one. -/
  fillGray : Float32 := 0.85

/-- Takes the finished document, or refuses it with a reason. -/
abbrev Destination := Document → Except String Unit

structure Paper where
  settings : PaperSettings
  template : Option Template
  imports : Import := ⟨{}, {}⟩
  /-- The forms imported so far, ascending by template page. -/
  forms : List (Nat × ObjectId) := []
  finished : List Page := []
  current : Page := {}
  x : Float32
  y : Float32
  fontSize : Float32
  variant : FontStyle := .plain
  breaks : List Nat := []
  warnings : List String := []
  closed : Bool := false
  written : Option Document := none

namespace Paper

/-- Horizontal padding between the edge of a cell and its text. -/
def cellInset : Float32 := 1

def ruleWidth : Float32 := 0.2

def new (settings : PaperSettings) (template : Option Template) : Paper where
  settings
  template
  x := settings.margins.left
  y := settings.margins.top
  fontSize := settings.fontSize

/-- The pages are gone once they are written. -/
def currentPage (paper : Paper) : Nat :=
  if paper.closed then 0 else paper.finished.length + 1

def pages (paper : Paper) : List Page :=
  if paper.closed then [] else paper.finished ++ [paper.current]

def rightLimit (paper : Paper) : Float32 := paper.settings.page.width - paper.settings.margins.right

def lowerLimit (paper : Paper) : Float32 :=
  paper.settings.page.height - paper.settings.margins.bottom

def measure (paper : Paper) (text : List Char) : Float32 := textExtent text paper.fontSize

def draw (paper : Paper) (mark : Mark) : Paper := { paper with current := paper.current.draw mark }

/-- The name under which pages refer to a face of the family. -/
def faceKey (variant : FontStyle) : String :=
  match variant.bold, variant.italic with
  | false, false => "F1"
  | true, false => "F2"
  | false, true => "F3"
  | true, true => "F4"

def formKey (templatePage : Nat) : Bytes := ascii "Tpl" ++ Pdf.digitBytes templatePage

/-! ### Pages and lines -/

/-- Goes on at the top of a new page, as far from the left edge as before. -/
def turnPage (paper : Paper) : Paper :=
  { paper with
    breaks := paper.breaks ++ [paper.finished.length + 1]
    finished := paper.finished ++ [paper.current]
    current := {}
    y := paper.settings.margins.top }

def turnPageFor (paper : Paper) (height : Float32) : Paper :=
  if paper.lowerLimit < paper.y + height then paper.turnPage else paper

def startLine (paper : Paper) (lineHeight : Float32) : Paper :=
  { paper with x := paper.settings.margins.left, y := paper.y + lineHeight }

/-! ### Text -/

def warnIfReplaced (paper : Paper) (text : List Char) : Paper :=
  if Text.WinAnsi.replaces text then
    { paper with
      warnings := paper.warnings ++
        ["Characters outside WinAnsi replaced with '?' in \"" ++ String.ofList text ++ "\""] }
  else paper

/-- The line under a text, without the blanks at its end. -/
def underlineMark (paper : Paper) (x baseline : Float32) (text : List Char) : Mark :=
  let size := paper.fontSize / pointsPerMillimetre
  let width := paper.measure (Text.trimEnd text)
  let top := baseline + 0.1 * size
  let thickness := 0.05 * size
  .rectangle (toPoints x) (flip (top + thickness) paper.settings.page.height)
    (toPoints width) (toPoints thickness) (some 0) none

/-- Draws text in a box of the given height below the cursor, centred vertically. -/
def place (paper : Paper) (x height : Float32) (text : List Char) : Paper :=
  if text.isEmpty then paper
  else
    let size := paper.fontSize / pointsPerMillimetre
    let baseline := paper.y + 0.5 * height + 0.3 * size
    let drawn := (paper.warnIfReplaced text).draw <|
      .text (ascii (faceKey paper.variant)) paper.fontSize (toPoints x)
        (flip baseline paper.settings.page.height) (Text.WinAnsi.encode text)
    if paper.variant.underline then drawn.draw (paper.underlineMark x baseline text) else drawn

/-- Draws a fragment of a line, on the next page if it does not fit this one. -/
def emit (paper : Paper) (x lineHeight : Float32) (text : List Char) : Paper :=
  if text.isEmpty then paper else (paper.turnPageFor lineHeight).place x lineHeight text

/-- A line under construction: its text, where it starts and how wide it is. -/
structure Line where
  paper : Paper
  text : List Char
  start : Float32
  width : Float32

namespace Line

def flush (lineHeight : Float32) (line : Line) : Line :=
  let paper := (line.paper.emit line.start lineHeight line.text).startLine lineHeight
  ⟨paper, [], paper.x, 0⟩

def append (line : Line) (text : List Char) : Line :=
  { line with text := line.text ++ text, width := line.width + line.paper.measure text }

/-- Whether something of this width, put at the end of the line, would cross the right edge. -/
def overflows (line : Line) (width : Float32) : Bool :=
  line.paper.rightLimit < line.start + line.width + width

def letter (lineHeight : Float32) (line : Line) (c : Char) : Line :=
  let fitting :=
    if line.overflows (line.paper.measure [c]) && !line.text.isEmpty then line.flush lineHeight
    else line
  fitting.append [c]

/-- Leaves a line that has something on it already. -/
def makeRoom (lineHeight : Float32) (line : Line) : Line :=
  if !line.text.isEmpty then line.flush lineHeight
  else if line.paper.settings.margins.left < line.start then
    let paper := line.paper.startLine lineHeight
    { line with paper, start := paper.x }
  else line

/-- The space at the end of a word may cross the right edge. -/
def word (lineHeight : Float32) (line : Line) (word : List Char) : Line :=
  let visible := line.paper.measure (word.filter (· != ' '))
  if line.overflows visible then
    let roomy := line.makeRoom lineHeight
    if roomy.paper.rightLimit < roomy.start + visible then word.foldl (letter lineHeight) roomy
    else roomy.append word
  else line.append word

end Line

/-- Flows a text without line breaks from the cursor on. -/
def flowLine (lineHeight : Float32) (paper : Paper) (segment : List Char) : Paper :=
  let last := (Text.words ' ' segment).foldl (Line.word lineHeight) ⟨paper, [], paper.x, 0⟩
  { last.paper.emit last.start lineHeight last.text with x := last.start + last.width }

def flowLines (lineHeight : Float32) (paper : Paper) : List (List Char) → Paper
  | [] => paper
  | [segment] => paper.flowLine lineHeight segment
  | segment :: rest =>
    ((paper.flowLine lineHeight segment).startLine lineHeight).flowLines lineHeight rest

/-- Carriage returns are left out; line feeds begin new lines. -/
def flowText (paper : Paper) (lineHeight : Float32) (content : List Char) : Paper :=
  paper.flowLines lineHeight (Text.pieces '\n' (content.filter (· != '\r')))

/-! ### Cells -/

def frameMark (paper : Paper) (x width : Float32) (layout : CellLayout) : Mark :=
  .rectangle (toPoints x) (flip (paper.y + layout.height) paper.settings.page.height)
    (toPoints width) (toPoints layout.height)
    (if layout.fill then some paper.settings.fillGray else none)
    (if layout.borders = .all then some (toPoints ruleWidth) else none)

/-- The sides that are drawn one by one. -/
def sideMarks (paper : Paper) (x width : Float32) (layout : CellLayout) : List Mark :=
  if layout.borders = .all then []
  else
    let left := toPoints x
    let right := toPoints (x + width)
    let top := flip paper.y paper.settings.page.height
    let bottom := flip (paper.y + layout.height) paper.settings.page.height
    let stroke := toPoints ruleWidth
    (if layout.borders.left then [.line left top left bottom stroke] else []) ++
    (if layout.borders.top then [.line left top right top stroke] else []) ++
    (if layout.borders.right then [.line right top right bottom stroke] else []) ++
    (if layout.borders.bottom then [.line left bottom right bottom stroke] else [])

def cellMarks (paper : Paper) (x width : Float32) (layout : CellLayout) : List Mark :=
  (if layout.fill || layout.borders = .all then [paper.frameMark x width layout] else []) ++
    paper.sideMarks x width layout

def cellTextStart (paper : Paper) (x width : Float32) (align : Alignment) (text : List Char) : Float32 :=
  match align with
  | .left => x + cellInset
  | .center => x + (width - paper.measure text) / 2
  | .right => x + width - cellInset - paper.measure text

def flattenBreak (c : Char) : Char := if c = '\r' ∨ c = '\n' then ' ' else c

/-- A cell that does not fit the page is drawn whole on the next one. -/
def boxText (paper : Paper) (content : List Char) (layout : CellLayout) : Paper :=
  let x := paper.x
  let paper := paper.turnPageFor layout.height
  let width := if layout.width == 0 then paper.rightLimit - x else layout.width
  let framed := (paper.cellMarks x width layout).foldl draw paper
  let text := content.map flattenBreak
  { framed.place (framed.cellTextStart x width layout.align text) layout.height text with
    x := x + width }

/-! ### Template pages -/

/-- Page numbers of a template have 32 bits. -/
def templatePageLimit : Nat := 0x100000000

def insertForm (page : Nat) (form : ObjectId) : List (Nat × ObjectId) → List (Nat × ObjectId)
  | [] => [(page, form)]
  | entry :: rest =>
    if page ≤ entry.1 then (page, form) :: entry :: rest else entry :: insertForm page form rest

/-- Imports the template page unless that has been done. What a failed import has copied stays. -/
def requireForm (paper : Paper) (template : Template) (templatePage : Nat) :
    Except DrawFault Unit × Paper :=
  if (paper.forms.lookup templatePage).isSome then (.ok (), paper)
  else if templatePageLimit ≤ templatePage then
    (.error (.template ("Template page " ++ toString templatePage ++ " is out of range")), paper)
  else
    match template.importForm templatePage paper.imports with
    | (.error fault, imports) => (.error (.template fault.message), { paper with imports })
    | (.ok form, imports) =>
      (.ok (), { paper with imports, forms := insertForm templatePage form paper.forms })

/-- The last stamp on a page counts. -/
def putBehind (paper : Paper) (page : Nat) (name : Bytes) : Paper :=
  if page ≤ paper.finished.length then
    { paper with
      finished := paper.finished.modify (page - 1) fun drawn => { drawn with backdrop := some name } }
  else { paper with current := { paper.current with backdrop := some name } }

def stamp (paper : Paper) (page templatePage : Nat) : Except DrawFault Unit × Paper :=
  match paper.template with
  | none => (.error .noTemplate, paper)
  | some template =>
    if page = 0 ∨ paper.currentPage < page then (.error (.pageOutOfRange page), paper)
    else
      match paper.requireForm template templatePage with
      | (.error fault, paper) => (.error fault, paper)
      | (.ok (), paper) => (.ok (), paper.putBehind page (formKey templatePage))

/-! ### The finished document -/

def fontFaces : List FontStyle :=
  [⟨false, false, false⟩, ⟨true, false, false⟩, ⟨false, true, false⟩, ⟨true, true, false⟩]

def fontEntry (family : String) (variant : FontStyle) : Bytes × Object :=
  (ascii (faceKey variant),
    .dictionary (Dictionary.ofList [("Type", .ofName "Font"), ("Subtype", .ofName "Type1"),
      ("BaseFont", .name (faceName family variant).toUTF8.toList),
      ("Encoding", .ofName "WinAnsiEncoding")]))

def resources (paper : Paper) : Object :=
  .dictionary (Dictionary.ofList [
    ("Font", .dictionary (fontFaces.map (fontEntry paper.settings.family))),
    ("XObject", .dictionary (paper.forms.map fun form =>
      (formKey form.1, .reference form.2)))])

def mediaBox (paper : Paper) : Object :=
  .array [.integer 0, .integer 0, .real (toPoints paper.settings.page.width),
    .real (toPoints paper.settings.page.height)]

/-- The document with the page and its content, and the ids of the pages so far. -/
def addPage (paper : Paper) (resources tree : ObjectId) (state : Document × List Object)
    (page : Page) : Document × List Object :=
  let (document, kids) := state
  let content := document.nextId
  let document := document.add (.ofStream [] (Pdf.contentBytes page.content))
  let node := Object.dictionary (Dictionary.ofList [("Type", .ofName "Page"), ("Parent", .reference tree),
    ("MediaBox", paper.mediaBox), ("Contents", .reference content),
    ("Resources", .reference resources)])
  (document.add node, kids ++ [.reference document.nextId])

def assemble (paper : Paper) : Document :=
  let document := paper.imports.target
  let resources := document.nextId
  let document := document.add paper.resources
  let tree := document.nextId
  let (document, kids) :=
    paper.pages.foldl (paper.addPage resources tree) (document.reserve, [])
  let document := document.insert tree <| .dictionary <|
    Dictionary.ofList [("Type", .ofName "Pages"), ("Kids", .array kids), ("Count", .integer kids.length)]
  let catalog := document.nextId
  let document := document.add <| .dictionary <|
    Dictionary.ofList [("Type", .ofName "Catalog"), ("Pages", .reference tree)]
  { document with trailer := document.trailer.set (ascii "Root") (.reference catalog) }

def publish (paper : Paper) (destination : Destination) : Except DrawFault Unit × Paper :=
  let document := paper.assemble
  let emptied := { paper with closed := true, finished := [], current := {} }
  match destination document with
  | .error reason => (.error (.io reason), emptied)
  | .ok () => (.ok (), { emptied with written := some document })

/-! ### The surface -/

def answer (destination : Destination) (call : Call) (paper : Paper) :
    Except DrawFault Unit × Paper :=
  if paper.closed then (.error .closed, paper)
  else match call with
    | .selectStyle variant => (.ok (), { paper with variant })
    | .selectSize size =>
      if size.isFinite ∧ 0 < size then (.ok (), { paper with fontSize := size })
      else (.error (.invalidFontSize size), paper)
    | .flowText lineHeight content => (.ok (), paper.flowText lineHeight content)
    | .boxText content layout =>
      if layout.height < 0 ∨ layout.width < 0 then
        (.error (.invalidCellSize layout.width layout.height), paper)
      else (.ok (), paper.boxText content layout)
    | .stamp page templatePage => paper.stamp page templatePage
    | .write => paper.publish destination

def drainBreaks (paper : Paper) : List Nat × Paper := (paper.breaks, { paper with breaks := [] })

def drainWarnings (paper : Paper) : List String × Paper :=
  (paper.warnings, { paper with warnings := [] })

def surface (destination : Destination) : Surface Paper where
  answer := answer destination
  currentPage := currentPage
  drainBreaks := drainBreaks
  drainWarnings := drainWarnings

end Paper

end Letterhead
