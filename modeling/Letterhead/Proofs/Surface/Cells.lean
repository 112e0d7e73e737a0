import Letterhead.Proofs.Surface.Fragments
import Letterhead.Proofs.Surface.Runs

/-!
A cell is drawn in one place. It may begin a page, but only before anything of it is drawn. Then it
goes on that page as a whole: its filling and frame, single sides, text and underline, all from where
the cursor was when it was asked for, down from where the cursor is now.
-/

namespace Letterhead

/-- Where a cell is on its page, in millimetres from the top-left corner. -/
structure CellBox where
  x : Float32
  y : Float32
  width : Float32
  height : Float32

inductive Side where
  | left
  | top
  | right
  | bottom
deriving DecidableEq

namespace Side

/-- In the order in which they are drawn. -/
def all : List Side := [left, top, right, bottom]

def chosen (borders : Borders) : Side → Bool
  | left => borders.left
  | top => borders.top
  | right => borders.right
  | bottom => borders.bottom

end Side

namespace Paper

/-! ### What a cell looks like -/

variable (paper : Paper) (box : CellBox) (layout : CellLayout) (text : List Char)

/-- One rectangle for the filling and the frame. -/
def boxRectangle : Mark :=
  .rectangle (toPoints box.x) (flip (box.y + box.height) paper.settings.page.height)
    (toPoints box.width) (toPoints box.height)
    (if layout.fill then some paper.settings.fillGray else none)
    (if layout.borders = .all then some (toPoints ruleWidth) else none)

def boxSide : Side → Mark :=
  let left := toPoints box.x
  let right := toPoints (box.x + box.width)
  let top := flip box.y paper.settings.page.height
  let bottom := flip (box.y + box.height) paper.settings.page.height
  let rule := toPoints ruleWidth
  fun
  | .left => .line left top left bottom rule
  | .top => .line left top right top rule
  | .right => .line right top right bottom rule
  | .bottom => .line left bottom right bottom rule

/-- A text that begins at `x`, in the middle between the cursor's height and that of its box. -/
def textMarks (x y height : Float32) : List Mark :=
  let size := paper.fontSize / pointsPerMillimetre
  let baseline := y + 0.5 * height + 0.3 * size
  .text (Pdf.ascii (faceKey paper.variant)) paper.fontSize (toPoints x)
      (flip baseline paper.settings.page.height) (Text.WinAnsi.encode text) ::
    if paper.variant.underline then [paper.underlineMark x baseline text] else []

/-- All that a cell consists of, in the order in which it is drawn. -/
def cellDrawing : List Mark :=
  (if layout.fill ∨ layout.borders = .all then [paper.boxRectangle box layout] else []) ++
    (if layout.borders = .all then []
      else (Side.all.filter (Side.chosen layout.borders)).map (paper.boxSide box)) ++
    if text = [] then []
    else paper.textMarks text (paper.cellTextStart box.x box.width layout.align text) box.y box.height

/-- A cell of width zero reaches to the right margin. -/
def cellWidth : Float32 := if layout.width == 0 then paper.rightLimit - paper.x else layout.width

/-! ### How it is drawn -/

theorem sideMarks_eq (x width : Float32) : paper.sideMarks x width layout =
    if layout.borders = .all then []
    else (Side.all.filter (Side.chosen layout.borders)).map
      (paper.boxSide ⟨x, paper.y, width, layout.height⟩) := by
  rw [sideMarks]
  generalize layout.borders = borders
  split
  · rfl
  · rcases borders with ⟨left, top, right, bottom⟩
    cases left <;> cases top <;> cases right <;> cases bottom <;> rfl

/-- Puts marks on the current page, and gives warnings. -/
def put (marks : List Mark) (warnings : List String) : Paper :=
  { paper with
    current := { paper.current with drawn := marks.reverse ++ paper.current.drawn }
    warnings := paper.warnings ++ warnings }

theorem put_put (marks more : List Mark) (warnings others : List String) :
    (paper.put marks warnings).put more others = paper.put (marks ++ more) (warnings ++ others) := by
  simp [put]

theorem put_nil : paper.put [] [] = paper := by
  simp [put]

-- Neither a text nor its place depends on what is on the page already.
theorem textMarks_put (marks : List Mark) (warnings : List String) :
    (paper.put marks warnings).textMarks text = paper.textMarks text := rfl

theorem cellTextStart_put (marks : List Mark) (warnings : List String) :
    (paper.put marks warnings).cellTextStart = paper.cellTextStart := rfl

theorem foldl_draw_eq (marks : List Mark) : marks.foldl draw paper = paper.put marks [] := by
  induction marks generalizing paper with
  | nil => exact (put_nil paper).symm
  | cons mark rest ih =>
    have one : paper.draw mark = paper.put [mark] [] := by
      simp [draw, Page.draw, put]
    rw [List.foldl_cons, ih, one, put_put]
    rfl

theorem place_eq (x height : Float32) : paper.place x height text =
    paper.put (if text = [] then [] else paper.textMarks text x paper.y height) (replacements [text]) := by
  rcases text with _ | ⟨c, rest⟩
  · exact (put_nil paper).symm
  · rw [place, warnIfReplaced_eq, if_neg (by simp), if_neg (List.cons_ne_nil c rest), textMarks]
    split <;> rfl

-- A new page takes nothing from a cell but its height on the page.
theorem rightLimit_turnPageFor (height : Float32) :
    (paper.turnPageFor height).rightLimit = paper.rightLimit := by
  rw [turnPageFor]
  split <;> rfl

theorem cellDrawing_turnPageFor (height : Float32) :
    (paper.turnPageFor height).cellDrawing = paper.cellDrawing := by
  rw [turnPageFor]
  split <;> rfl

theorem warnings_turnPageFor (height : Float32) :
    (paper.turnPageFor height).warnings = paper.warnings := by
  rw [turnPageFor]
  split <;> rfl

theorem boxText_eq (content : List Char) : paper.boxText content layout =
    let ready := paper.turnPageFor layout.height
    let text := content.map flattenBreak
    let box : CellBox := ⟨paper.x, ready.y, paper.cellWidth layout, layout.height⟩
    { ready.put (paper.cellDrawing box layout text) (replacements [text]) with
      x := paper.x + paper.cellWidth layout } := by
  rw [boxText]
  simp only [rightLimit_turnPageFor, ← cellWidth.eq_def, ← cellDrawing_turnPageFor paper layout.height]
  generalize paper.turnPageFor layout.height = ready
  rw [place_eq, foldl_draw_eq, textMarks_put, cellTextStart_put, put_put, cellMarks, sideMarks_eq, cellDrawing]
  simp only [Bool.or_eq_true, decide_eq_true_eq]
  rfl

/-- The pages before the one on which a cell is drawn, that page as it is before that, the pages that
have been reported as ended, and the cursor's height. -/
structure Ready (paper : Paper) (front : List Page) (last : Page) (breaks : List Nat) (y : Float32) : Prop where
  pages : front ++ [last] = paper.pages
  breaks : breaks = paper.breaks
  y : y = paper.y

structure ReadyOnNewPage (paper : Paper) (front : List Page) (last : Page) (breaks : List Nat)
    (y : Float32) : Prop where
  pages : front = paper.pages
  blank : last = {}
  breaks : breaks = paper.breaks ++ [paper.currentPage]
  top : y = paper.settings.margins.top

variable {paper}

theorem turnPageFor_ready (opened : paper.closed = false) {height : Float32}
    (room : ¬ paper.lowerLimit < paper.y + height) :
    let ready := paper.turnPageFor height
    paper.Ready ready.finished ready.current ready.breaks ready.y := by
  rw [turnPageFor, if_neg room]
  exact ⟨(pages_eq_sheets opened).symm, rfl, rfl⟩

theorem turnPageFor_readyOnNewPage (opened : paper.closed = false) {height : Float32}
    (low : paper.lowerLimit < paper.y + height) :
    let ready := paper.turnPageFor height
    paper.ReadyOnNewPage ready.finished ready.current ready.breaks ready.y := by
  rw [turnPageFor, if_pos low]
  exact ⟨(pages_eq_sheets opened).symm, rfl, by rw [currentPage_eq opened]; rfl, rfl⟩

theorem answer_boxText (destination : Destination) (opened : paper.closed = false) (content : List Char)
    {layout : CellLayout} (tall : ¬ layout.height < 0) (wide : ¬ layout.width < 0) :
    (surface destination).answer (.boxText content layout) paper = (.ok (), paper.boxText content layout) := by
  simp [surface, answer, opened, tall, wide]

/-- A cell breaks one page at most, and only before it is drawn. All of it goes on the page that is the
last one then, after what is on that page already. It begins where the cursor was, also if a page was
broken, and the cursor goes no further down than to the top margin of a new page. -/
theorem draws_cell_in_one_place (destination : Destination) (opened : paper.closed = false)
    (content : List Char) (layout : CellLayout) (tall : ¬ layout.height < 0) (wide : ¬ layout.width < 0) :
    let outcome := (surface destination).answer (.boxText content layout) paper
    let after := outcome.2
    let text := content.map flattenBreak
    let box : CellBox := ⟨paper.x, after.y, paper.cellWidth layout, layout.height⟩
    outcome.1 = .ok () ∧
      ∃ front last page,
        (if paper.lowerLimit < paper.y + layout.height
          then paper.ReadyOnNewPage front last after.breaks after.y
          else paper.Ready front last after.breaks after.y) ∧
          after.pages = front ++ [page] ∧ page.backdrop = last.backdrop ∧
          page.marks = last.marks ++ paper.cellDrawing box layout text ∧
          after.x = paper.x + paper.cellWidth layout ∧
          after.warnings = paper.warnings ++ replacements [text] ∧ Kept paper after := by
  have drawn := answer_boxText destination opened content tall wide
  have kept := boxText_kept paper content layout
  have pages := pages_eq_sheets (kept.closed.trans opened)
  intro outcome after text box
  simp only [box, text, after, outcome, drawn, pages]
  rw [boxText_eq] at kept ⊢
  refine ⟨trivial, (paper.turnPageFor layout.height).finished, (paper.turnPageFor layout.height).current, _,
    ?_, rfl, rfl, ?_, rfl, ?_, kept⟩
  · split
    · exact turnPageFor_readyOnNewPage opened ‹_›
    · exact turnPageFor_ready opened ‹_›
  · simp [put, Page.marks]
  · exact congrArg (· ++ replacements [text]) (warnings_turnPageFor paper layout.height)

/-- Like the paper with room for two lines, with underlined text. -/
def underlined : Paper := { halfFull with variant := ⟨false, false, true⟩ }

/-- Taller than the page. -/
def tag : CellLayout := { width := 10, height := 30, borders := ⟨true, false, false, true⟩, fill := true }

theorem tag_on_new_page :
    underlined.closed = false ∧ ¬ tag.height < 0 ∧ ¬ tag.width < 0 ∧
      let after := ((surface fun _ => .ok ()).answer (.boxText "a\nb".toList tag) underlined).2
      after.breaks = [1] ∧ ∃ page, after.pages = underlined.pages ++ [page] ∧
        page.marks = underlined.cellDrawing ⟨12, 5, 10, 30⟩ tag "a b".toList ∧ page.marks.length = 5 := by
  have opened : underlined.closed = false := rfl
  have tall : ¬ tag.height < 0 := by decide
  have wide : ¬ tag.width < 0 := by decide
  obtain ⟨-, front, last, page, ready, pages, -, marks, -⟩ :=
    draws_cell_in_one_place (fun _ => .ok ()) opened "a\nb".toList tag tall wide
  rw [if_pos (by decide +kernel)] at ready
  obtain ⟨same, blank, breaks, top⟩ := ready
  have drawn : page.marks = underlined.cellDrawing ⟨12, 5, 10, 30⟩ tag "a b".toList := by
    rw [marks, blank, top]
    rfl
  exact ⟨opened, tall, wide, breaks, page, same ▸ pages, drawn, by rw [drawn]; rfl⟩

end Paper

end Letterhead
