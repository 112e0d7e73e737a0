import Letterhead.Surface.Paper

/-!
Flowing text and drawing cells as runs of small steps: text put down, a rule drawn, a page turned,
the cursor moved. However a text is wrapped, the pieces that are put down make it up in order.
-/

namespace Letterhead

open Pdf (Bytes)

def Mark.isText : Mark → Bool
  | .text .. => true
  | _ => false

namespace Paper

-- The second paper is the first one after these texts were put down on it, in this order.
inductive Draws (paper : Paper) : List (List Char) → Paper → Prop
  | stay : Draws paper [] paper
  | place {texts : List (List Char)} {after : Paper} (x height : Float32) {text : List Char}
      (some : text ≠ []) (draws : Draws paper texts after) :
      Draws paper (texts ++ [text]) (after.place x height text)
  | rule {texts : List (List Char)} {after : Paper} {mark : Mark} (plain : mark.isText = false)
      (draws : Draws paper texts after) : Draws paper texts (after.draw mark)
  | turn {texts : List (List Char)} {after : Paper} (draws : Draws paper texts after) :
      Draws paper texts after.turnPage
  | move {texts : List (List Char)} {after : Paper} (x y : Float32)
      (draws : Draws paper texts after) : Draws paper texts { after with x, y }

variable {paper middle after : Paper} {texts more : List (List Char)}

theorem Draws.trans (one : Draws paper texts middle) (two : Draws middle more after) :
    Draws paper (texts ++ more) after := by
  induction two with
  | stay => rwa [List.append_nil]
  | place x height some _ ih =>
    rw [← List.append_assoc]
    exact .place x height some ih
  | rule plain _ ih => exact .rule plain ih
  | turn _ ih => exact .turn ih
  | move x y _ ih => exact .move x y ih

theorem Draws.turnPageFor (draws : Draws paper texts after) (height : Float32) :
    Draws paper texts (after.turnPageFor height) := by
  rw [Paper.turnPageFor]
  split
  · exact .turn draws
  · exact draws

theorem Draws.startLine (draws : Draws paper texts after) (lineHeight : Float32) :
    Draws paper texts (after.startLine lineHeight) :=
  .move _ _ draws

theorem Draws.rules (draws : Draws paper texts after) (marks : List Mark)
    (plain : ∀ mark ∈ marks, mark.isText = false) : Draws paper texts (marks.foldl draw after) := by
  induction marks generalizing after with
  | nil => exact draws
  | cons mark rest ih =>
    apply ih (.rule (plain mark List.mem_cons_self) draws)
    intro later member
    exact plain later (List.mem_cons_of_mem _ member)

/-! ### Flowing text -/

namespace Line

/-- Something holds of a line and the text that has come so far, however the text is wrapped. -/
structure Keeps (lineHeight : Float32) (holds : List Char → Line → Prop) : Prop where
  flush {text : List Char} {line : Line} (before : holds text line) :
    holds text (line.flush lineHeight)
  skip {text : List Char} {line : Line} (before : holds text line) :
    holds text { line with
      paper := line.paper.startLine lineHeight, start := line.paper.settings.margins.left }
  append {text : List Char} {line : Line} (before : holds text line) (added : List Char) :
    holds (text ++ added) (line.append added)

namespace Keeps

variable {lineHeight : Float32} {holds : List Char → Line → Prop} {line : Line} {text : List Char}
variable (keeps : Keeps lineHeight holds)

include keeps

theorem letter (before : holds text line) (c : Char) : holds (text ++ [c]) (line.letter lineHeight c) := by
  rw [Line.letter]
  split
  · exact keeps.append (keeps.flush before) [c]
  · exact keeps.append before [c]

theorem letters (before : holds text line) (word : List Char) :
    holds (text ++ word) (word.foldl (Line.letter lineHeight) line) := by
  induction word generalizing line text with
  | nil => rwa [List.append_nil]
  | cons c rest ih =>
    rw [List.append_cons]
    exact ih (keeps.letter before c)

theorem makeRoom (before : holds text line) : holds text (line.makeRoom lineHeight) := by
  rw [Line.makeRoom]
  split
  · exact keeps.flush before
  · split
    · exact keeps.skip before
    · exact before

theorem word (before : holds text line) (word : List Char) :
    holds (text ++ word) (line.word lineHeight word) := by
  rw [Line.word]
  split
  · simp only
    split
    · exact keeps.letters (keeps.makeRoom before) word
    · exact keeps.append (keeps.makeRoom before) word
  · exact keeps.append before word

theorem words (before : holds text line) (words : List (List Char)) :
    holds (text ++ words.flatten) (words.foldl (Line.word lineHeight) line) := by
  induction words generalizing line text with
  | nil => rwa [List.flatten_nil, List.append_nil]
  | cons word rest ih =>
    rw [List.flatten_cons, ← List.append_assoc]
    exact ih (keeps.word before word)

end Keeps

-- What has been put down since `paper`, and then the text of the line, make up `text`.
def Holds (paper : Paper) (text : List Char) (line : Line) : Prop :=
  ∃ texts, Draws paper texts line.paper ∧ texts.flatten ++ line.text = text

end Line

-- Putting down no text at all changes nothing, so it is not a step.
theorem Draws.emit (draws : Draws paper texts after) (x lineHeight : Float32) (text : List Char) :
    ∃ placed, Draws paper (texts ++ placed) (after.emit x lineHeight text) ∧
      placed.flatten = text := by
  rcases text with _ | ⟨c, rest⟩
  · exact ⟨[], by simpa [Paper.emit] using draws, rfl⟩
  · refine ⟨[c :: rest], ?_, List.append_nil _⟩
    simp only [Paper.emit, List.isEmpty_cons, Bool.false_eq_true, if_false]
    exact .place _ _ (List.cons_ne_nil c rest) (draws.turnPageFor lineHeight)

theorem Line.keeps_holds (paper : Paper) (lineHeight : Float32) :
    Line.Keeps lineHeight (Line.Holds paper) where
  flush {_ line} before := by
    obtain ⟨texts, draws, same⟩ := before
    obtain ⟨placed, emitted, held⟩ := draws.emit line.start lineHeight line.text
    refine ⟨texts ++ placed, emitted.startLine lineHeight, ?_⟩
    simp [Line.flush, held, same]
  skip before := by
    obtain ⟨texts, draws, same⟩ := before
    exact ⟨texts, draws.startLine lineHeight, same⟩
  append before added := by
    obtain ⟨texts, draws, same⟩ := before
    exact ⟨texts, draws, by rw [Line.append, ← List.append_assoc, same]⟩

variable (lineHeight : Float32)

theorem Draws.flowLine (draws : Draws paper texts after) (segment : List Char) :
    ∃ placed, Draws paper (texts ++ placed) (after.flowLine lineHeight segment) ∧
      placed.flatten = segment := by
  have empty : Line.Holds after [] ⟨after, [], after.x, 0⟩ := ⟨[], .stay, rfl⟩
  obtain ⟨whole, drawn, same⟩ := (Line.keeps_holds after lineHeight).words empty
    (Text.words ' ' segment)
  obtain ⟨last, emitted, rest⟩ := drawn.emit _ lineHeight _
  refine ⟨whole ++ last, draws.trans (.move _ _ emitted), ?_⟩
  rw [List.flatten_append, rest, same, Text.flatten_words, List.nil_append]

theorem Draws.flowLines (draws : Draws paper texts after) (segments : List (List Char)) :
    ∃ placed, Draws paper (texts ++ placed) (after.flowLines lineHeight segments) ∧
      placed.flatten = segments.flatten := by
  induction segments generalizing after texts with
  | nil => exact ⟨[], by rwa [List.append_nil], rfl⟩
  | cons segment rest ih =>
    obtain ⟨first, drawn, same⟩ := draws.flowLine lineHeight segment
    rcases rest with _ | ⟨next, others⟩
    · exact ⟨first, drawn, by rw [same, List.flatten_singleton]⟩
    · obtain ⟨later, whole, held⟩ := ih (drawn.startLine lineHeight)
      rw [List.append_assoc] at whole
      exact ⟨first ++ later, whole, by rw [List.flatten_append, same, held]; rfl⟩

end Paper

theorem Text.flatten_pieces {α : Type} [BEq α] (separator : α) (text : List α) :
    (pieces separator text).flatten = text.filter (· != separator) := by
  induction text with
  | nil => rfl
  | cons c rest ih =>
    by_cases cut : c == separator
    · simp [pieces, cut, ih, bne]
    · rcases found : pieces separator rest with _ | ⟨first, others⟩
      · exact absurd found (pieces_ne_nil separator rest)
      · rw [found, List.flatten_cons] at ih
        simp [pieces, cut, found, ih, bne]

namespace Paper

def isBreak (c : Char) : Bool := c == '\r' || c == '\n'

theorem flowText_draws (paper : Paper) (lineHeight : Float32) (content : List Char) :
    ∃ texts, Draws paper texts (paper.flowText lineHeight content) ∧
      texts.flatten = content.filter (!isBreak ·) := by
  obtain ⟨texts, draws, same⟩ := Draws.stay.flowLines lineHeight
    (Text.pieces '\n' (content.filter (· != '\r')))
  refine ⟨texts, draws, ?_⟩
  rw [same, Text.flatten_pieces, List.filter_filter]
  apply List.filter_congr
  intro c _
  simp [isBreak, bne, Bool.and_comm]

/-! ### Cells -/

theorem cellMarks_plain (paper : Paper) (x width : Float32) (layout : CellLayout) :
    ∀ mark ∈ paper.cellMarks x width layout, mark.isText = false := by
  intro mark member
  simp only [cellMarks, frameMark, sideMarks, List.mem_append] at member
  rcases member with framed | sided
  · split at framed <;> simp at framed
    rw [framed]
    rfl
  · split at sided
    · simp at sided
    · simp only [List.mem_append] at sided
      rcases sided with ((side | side) | side) | side <;> split at side <;> simp at side <;>
        rw [side] <;> rfl

theorem boxText_draws (paper : Paper) (content : List Char) (layout : CellLayout) :
    ∃ texts, Draws paper texts (paper.boxText content layout) ∧
      texts.flatten = content.map flattenBreak := by
  have turned : Draws paper [] (paper.turnPageFor layout.height) :=
    Draws.stay.turnPageFor layout.height
  have framed := turned.rules _ (cellMarks_plain (paper.turnPageFor layout.height) paper.x
    (if layout.width == 0 then (paper.turnPageFor layout.height).rightLimit - paper.x
      else layout.width) layout)
  rcases content with _ | ⟨c, rest⟩
  · exact ⟨[], .move _ _ (by simpa [place] using framed), rfl⟩
  · exact ⟨[(c :: rest).map flattenBreak], .move _ _ (.place _ _ (by simp) framed), by simp⟩

/-! ### Calls that only change how text is set -/

theorem answer_selectStyle (destination : Destination) (opened : paper.closed = false)
    (variant : FontStyle) :
    (surface destination).answer (.selectStyle variant) paper = (.ok (), { paper with variant }) := by
  simp [surface, answer, opened]

theorem answer_selectSize (destination : Destination) (opened : paper.closed = false)
    {size : Float32} (accepted : size.isFinite ∧ 0 < size) :
    (surface destination).answer (.selectSize size) paper =
      (.ok (), { paper with fontSize := size }) := by
  simp [surface, answer, opened, accepted]

/-! ### What drawing leaves alone -/

structure Kept (before after : Paper) : Prop where
  settings : after.settings = before.settings
  template : after.template = before.template
  imports : after.imports = before.imports
  forms : after.forms = before.forms
  fontSize : after.fontSize = before.fontSize
  variant : after.variant = before.variant
  closed : after.closed = before.closed
  written : after.written = before.written

theorem Kept.trans (one : Kept paper middle) (two : Kept middle after) : Kept paper after where
  settings := two.settings.trans one.settings
  template := two.template.trans one.template
  imports := two.imports.trans one.imports
  forms := two.forms.trans one.forms
  fontSize := two.fontSize.trans one.fontSize
  variant := two.variant.trans one.variant
  closed := two.closed.trans one.closed
  written := two.written.trans one.written

theorem place_kept (paper : Paper) (x height : Float32) (text : List Char) :
    Kept paper (paper.place x height text) := by
  rw [place]
  split
  · exact ⟨rfl, rfl, rfl, rfl, rfl, rfl, rfl, rfl⟩
  · simp only [warnIfReplaced]
    split <;> split <;> exact ⟨rfl, rfl, rfl, rfl, rfl, rfl, rfl, rfl⟩

theorem Draws.kept (draws : Draws paper texts after) : Kept paper after := by
  induction draws with
  | stay => exact ⟨rfl, rfl, rfl, rfl, rfl, rfl, rfl, rfl⟩
  | place x height _ _ ih => exact ih.trans (place_kept _ x height _)
  | rule _ _ ih | turn _ ih | move _ _ _ ih => exact ih.trans ⟨rfl, rfl, rfl, rfl, rfl, rfl, rfl, rfl⟩

theorem emit_kept (lineHeight : Float32) (paper : Paper) (x : Float32) (text : List Char) :
    Kept paper (paper.emit x lineHeight text) := by
  obtain ⟨placed, draws, -⟩ := (Draws.stay : Draws paper [] paper).emit x lineHeight text
  exact draws.kept

theorem flowLine_kept (lineHeight : Float32) (paper : Paper) (segment : List Char) :
    Kept paper (paper.flowLine lineHeight segment) := by
  obtain ⟨placed, draws, -⟩ := (Draws.stay : Draws paper [] paper).flowLine lineHeight segment
  exact draws.kept

theorem flowLines_kept (lineHeight : Float32) (paper : Paper) (segments : List (List Char)) :
    Kept paper (paper.flowLines lineHeight segments) := by
  obtain ⟨placed, draws, -⟩ := (Draws.stay : Draws paper [] paper).flowLines lineHeight segments
  exact draws.kept

theorem flowText_kept (lineHeight : Float32) (paper : Paper) (content : List Char) :
    Kept paper (paper.flowText lineHeight content) :=
  flowLines_kept lineHeight paper _

theorem boxText_kept (paper : Paper) (content : List Char) (layout : CellLayout) :
    Kept paper (paper.boxText content layout) := by
  obtain ⟨texts, draws, -⟩ := paper.boxText_draws content layout
  exact draws.kept

/-! ### Pages that end while something is drawn -/

-- The pages so far, the current one last.
def sheets (paper : Paper) : List Page := paper.finished ++ [paper.current]

theorem pages_eq_sheets {paper : Paper} (opened : paper.closed = false) :
    paper.pages = paper.sheets := by
  rw [pages, if_neg (by simp [opened]), sheets]

theorem currentPage_eq {paper : Paper} (opened : paper.closed = false) :
    paper.currentPage = paper.finished.length + 1 := by
  rw [currentPage, if_neg (by simp [opened])]

def backdrops (paper : Paper) : List (Option Bytes) := paper.sheets.map Page.backdrop

@[simp] theorem backdrops_draw (paper : Paper) (mark : Mark) :
    (paper.draw mark).backdrops = paper.backdrops := by
  simp [backdrops, sheets, draw, Page.draw]

@[simp] theorem backdrops_warnIfReplaced (paper : Paper) (text : List Char) :
    (paper.warnIfReplaced text).backdrops = paper.backdrops := by
  rw [warnIfReplaced]
  split <;> rfl

@[simp] theorem backdrops_turnPage (paper : Paper) :
    paper.turnPage.backdrops = paper.backdrops ++ [none] := by
  simp [backdrops, sheets, turnPage]

@[simp] theorem backdrops_place (paper : Paper) (x height : Float32) (text : List Char) :
    (paper.place x height text).backdrops = paper.backdrops := by
  simp only [place]
  split
  · rfl
  · split <;> simp

theorem place_turns (paper : Paper) (x height : Float32) (text : List Char) :
    (paper.place x height text).finished = paper.finished ∧
      (paper.place x height text).breaks = paper.breaks := by
  simp only [place, warnIfReplaced]
  split
  · exact ⟨rfl, rfl⟩
  · split <;> split <;> exact ⟨rfl, rfl⟩

-- Each page that ends is reported once, and the pages begun have nothing behind them.
theorem Draws.turns (draws : Draws paper texts after) :
    ∃ count, after.finished.length = paper.finished.length + count ∧
      after.breaks = paper.breaks ++ List.range' (paper.finished.length + 1) count ∧
      after.backdrops = paper.backdrops ++ List.replicate count none := by
  induction draws with
  | stay => exact ⟨0, rfl, by simp, by simp⟩
  | place x height _ _ ih =>
    obtain ⟨count, ended, reported, behind⟩ := ih
    refine ⟨count, ?_, ?_, ?_⟩
    · rw [(place_turns _ x height _).1, ended]
    · rw [(place_turns _ x height _).2, reported]
    · rw [backdrops_place, behind]
  | rule _ _ ih =>
    obtain ⟨count, ended, reported, behind⟩ := ih
    exact ⟨count, ended, reported, by rw [backdrops_draw, behind]⟩
  | turn _ ih =>
    obtain ⟨count, ended, reported, behind⟩ := ih
    refine ⟨count + 1, ?_, ?_, ?_⟩
    · simp only [turnPage, List.length_append, List.length_singleton, ended]
      omega
    · simp only [turnPage, reported, ended, List.append_assoc, List.range'_1_concat]
      congr 3
      omega
    · rw [backdrops_turnPage, behind, List.replicate_succ', List.append_assoc]
  | move _ _ _ ih => exact ih

end Paper

end Letterhead
