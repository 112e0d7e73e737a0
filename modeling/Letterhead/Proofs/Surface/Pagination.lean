import Letterhead.Proofs.Float.Advance
import Letterhead.Proofs.Surface.Wrapping

/-!
The same text on two papers that are unlike only above it. How it is broken into rows depends on how
far to the right it begins, and not on how far down. So the two cursors go down step by step together,
and what each row keeps true of where they are is true at the end of the text.
-/

namespace Letterhead.Paper

open Binary

/-- How far down: the number of pages that have ended, and the cursor on the current one. -/
structure Spot where
  page : Nat
  y : Float32

def spot (paper : Paper) : Spot := ⟨paper.finished.length, paper.y⟩

namespace Spot

def lowered (spot : Spot) (lineHeight : Float32) : Spot := { spot with y := spot.y + lineHeight }

/-- Where a row is drawn that has something on it. -/
def inked (spot : Spot) (limit top lineHeight : Float32) : Spot :=
  if limit < spot.y + lineHeight then ⟨spot.page + 1, top⟩ else spot

end Spot

/-- Where a row of this paper is drawn if it begins at a spot. -/
def inkedFrom (paper : Paper) (lineHeight : Float32) (spot : Spot) : Spot :=
  spot.inked paper.lowerLimit paper.settings.margins.top lineHeight

variable {paper : Paper} (lineHeight : Float32)

theorem spot_turnPageFor (paper : Paper) (height : Float32) :
    (paper.turnPageFor height).spot = paper.inkedFrom height paper.spot := by
  have ended : paper.turnPage.spot = ⟨paper.spot.page + 1, paper.settings.margins.top⟩ := by
    simp [spot, turnPage]
  rw [turnPageFor, apply_ite spot, ended]
  rfl

theorem spot_place (paper : Paper) (x height : Float32) (text : List Char) :
    (paper.place x height text).spot = paper.spot := by
  simp only [place, warnIfReplaced]
  split
  · rfl
  · split <;> split <;> rfl

theorem spot_emit (paper : Paper) (x : Float32) {text : List Char} (some : text ≠ []) :
    (paper.emit x lineHeight text).spot = paper.inkedFrom lineHeight paper.spot := by
  have filled : text.isEmpty = false := by simpa using some
  rw [emit, if_neg (by simp [filled]), spot_place, spot_turnPageFor]

/-- Two papers that break a text in the same way, and how far down they are. -/
structure Abreast (relation : Spot → Spot → Prop) (one two : Paper) : Prop where
  settings : two.settings = one.settings
  fontSize : two.fontSize = one.fontSize
  spot : relation one.spot two.spot

/-- Two papers on which text begins at the margin. -/
structure AtMargin (relation : Spot → Spot → Prop) (one two : Paper) : Prop extends
    Abreast relation one two where
  left : one.x = one.settings.margins.left
  other : two.x = two.settings.margins.left

/-- What a row with something on it makes of two spots, and what the step to the next line makes of
them. -/
structure GoesDown (paper : Paper) (lineHeight : Float32) (starts ends : Spot → Spot → Prop) : Prop where
  ink {one two : Spot} (related : starts one two) :
    ends (paper.inkedFrom lineHeight one) (paper.inkedFrom lineHeight two)
  lower {one two : Spot} (related : ends one two) :
    starts (one.lowered lineHeight) (two.lowered lineHeight)

variable {lineHeight} {starts ends : Spot → Spot → Prop} {one two : Paper}

theorem inkedFrom_congr (same : two.settings = one.settings) : two.inkedFrom = one.inkedFrom := by
  funext height spot
  rw [inkedFrom, inkedFrom, lowerLimit, lowerLimit, same]

theorem GoesDown.congr (down : paper.GoesDown lineHeight starts ends) (same : two.settings = paper.settings) :
    two.GoesDown lineHeight starts ends where
  ink related := inkedFrom_congr same ▸ down.ink related
  lower := down.lower

namespace Abreast

theorem emit (abreast : Abreast starts one two) (down : one.GoesDown lineHeight starts ends)
    (x : Float32) {text : List Char} (some : text ≠ []) :
    Abreast ends (one.emit x lineHeight text) (two.emit x lineHeight text) where
  settings := by
    rw [(emit_kept lineHeight one x text).settings, (emit_kept lineHeight two x text).settings,
      abreast.settings]
  fontSize := by
    rw [(emit_kept lineHeight one x text).fontSize, (emit_kept lineHeight two x text).fontSize,
      abreast.fontSize]
  spot := by
    rw [spot_emit lineHeight one x some, spot_emit lineHeight two x some, inkedFrom_congr abreast.settings]
    exact down.ink abreast.spot

theorem startLine (abreast : Abreast ends one two) (down : paper.GoesDown lineHeight starts ends) :
    AtMargin starts (one.startLine lineHeight) (two.startLine lineHeight) where
  settings := abreast.settings
  fontSize := abreast.fontSize
  spot := down.lower abreast.spot
  left := rfl
  other := rfl

end Abreast

/-! ### Lines under construction -/

namespace Line

variable {line : Line} (lineHeight : Float32)

theorem makeRoom_filled (some : line.text ≠ []) : line.makeRoom lineHeight = line.flush lineHeight := by
  have filled : line.text.isEmpty = false := by simpa using some
  rw [makeRoom, filled]
  rfl

-- There is nothing to leave.
theorem makeRoom_margin (empty : line.text = []) (margin : line.start = line.paper.settings.margins.left) :
    line.makeRoom lineHeight = line := by
  rw [makeRoom, empty, margin, if_neg (not_lt_self _)]
  rfl

end Line

/-- A line that has nothing on it yet begins at the margin. So no row is left empty. -/
structure Line.Abreast (lineHeight : Float32) (starts ends : Spot → Spot → Prop) (one two : Line) :
    Prop where
  papers : Paper.Abreast starts one.paper two.paper
  down : one.paper.GoesDown lineHeight starts ends
  text : two.text = one.text
  start : two.start = one.start
  width : two.width = one.width
  margin : one.text = [] → one.start = one.paper.settings.margins.left

namespace Line.Abreast

variable {one two : Line} (abreast : Line.Abreast lineHeight starts ends one two)

include abreast

theorem measure (text : List Char) : two.paper.measure text = one.paper.measure text := by
  rw [Paper.measure, Paper.measure, abreast.papers.fontSize]

theorem rightLimit : two.paper.rightLimit = one.paper.rightLimit := by
  rw [Paper.rightLimit, Paper.rightLimit, abreast.papers.settings]

theorem overflows (width : Float32) : two.overflows width = one.overflows width := by
  rw [Line.overflows, Line.overflows, abreast.rightLimit, abreast.start, abreast.width]

theorem emit (some : one.text ≠ []) :
    Paper.Abreast ends (one.paper.emit one.start lineHeight one.text)
      (two.paper.emit two.start lineHeight two.text) := by
  rw [abreast.start, abreast.text]
  exact abreast.papers.emit abreast.down one.start some

theorem flush (some : one.text ≠ []) :
    Line.Abreast lineHeight starts ends (one.flush lineHeight) (two.flush lineHeight) where
  papers := ((abreast.emit some).startLine abreast.down).toAbreast
  down := abreast.down.congr (emit_kept lineHeight one.paper one.start one.text).settings
  text := rfl
  start := congrArg (·.margins.left) (abreast.emit some).settings
  width := rfl
  margin _ := rfl

theorem append (added : List Char) (some : added ≠ []) :
    Line.Abreast lineHeight starts ends (one.append added) (two.append added) where
  papers := abreast.papers
  down := abreast.down
  text := by rw [Line.append, Line.append, abreast.text]
  start := abreast.start
  width := by rw [Line.append, Line.append, abreast.width, abreast.measure]
  margin none := absurd (List.append_eq_nil_iff.mp none).2 some

theorem letter (c : Char) :
    Line.Abreast lineHeight starts ends (one.letter lineHeight c) (two.letter lineHeight c) := by
  rw [Line.letter, Line.letter, abreast.measure, abreast.overflows, abreast.text]
  split
  · rename_i full
    have some : one.text ≠ [] := by
      simp only [Bool.and_eq_true, Bool.not_eq_true', List.isEmpty_eq_false_iff] at full
      exact full.2
    exact (abreast.flush some).append [c] (List.cons_ne_nil _ _)
  · exact abreast.append [c] (List.cons_ne_nil _ _)

omit abreast in
theorem letters {one two : Line} (abreast : Line.Abreast lineHeight starts ends one two) (word : List Char) :
    Line.Abreast lineHeight starts ends (word.foldl (Line.letter lineHeight) one)
      (word.foldl (Line.letter lineHeight) two) := by
  induction word generalizing one two with
  | nil => exact abreast
  | cons c rest ih => exact ih (abreast.letter c)

theorem makeRoom :
    Line.Abreast lineHeight starts ends (one.makeRoom lineHeight) (two.makeRoom lineHeight) := by
  by_cases empty : one.text = []
  · have margin := abreast.margin empty
    have other : two.start = two.paper.settings.margins.left := by
      rw [abreast.start, abreast.papers.settings, margin]
    rw [makeRoom_margin lineHeight empty margin,
      makeRoom_margin lineHeight (abreast.text.trans empty) other]
    exact abreast
  · rw [makeRoom_filled lineHeight empty, makeRoom_filled lineHeight (abreast.text ▸ empty)]
    exact abreast.flush empty

theorem word (word : List Char) (some : word ≠ []) :
    Line.Abreast lineHeight starts ends (one.word lineHeight word) (two.word lineHeight word) := by
  rw [Line.word, Line.word]
  simp only [abreast.measure, abreast.overflows]
  split
  · have roomy := abreast.makeRoom
    simp only [roomy.rightLimit, roomy.start]
    split
    · exact roomy.letters word
    · exact roomy.append word some
  · exact abreast.append word some

omit abreast in
theorem words {one two : Line} (abreast : Line.Abreast lineHeight starts ends one two)
    {words : List (List Char)} (some : ∀ word ∈ words, word ≠ []) :
    Line.Abreast lineHeight starts ends (words.foldl (Line.word lineHeight) one)
      (words.foldl (Line.word lineHeight) two) := by
  induction words generalizing one two with
  | nil => exact abreast
  | cons word rest ih =>
    obtain ⟨first, later⟩ := List.forall_mem_cons.mp some
    exact ih (abreast.word word first) later

end Line.Abreast

theorem Line.text_letters (line : Line) {word : List Char} (some : word ≠ []) :
    (word.foldl (Line.letter lineHeight) line).text ≠ [] := by
  induction word using List.reverseRecOn with
  | nil => exact absurd rfl some
  | append_singleton rest c =>
    rw [List.foldl_concat, letter]
    exact List.append_ne_nil_of_right_ne_nil _ (List.cons_ne_nil _ _)

theorem Line.text_word (line : Line) {word : List Char} (some : word ≠ []) :
    (line.word lineHeight word).text ≠ [] := by
  rw [Line.word]
  split
  · simp only
    split
    · exact text_letters _ some
    · exact List.append_ne_nil_of_right_ne_nil _ some
  · exact List.append_ne_nil_of_right_ne_nil _ some

theorem Line.text_words (line : Line) {words : List (List Char)} (more : words ≠ [])
    (some : ∀ word ∈ words, word ≠ []) : (words.foldl (Line.word lineHeight) line).text ≠ [] := by
  rw [← List.dropLast_concat_getLast more, List.foldl_concat]
  exact text_word _ (some _ (List.getLast_mem more))

/-- A line with something on it takes its rows from where one can begin to where one has ended. -/
theorem AtMargin.flowLine (beside : AtMargin starts one two) (down : one.GoesDown lineHeight starts ends)
    {segment : List Char} (some : segment ≠ []) :
    Abreast ends (one.flowLine lineHeight segment) (two.flowLine lineHeight segment) := by
  have begun : Line.Abreast lineHeight starts ends ⟨one, [], one.x, 0⟩ ⟨two, [], two.x, 0⟩ :=
    { papers := beside.toAbreast
      down := down
      text := rfl
      start := by rw [beside.left, beside.other, beside.settings]
      width := rfl
      margin := fun _ => beside.left }
  have filled : ∀ word ∈ Text.words ' ' segment, word ≠ [] := fun word member => (word_shape member).1
  have more : Text.words ' ' segment ≠ [] := by
    intro none
    have whole := Text.flatten_words ' ' segment
    rw [none] at whole
    exact some whole.symm
  have inked := (begun.words filled).emit (Line.text_words _ more filled)
  exact ⟨inked.settings, inked.fontSize, inked.spot⟩

end Letterhead.Paper
