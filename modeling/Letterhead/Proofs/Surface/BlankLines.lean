import Letterhead.Proofs.Config.Validity
import Letterhead.Proofs.Surface.Pagination
import Letterhead.Proofs.Surface.Runs
import Mathlib.Logic.Relation

/-!
Blank lines at the end of a page. A line with something on it begins a new page if it does not fit,
and a blank one goes on down without asking. So blank lines take up the room of other lines as long
as they fit. From the first one that does not, the text is a line or more behind where it would be if
there were something on each of them.
-/

namespace Letterhead

namespace Text

/-- Puts a letter on each line that is blank, between two line feeds. -/
def fillBlankLines (letter : Char) : List Char → List Char
  | [] => []
  | c :: rest =>
    if c = '\n' ∧ rest.head? = some '\n' then c :: letter :: fillBlankLines letter rest
    else c :: fillBlankLines letter rest

def fillLine (letter : Char) (line : List Char) : List Char := if line = [] then [letter] else line

/-- The last line is not between two line feeds. -/
def fillLines (letter : Char) : List (List Char) → List (List Char)
  | [] => []
  | [last] => [last]
  | line :: next :: rest => fillLine letter line :: fillLines letter (next :: rest)

theorem fillLines_cons (letter : Char) {line : List Char} {rest : List (List Char)}
    (filled : rest ≠ [] → line ≠ []) :
    fillLines letter (line :: rest) = line :: fillLines letter rest := by
  rcases rest with _ | ⟨next, others⟩
  · rfl
  · rw [fillLines, fillLine, if_neg (filled (List.cons_ne_nil _ _))]

theorem fillLines_ne_nil (letter : Char) {lines : List (List Char)} (more : lines ≠ []) :
    fillLines letter lines ≠ [] := by
  rcases lines with _ | ⟨line, _ | ⟨next, others⟩⟩
  · exact more
  · exact List.cons_ne_nil _ _
  · exact List.cons_ne_nil _ _

theorem pieces_feed (rest : List Char) : pieces '\n' ('\n' :: rest) = [] :: pieces '\n' rest := rfl

theorem pieces_letter {c : Char} (letter : c ≠ '\n') {rest first : List Char} {others : List (List Char)}
    (split : pieces '\n' rest = first :: others) : pieces '\n' (c :: rest) = (c :: first) :: others := by
  rw [pieces, if_neg (by simpa using letter), split]

/-- Neither the first line nor the last one is between two line feeds. -/
theorem pieces_fillBlankLines {letter : Char} (plain : letter ≠ '\n') {text first : List Char}
    {others : List (List Char)} (split : pieces '\n' text = first :: others) :
    pieces '\n' (fillBlankLines letter text) = first :: fillLines letter others := by
  induction text generalizing first others with
  | nil =>
    obtain ⟨rfl, rfl⟩ := List.cons.inj split
    rfl
  | cons c rest ih =>
    obtain ⟨next, later, cut⟩ := List.exists_cons_of_ne_nil (pieces_ne_nil '\n' rest)
    have filled := ih cut
    rw [fillBlankLines]
    by_cases feed : c = '\n'
    · subst feed
      rw [pieces_feed, cut] at split
      obtain ⟨rfl, rfl⟩ := List.cons.inj split
      rcases rest with _ | ⟨d, more⟩
      · obtain ⟨rfl, rfl⟩ := List.cons.inj cut
        rfl
      · by_cases double : d = '\n'
        · subst double
          rw [pieces_feed] at cut
          obtain ⟨rfl, rfl⟩ := List.cons.inj cut
          obtain ⟨third, rest, found⟩ := List.exists_cons_of_ne_nil (pieces_ne_nil '\n' more)
          rw [if_pos ⟨rfl, rfl⟩, pieces_feed, pieces_letter plain filled, found]
          rfl
        · have some : next ≠ [] := by
            obtain ⟨piece, pieces, found⟩ := List.exists_cons_of_ne_nil (pieces_ne_nil '\n' more)
            rw [pieces_letter double found] at cut
            obtain ⟨rfl, -⟩ := List.cons.inj cut
            exact List.cons_ne_nil _ _
          rw [if_neg (by simpa using double), pieces_feed, filled, fillLines_cons letter fun _ => some]
    · rw [pieces_letter feed cut] at split
      obtain ⟨rfl, rfl⟩ := List.cons.inj split
      rw [if_neg (fun both => feed both.1), pieces_letter feed filled]

theorem unreturned_fillBlankLines {letter : Char} (plain : letter ≠ '\r') (text : List Char) :
    unreturned (fillBlankLines letter (unreturned text)) = fillBlankLines letter (unreturned text) := by
  have none : ∀ c ∈ unreturned text, c ≠ '\r' := by
    intro c member
    simpa using (List.mem_filter.mp member).2
  rw [unreturned, List.filter_eq_self]
  generalize unreturned text = clean at none
  induction clean with
  | nil => exact List.forall_mem_nil _
  | cons c rest ih =>
    obtain ⟨first, later⟩ := List.forall_mem_cons.mp none
    rw [fillBlankLines]
    split
    · exact List.forall_mem_cons.mpr ⟨by simpa using first,
        List.forall_mem_cons.mpr ⟨by simpa using plain, ih later⟩⟩
    · exact List.forall_mem_cons.mpr ⟨by simpa using first, ih later⟩

end Text

namespace Paper

open Binary
open Text (fillLine fillLines fillBlankLines unreturned)

variable {paper one two : Paper} {lineHeight : Float32} {letter : Char}

/-! ### Behind by a line -/

/-- On an earlier page, or a line higher on the same page. -/
def Spot.Behind (lineHeight : Float32) (one two : Spot) : Prop :=
  one.page < two.page ∨ one.page = two.page ∧ one.y + lineHeight ≤ two.y

theorem Spot.Behind.lowered {one two : Spot} (behind : one.Behind lineHeight two)
    (finite : lineHeight.isFinite = true) :
    (one.lowered lineHeight).Behind lineHeight (two.lowered lineHeight) := by
  rcases behind with earlier | ⟨same, higher⟩
  · exact .inl earlier
  · exact .inr ⟨same, add_le_add_float higher finite⟩

/-- Behind by a line. If they are on one page, there is room below both of them. -/
structure Trails (paper : Paper) (lineHeight : Float32) (one two : Spot) : Prop where
  top : paper.settings.margins.top ≤ two.y
  behind : one.Behind lineHeight two
  room : one.page = two.page →
    paper.settings.margins.top ≤ one.y ∧ ¬ paper.lowerLimit < two.y + lineHeight

namespace Trails

variable {one two : Spot} (trails : paper.Trails lineHeight one two)
variable (finite : lineHeight.isFinite = true) (some : 0 ≤ lineHeight)

include trails finite some

theorem top_lowered : paper.settings.margins.top ≤ (two.lowered lineHeight).y :=
  le_trans_float trails.top (le_add_of_nonneg (isNumber_of_le trails.top).2 finite some)

-- However the line is that is behind, as long as it begins no page.
theorem stays : paper.Trails lineHeight (one.lowered lineHeight)
    (paper.inkedFrom lineHeight (two.lowered lineHeight)) := by
  rw [inkedFrom, Spot.inked]
  split
  · have later : one.page < two.page + 1 := by
      rcases trails.behind with earlier | ⟨same, -⟩ <;> omega
    exact
      { top := le_self (isNumber_of_le trails.top).1
        behind := .inl later
        room := fun same => absurd same later.ne }
  · rename_i fits
    refine ⟨trails.top_lowered finite some, trails.behind.lowered finite, fun same => ?_⟩
    obtain ⟨high, -⟩ := trails.room same
    exact ⟨le_trans_float high (le_add_of_nonneg (isNumber_of_le high).2 finite some), fits⟩

theorem follows : paper.Trails lineHeight (paper.inkedFrom lineHeight (one.lowered lineHeight))
    (paper.inkedFrom lineHeight (two.lowered lineHeight)) := by
  have kept := trails.stays finite some
  by_cases turns : paper.lowerLimit < (one.lowered lineHeight).y + lineHeight
  · -- The other is on a later page, for on the same page there is room for this line.
    have earlier : one.page < two.page := by
      rcases trails.behind with earlier | ⟨same, higher⟩
      · exact earlier
      · have low := lt_of_lt_of_le_float turns (add_le_add_float higher finite)
        exact absurd low (trails.room same).2
    have number := (isNumber_of_le trails.top).1
    have turned : paper.inkedFrom lineHeight (one.lowered lineHeight) =
        ⟨one.page + 1, paper.settings.margins.top⟩ := if_pos turns
    rw [turned, inkedFrom, Spot.inked]
    split
    · exact
        { top := le_self number
          behind := .inl (Nat.succ_lt_succ earlier)
          room := fun same => absurd (Nat.succ.inj same) earlier.ne }
    · rename_i fits
      refine ⟨trails.top_lowered finite some, ?_, fun _ => ⟨le_self number, fits⟩⟩
      rcases Nat.lt_or_eq_of_le (Nat.succ_le_of_lt earlier) with before | same
      · exact .inl before
      · exact .inr ⟨same, add_le_add_float trails.top finite⟩
  · have still : paper.inkedFrom lineHeight (one.lowered lineHeight) = one.lowered lineHeight := if_neg turns
    rw [still]
    exact kept

end Trails

/-- One line below two spots of which one trails the other. -/
def TrailsBelow (paper : Paper) (lineHeight : Float32) : Spot → Spot → Prop :=
  Relation.Map (paper.Trails lineHeight) (·.lowered lineHeight) (·.lowered lineHeight)

theorem TrailsBelow.behind {one two : Spot} (trails : paper.TrailsBelow lineHeight one two)
    (finite : lineHeight.isFinite = true) : one.Behind lineHeight two := by
  obtain ⟨above, ahead, trails, rfl, rfl⟩ := trails
  exact trails.behind.lowered finite

theorem trails_goDown (paper : Paper) (finite : lineHeight.isFinite = true) (some : 0 ≤ lineHeight) :
    paper.GoesDown lineHeight (paper.TrailsBelow lineHeight) (paper.Trails lineHeight) where
  ink := by
    rintro _ _ ⟨one, two, trails, rfl, rfl⟩
    exact trails.follows finite some
  lower trails := ⟨_, _, trails, rfl, rfl⟩

theorem TrailsBelow.stays {one two : Spot} (trails : paper.TrailsBelow lineHeight one two)
    (finite : lineHeight.isFinite = true) (some : 0 ≤ lineHeight) :
    paper.Trails lineHeight one (paper.inkedFrom lineHeight two) := by
  obtain ⟨above, ahead, trails, rfl, rfl⟩ := trails
  exact trails.stays finite some

theorem equal_goDown (paper : Paper) (lineHeight : Float32) : paper.GoesDown lineHeight Eq Eq where
  ink same := congrArg (paper.inkedFrom lineHeight) same
  lower same := congrArg (·.lowered lineHeight) same

/-! ### Line by line -/

/-- The paper where the line below these lines begins. -/
def below (lineHeight : Float32) (paper : Paper) (lines : List (List Char)) : Paper :=
  lines.foldl (fun paper line => (paper.flowLine lineHeight line).startLine lineHeight) paper

/-- Each line of these that is blank and not the last one fits the page that it is on. -/
def BlanksFit (lineHeight : Float32) (paper : Paper) (lines : List (List Char)) : Prop :=
  ∀ before line after, lines = before ++ line :: after → line = [] → after ≠ [] →
    ¬ (paper.below lineHeight before).lowerLimit < (paper.below lineHeight before).y + lineHeight

theorem blanksFit_nil (lineHeight : Float32) (paper : Paper) : paper.BlanksFit lineHeight [] := by
  intro before line after split
  simp at split

theorem blanksFit_cons {line : List Char} {rest : List (List Char)} :
    paper.BlanksFit lineHeight (line :: rest) ↔
      (line = [] → rest ≠ [] → ¬ paper.lowerLimit < paper.y + lineHeight) ∧
        ((paper.flowLine lineHeight line).startLine lineHeight).BlanksFit lineHeight rest :=
  Text.forall_cut_cons fun before line after => line = [] → after ≠ [] →
    ¬ (paper.below lineHeight before).lowerLimit < (paper.below lineHeight before).y + lineHeight

theorem spot_flowLine_nil (paper : Paper) : (paper.flowLine lineHeight []).spot = paper.spot := rfl

theorem Line.word_letter (lineHeight : Float32) (letter : Char) (line : Line) (empty : line.text = [])
    (margin : line.start = line.paper.settings.margins.left) :
    line.word lineHeight [letter] = line.append [letter] := by
  have alone : line.letter lineHeight letter = line.append [letter] := by
    simp [Line.letter, empty]
  rw [Line.word, makeRoom_margin lineHeight empty margin]
  simp [alone]

/-- One letter at the margin takes one row, however wide it is. -/
theorem spot_flowLine_letter (left : paper.x = paper.settings.margins.left) :
    (paper.flowLine lineHeight [letter]).spot = paper.inkedFrom lineHeight paper.spot := by
  have single : Text.words ' ' [letter] = [[letter]] := by
    simp [Text.words]
  rw [flowLine, single, List.foldl_cons, List.foldl_nil,
    Line.word_letter lineHeight letter ⟨paper, [], paper.x, 0⟩ rfl left]
  exact spot_emit lineHeight paper paper.x (List.cons_ne_nil letter [])

theorem AtMargin.blank {starts ends : Spot → Spot → Prop} (beside : AtMargin starts one two)
    (related : ends one.spot (one.inkedFrom lineHeight two.spot)) :
    Abreast ends (one.flowLine lineHeight []) (two.flowLine lineHeight [letter]) where
  settings := by
    rw [(flowLine_kept lineHeight one []).settings, (flowLine_kept lineHeight two [letter]).settings,
      beside.settings]
  fontSize := by
    rw [(flowLine_kept lineHeight one []).fontSize, (flowLine_kept lineHeight two [letter]).fontSize,
      beside.fontSize]
  spot := by
    rw [spot_flowLine_nil, spot_flowLine_letter beside.other, inkedFrom_congr beside.settings]
    exact related

theorem AtMargin.fillLine {starts ends : Spot → Spot → Prop} (beside : AtMargin starts one two)
    (down : one.GoesDown lineHeight starts ends) {line : List Char}
    (blank : line = [] → ends one.spot (one.inkedFrom lineHeight two.spot)) :
    Abreast ends (one.flowLine lineHeight line) (two.flowLine lineHeight (Text.fillLine letter line)) := by
  rw [Text.fillLine]
  split
  · rename_i empty
    subst empty
    exact beside.blank (blank rfl)
  · rename_i filled
    exact beside.flowLine down filled

theorem flowLines_cons (paper : Paper) (line : List Char) {rest : List (List Char)} (more : rest ≠ []) :
    paper.flowLines lineHeight (line :: rest) =
      ((paper.flowLine lineHeight line).startLine lineHeight).flowLines lineHeight rest :=
  flowLines_append lineHeight paper (List.cons_ne_nil line []) more

theorem flowLines_fillLines_cons (paper : Paper) (line next : List Char) (others : List (List Char)) :
    paper.flowLines lineHeight (fillLines letter (line :: next :: others)) =
      ((paper.flowLine lineHeight (fillLine letter line)).startLine lineHeight).flowLines lineHeight
        (fillLines letter (next :: others)) :=
  flowLines_cons paper _ (Text.fillLines_ne_nil letter (List.cons_ne_nil next others))

/-- A blank line that fits takes up as much room as another one. -/
theorem AtMargin.fillLine_equal (beside : AtMargin Eq one two) {line : List Char}
    (fits : line = [] → ¬ one.lowerLimit < one.y + lineHeight) :
    AtMargin Eq ((one.flowLine lineHeight line).startLine lineHeight)
      ((two.flowLine lineHeight (Text.fillLine letter line)).startLine lineHeight) := by
  have down := equal_goDown one lineHeight
  refine (beside.fillLine down fun empty => ?_).startLine down
  rw [← beside.spot]
  exact (if_neg (fits empty)).symm

theorem flowLines_fillLines (lines : List (List Char)) (beside : AtMargin Eq one two)
    (fit : one.BlanksFit lineHeight lines) :
    (one.flowLines lineHeight lines).spot = (two.flowLines lineHeight (fillLines letter lines)).spot := by
  induction lines generalizing one two with
  | nil => exact beside.spot
  | cons line rest ih =>
    obtain ⟨here, later⟩ := blanksFit_cons.mp fit
    rcases rest with _ | ⟨next, others⟩
    · by_cases empty : line = []
      · subst empty
        exact beside.spot
      · exact (beside.flowLine (equal_goDown one lineHeight) empty).spot
    · have more := List.cons_ne_nil next others
      rw [flowLines_cons one line more, flowLines_fillLines_cons]
      exact ih (beside.fillLine_equal fun blank => here blank more) later

section Behind

variable (finite : lineHeight.isFinite = true) (some : 0 ≤ lineHeight)

include finite some

/-- Once behind, a paper stays behind whatever is on the lines to come. -/
theorem flowLines_behind (lines : List (List Char)) (same : one.settings = paper.settings)
    (beside : AtMargin (paper.TrailsBelow lineHeight) one two) :
    (one.flowLines lineHeight lines).spot.Behind lineHeight
      (two.flowLines lineHeight (fillLines letter lines)).spot := by
  induction lines generalizing one two with
  | nil => exact beside.spot.behind finite
  | cons line rest ih =>
    have down := (trails_goDown paper finite some).congr same
    rcases rest with _ | ⟨next, others⟩
    · by_cases empty : line = []
      · subst empty
        exact beside.spot.behind finite
      · exact (beside.flowLine down empty).spot.behind
    · have trails : Abreast (paper.Trails lineHeight) (one.flowLine lineHeight line)
          (two.flowLine lineHeight (fillLine letter line)) :=
        beside.fillLine down fun _ => inkedFrom_congr same ▸ beside.spot.stays finite some
      rw [flowLines_cons one line (List.cons_ne_nil next others), flowLines_fillLines_cons]
      exact ih ((flowLine_kept lineHeight one line).settings.trans same) (trails.startLine down)

/-- The first blank line that does not fit leaves a paper behind. -/
theorem flowLines_unfit (lines : List (List Char)) (beside : AtMargin Eq one two)
    (number : IsNumber one.settings.margins.top) (unfit : ¬ one.BlanksFit lineHeight lines) :
    (one.flowLines lineHeight lines).spot.Behind lineHeight
      (two.flowLines lineHeight (fillLines letter lines)).spot := by
  induction lines generalizing one two with
  | nil => exact absurd (blanksFit_nil lineHeight one) unfit
  | cons line rest ih =>
    rw [blanksFit_cons, not_and_or] at unfit
    rcases rest with _ | ⟨next, others⟩
    · exact absurd unfit (not_or.mpr ⟨not_not.mpr nofun, not_not.mpr (blanksFit_nil lineHeight _)⟩)
    · have kept := (flowLine_kept lineHeight one line).settings
      rw [flowLines_cons one line (List.cons_ne_nil next others), flowLines_fillLines_cons]
      by_cases fits : line = [] → ¬ one.lowerLimit < one.y + lineHeight
      · have later := unfit.resolve_left (not_not.mpr fun blank _ => fits blank)
        exact ih (beside.fillLine_equal fits) (kept ▸ number) later
      · rw [Classical.not_imp, not_not] at fits
        obtain ⟨rfl, low⟩ := fits
        have turned : one.inkedFrom lineHeight two.spot =
            ⟨one.spot.page + 1, one.settings.margins.top⟩ := by
          rw [← beside.spot]
          exact if_pos low
        have trails : one.Trails lineHeight one.spot (one.inkedFrom lineHeight two.spot) := by
          rw [turned]
          exact
            { top := le_self number
              behind := .inl (Nat.lt_succ_self _)
              room := fun same => absurd same (Nat.succ_ne_self _).symm }
        exact flowLines_behind finite some _ kept
          ((beside.blank trails).startLine (trails_goDown one finite some))

end Behind

/-! ### A whole text -/

/-- Each blank line between two line feeds fits the page on which it is reached. -/
def BlankLinesFit (lineHeight : Float32) (paper : Paper) (content : List Char) : Prop :=
  ∀ first rest, Text.pieces '\n' (unreturned content) = first :: rest →
    (paper.below lineHeight [first]).BlanksFit lineHeight rest

theorem flowText_fillBlankLines (feedless : letter ≠ '\n') (returnless : letter ≠ '\r')
    {content first : List Char} {rest : List (List Char)}
    (split : Text.pieces '\n' (unreturned content) = first :: rest) :
    paper.flowText lineHeight (fillBlankLines letter (unreturned content)) =
      paper.flowLines lineHeight (first :: fillLines letter rest) := by
  rw [flowText_eq, Text.unreturned_fillBlankLines returnless, Text.pieces_fillBlankLines feedless split]

theorem AtMargin.same (paper : Paper) (line : List Char) :
    AtMargin Eq (paper.below lineHeight [line]) (paper.below lineHeight [line]) :=
  ⟨⟨rfl, rfl, rfl⟩, rfl, rfl⟩

theorem spot_flowText_of_fit (feedless : letter ≠ '\n') (returnless : letter ≠ '\r') {content : List Char}
    (fit : paper.BlankLinesFit lineHeight content) :
    (paper.flowText lineHeight content).spot =
      (paper.flowText lineHeight (fillBlankLines letter (unreturned content))).spot := by
  obtain ⟨first, rest, split⟩ := List.exists_cons_of_ne_nil (Text.pieces_ne_nil '\n' (unreturned content))
  rw [flowText_fillBlankLines feedless returnless split, flowText_eq, split]
  rcases rest with _ | ⟨next, others⟩
  · rfl
  · have more := List.cons_ne_nil next others
    rw [flowLines_cons paper first more, flowLines_cons paper first (Text.fillLines_ne_nil letter more)]
    exact flowLines_fillLines _ (AtMargin.same paper first) (fit first _ split)

theorem flowText_behind (feedless : letter ≠ '\n') (returnless : letter ≠ '\r') {content : List Char}
    (finite : lineHeight.isFinite = true) (some : 0 ≤ lineHeight)
    (number : IsNumber paper.settings.margins.top) (unfit : ¬ paper.BlankLinesFit lineHeight content) :
    (paper.flowText lineHeight content).spot.Behind lineHeight
      (paper.flowText lineHeight (fillBlankLines letter (unreturned content))).spot := by
  simp only [BlankLinesFit, not_forall] at unfit
  obtain ⟨first, rest, split, unfit⟩ := unfit
  rw [flowText_fillBlankLines feedless returnless split, flowText_eq, split]
  have more : rest ≠ [] := by
    rintro rfl
    exact unfit (blanksFit_nil lineHeight _)
  have kept : (paper.below lineHeight [first]).settings = paper.settings :=
    (flowLine_kept lineHeight paper first).settings
  rw [flowLines_cons paper first more, flowLines_cons paper first (Text.fillLines_ne_nil letter more)]
  exact flowLines_unfit finite some _ (AtMargin.same paper first) (kept ▸ number) unfit

/-- Blank lines count like lines with a letter on each of them as long as they fit the page: the text
ends on the same page, as far down. If one of them does not fit, the text ends a line or more behind. -/
theorem blank_lines_count_while_they_fit (config : Config) (valid : config.fault? = none)
    (destination : Destination) (paper : Paper) (opened : paper.closed = false)
    (settings : paper.settings = config.paperSettings) (letter : Char) (feedless : letter ≠ '\n')
    (returnless : letter ≠ '\r') (content : List Char) :
    let onto := surface destination
    let drawn := onto.answer (.flowText config.lineHeight content) paper
    let filled := onto.answer (.flowText config.lineHeight (fillBlankLines letter (unreturned content))) paper
    (drawn.1 = .ok () ∧ filled.1 = .ok ()) ∧
      (paper.BlankLinesFit config.lineHeight content →
        drawn.2.currentPage = filled.2.currentPage ∧ drawn.2.y = filled.2.y) ∧
      (config.margins.top.isNaN = false → ¬ paper.BlankLinesFit config.lineHeight content →
        drawn.2.currentPage < filled.2.currentPage ∨
          drawn.2.currentPage = filled.2.currentPage ∧
            drawn.2.y + config.lineHeight ≤ filled.2.y) := by
  intro onto drawn filled
  have open_after (content : List Char) : (paper.flowText config.lineHeight content).closed = false :=
    (flowText_closed config.lineHeight paper content).trans opened
  simp only [onto, drawn, filled, answer_flowText destination opened, currentPage_eq (open_after _)]
  refine ⟨⟨trivial, trivial⟩, fun fit => ?_, fun number unfit => ?_⟩
  · have same := spot_flowText_of_fit feedless returnless fit
    exact ⟨congrArg (·.page + 1) same, congrArg (·.y) same⟩
  · obtain ⟨finite, positive⟩ := Config.lineHeight_of_fault? valid
    have top : IsNumber paper.settings.margins.top := settings ▸ isNumber_iff.mpr number
    rcases flowText_behind feedless returnless finite (le_of_lt_float positive) top unfit with
      earlier | ⟨same, higher⟩
    · exact .inl (Nat.succ_lt_succ earlier)
    · exact .inr ⟨congrArg (· + 1) same, higher⟩

/-- A label that is two lines high. -/
def label : Config := { page := ⟨210, 40⟩ }

-- One blank line fits the label, and three do not.
theorem label_counts_first_blank_line :
    label.fault? = none ∧
      let onto := surface fun _ => .ok ()
      let paper := Paper.new label.paperSettings none
      let drawn (content : List Char) := (onto.answer (.flowText 5 content) paper).2
      paper.BlankLinesFit 5 "a\n\nb".toList ∧ ¬ paper.BlankLinesFit 5 "a\n\n\n\nb".toList ∧
        (drawn "a\n\nb".toList).currentPage = (drawn "a\nx\nb".toList).currentPage ∧
        (drawn "a\n\nb".toList).y = (drawn "a\nx\nb".toList).y ∧
        (drawn "a\n\n\n\nb".toList).currentPage < (drawn "a\nx\nx\nx\nb".toList).currentPage := by
  have valid : label.fault? = none := by decide +kernel
  have fit : (Paper.new label.paperSettings none).BlankLinesFit 5 "a\n\nb".toList := by
    rintro first rest split
    obtain ⟨rfl, rfl⟩ := List.cons.inj split
    have last (paper : Paper) : paper.BlanksFit 5 [['b']] :=
      blanksFit_cons.mpr ⟨nofun, blanksFit_nil 5 _⟩
    exact blanksFit_cons.mpr ⟨fun _ _ => by decide +kernel, last _⟩
  have unfit : ¬ (Paper.new label.paperSettings none).BlankLinesFit 5 "a\n\n\n\nb".toList := by
    intro fit
    exact fit _ _ rfl [[]] [] [[], ['b']] rfl rfl (List.cons_ne_nil _ _) (by decide +kernel)
  have counts := blank_lines_count_while_they_fit label valid (fun _ => .ok ())
    (.new label.paperSettings none) rfl rfl 'x' (by decide) (by decide)
  obtain ⟨-, same, -⟩ := counts "a\n\nb".toList
  obtain ⟨-, -, behind⟩ := counts "a\n\n\n\nb".toList
  refine ⟨valid, fit, unfit, (same fit).1, (same fit).2, ?_⟩
  exact (behind rfl unfit).resolve_right (by decide +kernel)

/-- The text goes on at the top of the second page, and that with letters at the top of the third. -/
theorem blank_lines_save_a_page :
    label.fault? = none ∧
      let onto := surface fun _ => .ok ()
      let drawn (content : List Char) :=
        (onto.answer (.flowText label.lineHeight content) (.new label.paperSettings none)).2
      let content := "a\n\n\n\nb".toList
      fillBlankLines 'x' content = "a\nx\nx\nx\nb".toList ∧
        ((drawn content).currentPage = 2 ∧ (drawn content).y = label.margins.top) ∧
        (drawn (fillBlankLines 'x' content)).currentPage = 3 ∧
          (drawn (fillBlankLines 'x' content)).y = label.margins.top := by
  decide +kernel

end Paper

end Letterhead
