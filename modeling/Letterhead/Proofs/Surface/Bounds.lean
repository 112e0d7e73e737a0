import Letterhead.Proofs.Surface.Lengths

/-!
Drawing within bounds: whatever is drawn on a paper whose cursor is within its bounds has finite
numbers only, and leaves the cursor within its bounds.
-/

namespace Letterhead

open Binary

/-- Lengths that leave room below infinity. The bottom margin only decides when pages end. -/
structure PaperSettings.Moderate (settings : PaperSettings) : Prop where
  width : Within lengthBits settings.page.width
  height : Within lengthBits settings.page.height
  top : Within lengthBits settings.margins.top
  left : Within lengthBits settings.margins.left
  right : Within lengthBits settings.margins.right
  fillGray : settings.fillGray.isFinite = true

structure CellLayout.Moderate (layout : CellLayout) : Prop where
  width : Within lengthBits layout.width
  height : Within lengthBits layout.height

namespace Paper

structure Bounded (paper : Paper) : Prop where
  settings : paper.settings.Moderate
  x : Within columnBits paper.x
  y : Within rowBits paper.y
  fontSize : Within fontBits paper.fontSize
  marks : paper.Bears Mark.Finite

namespace Bounded

variable {paper : Paper} {x height lineHeight : Float32} {text : List Char}

theorem draw (bounded : paper.Bounded) {mark : Mark} (finite : mark.Finite) :
    (paper.draw mark).Bounded :=
  ⟨bounded.settings, bounded.x, bounded.y, bounded.fontSize, bounded.marks.draw finite⟩

theorem foldl_draw (bounded : paper.Bounded) {marks : List Mark} (finite : ∀ mark ∈ marks, mark.Finite) :
    (marks.foldl Paper.draw paper).Bounded := by
  induction marks generalizing paper with
  | nil => exact bounded
  | cons mark rest ih =>
    rw [List.forall_mem_cons] at finite
    exact ih (bounded.draw finite.1) finite.2

theorem warnIfReplaced (bounded : paper.Bounded) (text : List Char) :
    (paper.warnIfReplaced text).Bounded := by
  rw [Paper.warnIfReplaced]
  split
  · exact ⟨bounded.settings, bounded.x, bounded.y, bounded.fontSize, bounded.marks⟩
  · exact bounded

theorem turnPageFor (bounded : paper.Bounded) (height : Float32) : (paper.turnPageFor height).Bounded := by
  rw [Paper.turnPageFor]
  split
  · exact ⟨bounded.settings, bounded.x, bounded.settings.top.mono (by decide), bounded.fontSize,
      bounded.marks.turnPage⟩
  · exact bounded

theorem startLine (bounded : paper.Bounded) (line : Within lengthBits lineHeight) :
    (paper.startLine lineHeight).Bounded :=
  ⟨bounded.settings, bounded.settings.left.mono (by decide), bounded.y.add_absorbs line (by decide),
    bounded.fontSize, bounded.marks⟩

/-- The cursor moves on. -/
theorem move (bounded : paper.Bounded) (within : Within columnBits x) : Bounded { paper with x } :=
  ⟨bounded.settings, within, bounded.y, bounded.fontSize, bounded.marks⟩

theorem measure (bounded : paper.Bounded) (text : List Char) (short : text.length ≤ 2 ^ 64) :
    Within extentBits (paper.measure text) :=
  textExtent_within short bounded.fontSize

/-- The font size in millimetres. -/
theorem size (bounded : paper.Bounded) : Within 11 (paper.fontSize / pointsPerMillimetre) :=
  inMillimetres_within bounded.fontSize (by decide)

theorem underlineMark (bounded : paper.Bounded) {baseline : Float32} (start : Within startBits x)
    (row : Within rowBits baseline) (short : text.length ≤ 2 ^ 64) :
    (paper.underlineMark x baseline text).Finite := by
  have shorter : (Text.trimEnd text).length ≤ 2 ^ 64 := by
    rw [Text.trimEnd, List.length_reverse]
    exact (List.dropWhile_sublist _).length_le.trans (by rwa [List.length_reverse])
  have thickness : Within 11 (0.05 * (paper.fontSize / pointsPerMillimetre)) :=
    (share_within (by simp)).mul bounded.size (by decide)
  have top : Within rowBits (baseline + 0.1 * (paper.fontSize / pointsPerMillimetre)) :=
    lowered_within (by simp) row (bounded.size.mono (by decide))
  have bottom : Within rowBits (baseline + 0.1 * (paper.fontSize / pointsPerMillimetre) +
      0.05 * (paper.fontSize / pointsPerMillimetre)) :=
    lowered_within (by simp) top (bounded.size.mono (by decide))
  intro number member
  simp only [Paper.underlineMark, Mark.numbers, Option.toList, List.cons_append, List.nil_append,
    List.append_nil, List.mem_cons, List.not_mem_nil, or_false] at member
  rcases member with rfl | rfl | rfl | rfl | rfl
  · exact toPoints_finite start (by decide)
  · exact flip_finite bottom bounded.settings.height
  · exact toPoints_finite (bounded.measure _ shorter) (by decide)
  · exact toPoints_finite thickness (by decide)
  · rfl

theorem place (bounded : paper.Bounded) (start : Within startBits x) (space : Within lengthBits height)
    (short : text.length ≤ 2 ^ 64) : (paper.place x height text).Bounded := by
  have baseline : Within rowBits
      (paper.y + 0.5 * height + 0.3 * (paper.fontSize / pointsPerMillimetre)) :=
    lowered_within (by simp) (lowered_within (by simp) bounded.y space) (bounded.size.mono (by decide))
  have shown (font bytes : Pdf.Bytes) : (Mark.text font paper.fontSize (toPoints x)
      (flip (paper.y + 0.5 * height + 0.3 * (paper.fontSize / pointsPerMillimetre))
        paper.settings.page.height) bytes).Finite := by
    intro number member
    simp only [Mark.numbers, List.mem_cons, List.not_mem_nil, or_false] at member
    rcases member with rfl | rfl | rfl
    · exact bounded.fontSize.finite
    · exact toPoints_finite start (by decide)
    · exact flip_finite baseline bounded.settings.height
  simp only [Paper.place]
  split
  · exact bounded
  · split
    · exact ((bounded.warnIfReplaced text).draw (shown _ _)).draw
        (bounded.underlineMark start baseline short)
    · exact (bounded.warnIfReplaced text).draw (shown _ _)

theorem emit (bounded : paper.Bounded) (start : Within startBits x) (space : Within lengthBits lineHeight)
    (short : text.length ≤ 2 ^ 64) : (paper.emit x lineHeight text).Bounded := by
  rw [Paper.emit]
  split
  · exact bounded
  · exact (bounded.turnPageFor lineHeight).place start space short

end Bounded

/-! ### Flowing text -/

-- After a text has come so far.
structure Line.Bounded (text : List Char) (line : Line) : Prop where
  paper : line.paper.Bounded
  start : Within columnBits line.start
  width : Within lineBits line.width
  shorter : line.text.length ≤ text.length

-- Each piece of a text that is short enough is too narrow to widen a line beyond its bound.
theorem Line.keeps_bounded {lineHeight : Float32} (space : Within lengthBits lineHeight) :
    Line.Keeps lineHeight fun text line => text.length ≤ 2 ^ 64 → line.Bounded text where
  flush before short := by
    obtain ⟨paper, start, width, shorter⟩ := before short
    have emitted := paper.emit (start.mono (by decide)) space (shorter.trans short)
    have turned := emitted.startLine space
    exact ⟨turned, turned.x, zero_within.mono (by decide), Nat.zero_le _⟩
  skip before short := by
    obtain ⟨paper, start, width, shorter⟩ := before short
    have turned := paper.startLine space
    exact ⟨turned, turned.x, width, shorter⟩
  append before added short := by
    rw [List.length_append] at short
    obtain ⟨paper, start, width, shorter⟩ := before (by omega)
    have extent := paper.measure added (by omega)
    refine ⟨paper, start, width.add_absorbs extent (by decide), ?_⟩
    simp only [Line.append, List.length_append]
    omega

namespace Bounded

variable {paper : Paper} {lineHeight : Float32} {layout : CellLayout}

theorem flowLine (bounded : paper.Bounded) (space : Within lengthBits lineHeight) {segment : List Char}
    (short : segment.length ≤ 2 ^ 64) : (paper.flowLine lineHeight segment).Bounded := by
  have empty : Line.Bounded [] ⟨paper, [], paper.x, 0⟩ :=
    ⟨bounded, bounded.x, zero_within.mono (by decide), Nat.zero_le _⟩
  have filled := (Line.keeps_bounded space).words (fun _ => empty) (Text.words ' ' segment)
  rw [List.nil_append, Text.flatten_words] at filled
  obtain ⟨last, start, width, shorter⟩ := filled short
  have emitted := last.emit (start.mono (by decide)) space (shorter.trans short)
  exact emitted.move (start.add_absorbs width (by decide))

theorem flowLines (bounded : paper.Bounded) (space : Within lengthBits lineHeight)
    {segments : List (List Char)} (short : ∀ segment ∈ segments, segment.length ≤ 2 ^ 64) :
    (paper.flowLines lineHeight segments).Bounded := by
  induction segments generalizing paper with
  | nil => exact bounded
  | cons segment rest ih =>
    rw [List.forall_mem_cons] at short
    have first := bounded.flowLine space short.1
    rcases rest with _ | ⟨next, others⟩
    · exact first
    · exact ih (first.startLine space) short.2

theorem flowText (bounded : paper.Bounded) (space : Within lengthBits lineHeight) {content : List Char}
    (short : content.length ≤ 2 ^ 64) : (paper.flowText lineHeight content).Bounded := by
  apply bounded.flowLines space
  intro segment member
  have part := (List.sublist_flatten_of_mem member).length_le
  rw [Text.flatten_pieces] at part
  exact part.trans ((List.length_filter_le _ _).trans ((List.length_filter_le _ _).trans short))

/-! ### Cells -/

theorem rightLimit (bounded : paper.Bounded) : Within 98 paper.rightLimit :=
  bounded.settings.width.sub bounded.settings.right (by decide)

theorem frameMark (bounded : paper.Bounded) {x width : Float32} (left : Within columnBits x)
    (across : Within columnBits width) (sized : layout.Moderate) :
    (paper.frameMark x width layout).Finite := by
  have foot : Within rowBits (paper.y + layout.height) := bounded.y.add_absorbs sized.height (by decide)
  intro number member
  simp only [Paper.frameMark, Mark.numbers, List.mem_append, List.mem_cons, List.not_mem_nil, or_false,
    Option.mem_toList] at member
  rcases member with ((rfl | rfl | rfl | rfl) | fill) | outline
  · exact toPoints_finite left (by decide)
  · exact flip_finite foot bounded.settings.height
  · exact toPoints_finite across (by decide)
  · exact toPoints_finite sized.height (by decide)
  · split at fill <;> cases fill
    exact bounded.settings.fillGray
  · split at outline <;> cases outline
    exact toPoints_finite ruleWidth_within (by decide)

theorem sideMarks (bounded : paper.Bounded) {x width : Float32} (left : Within columnBits x)
    (right : Within columnBits (x + width)) (sized : layout.Moderate) :
    ∀ mark ∈ paper.sideMarks x width layout, mark.Finite := by
  have foot : Within rowBits (paper.y + layout.height) := bounded.y.add_absorbs sized.height (by decide)
  have corners : ∀ number ∈ [toPoints x, toPoints (x + width), flip paper.y paper.settings.page.height,
      flip (paper.y + layout.height) paper.settings.page.height, toPoints ruleWidth],
      number.isFinite = true := by
    intro number member
    simp only [List.mem_cons, List.not_mem_nil, or_false] at member
    rcases member with rfl | rfl | rfl | rfl | rfl
    · exact toPoints_finite left (by decide)
    · exact toPoints_finite right (by decide)
    · exact flip_finite bounded.y bounded.settings.height
    · exact flip_finite foot bounded.settings.height
    · exact toPoints_finite ruleWidth_within (by decide)
  intro mark member number drawn
  apply corners
  simp only [Paper.sideMarks] at member
  split at member
  · cases member
  · simp only [List.mem_append] at member
    rcases member with ((side | side) | side) | side <;> split at side <;>
      simp only [List.mem_singleton, List.not_mem_nil] at side <;> subst side <;>
      simp only [Mark.numbers, List.mem_cons, List.not_mem_nil, or_false] at drawn ⊢ <;> tauto

theorem cellMarks (bounded : paper.Bounded) {x width : Float32} (left : Within columnBits x)
    (across : Within columnBits width) (right : Within columnBits (x + width)) (sized : layout.Moderate) :
    ∀ mark ∈ paper.cellMarks x width layout, mark.Finite := by
  intro mark member
  rcases List.mem_append.mp member with framed | side
  · split at framed
    · obtain rfl := List.mem_singleton.mp framed
      exact bounded.frameMark left across sized
    · cases framed
  · exact bounded.sideMarks left right sized mark side

theorem cellTextStart (bounded : paper.Bounded) {x width : Float32} (left : Within columnBits x)
    (across : Within columnBits width) (right : Within columnBits (x + width)) (align : Alignment)
    {text : List Char} (short : text.length ≤ 2 ^ 64) :
    Within startBits (paper.cellTextStart x width align text) := by
  have extent := bounded.measure text short
  cases align with
  | left => exact (left.add_absorbs cellInset_within (by decide)).mono (by decide)
  | center =>
    have rest : Within columnBits (width - paper.measure text) := across.sub_absorbs extent (by decide)
    have half : Within columnBits ((width - paper.measure text) / 2) := half_within rest (by decide)
    exact left.add half (by decide)
  | right =>
    have inner : Within columnBits (x + width - Paper.cellInset) :=
      right.sub_absorbs cellInset_within (by decide)
    exact (inner.sub_absorbs extent (by decide)).mono (by decide)

theorem boxText (bounded : paper.Bounded) {content : List Char} (short : content.length ≤ 2 ^ 64)
    (sized : layout.Moderate) : (paper.boxText content layout).Bounded := by
  have turned := bounded.turnPageFor layout.height
  have left := bounded.x
  -- An automatic width reaches to the right margin, and so does the cursor then.
  obtain ⟨width, chosen⟩ : ∃ width, width = if layout.width == 0
      then (paper.turnPageFor layout.height).rightLimit - paper.x else layout.width := ⟨_, rfl⟩
  have both : Within columnBits width ∧ Within columnBits (paper.x + width) := by
    rw [chosen]
    split
    · exact ⟨turned.rightLimit.sub_absorbed left (by decide), turned.rightLimit.add_rest left (by decide)⟩
    · exact ⟨sized.width.mono (by decide), left.add_absorbs sized.width (by decide)⟩
  have framed := turned.foldl_draw (turned.cellMarks left both.1 both.2 sized)
  have flat : (content.map flattenBreak).length ≤ 2 ^ 64 := by rwa [List.length_map]
  have start := framed.cellTextStart left both.1 both.2 layout.align flat
  have placed := (framed.place start sized.height flat).move both.2
  rw [chosen] at placed
  exact placed

end Bounded

end Paper

/-! ### Calls -/

/-- Asks for nothing greater than what leaves room below infinity. -/
def Call.Moderate : Call → Prop
  | .selectSize size => size ≤ 4096
  | .flowText lineHeight content => Within lengthBits lineHeight ∧ content.length ≤ 2 ^ 64
  | .boxText content layout => layout.Moderate ∧ content.length ≤ 2 ^ 64
  | _ => True

theorem Page.backdrop_numberless {backdrop : Option Pdf.Bytes} {operation : Pdf.Operation}
    (behind : operation ∈ backdropOperations backdrop) (number : Float32) :
    .real number ∉ operation.operands := by
  cases backdrop with
  | none => cases behind
  | some name =>
    simp only [backdropOperations, List.mem_cons, List.not_mem_nil, or_false] at behind
    rcases behind with rfl | rfl | rfl <;> simp [Pdf.Operation.operands]

namespace Paper.Bounded

variable {paper : Paper}

theorem stamp (bounded : paper.Bounded) (page templatePage : Nat) :
    (paper.stamp page templatePage).2.Bounded := by
  have bare := paper.stamp_bare page templatePage
  have settings : (paper.stamp page templatePage).2.settings = paper.settings :=
    (congrArg Paper.settings bare :)
  have x : (paper.stamp page templatePage).2.x = paper.x := (congrArg Paper.x bare :)
  have y : (paper.stamp page templatePage).2.y = paper.y := (congrArg Paper.y bare :)
  have size : (paper.stamp page templatePage).2.fontSize = paper.fontSize :=
    (congrArg Paper.fontSize bare :)
  exact ⟨settings ▸ bounded.settings, x ▸ bounded.x, y ▸ bounded.y, size ▸ bounded.fontSize,
    bounded.marks.stamp page templatePage⟩

theorem publish (bounded : paper.Bounded) (destination : Destination) :
    (paper.publish destination).2.Bounded := by
  rw [Paper.publish]
  simp only
  split <;> exact ⟨bounded.settings, bounded.x, bounded.y, bounded.fontSize, bears_of_blank rfl⟩

theorem answer (bounded : paper.Bounded) (destination : Destination) {call : Call}
    (moderate : call.Moderate) : (Paper.answer destination call paper).2.Bounded := by
  rw [Paper.answer.eq_def]
  split
  · exact bounded
  · cases call with
    | selectStyle variant =>
      exact ⟨bounded.settings, bounded.x, bounded.y, bounded.fontSize, bounded.marks⟩
    | selectSize size =>
      simp only
      split
      · rename_i accepted
        have within := within_of_positive accepted.1 accepted.2 moderate greatest_within
        exact ⟨bounded.settings, bounded.x, bounded.y, within, bounded.marks⟩
      · exact bounded
    | flowText lineHeight content => exact bounded.flowText moderate.1 moderate.2
    | boxText content layout =>
      simp only
      split
      · exact bounded
      · exact bounded.boxText moderate.2 moderate.1
    | stamp page templatePage => exact bounded.stamp page templatePage
    | write => exact bounded.publish destination

/-- All numbers in the content of the pages. -/
theorem operands (bounded : paper.Bounded) :
    ∀ page ∈ paper.sheets, ∀ operation ∈ page.content, ∀ number,
      .real number ∈ operation.operands → number.isFinite = true := by
  intro page member operation drawn number operand
  rcases List.mem_append.mp drawn with behind | marked
  · exact absurd operand (Page.backdrop_numberless behind number)
  · obtain ⟨mark, inside, among⟩ := List.mem_flatMap.mp marked
    rcases Mark.mem_numbers among operand with rfl | one
    · rfl
    · exact bounded.marks page member mark inside number one

end Paper.Bounded

end Letterhead
