import Letterhead.Proofs.Rendering.Room
import Letterhead.Proofs.Surface.Cells
import Letterhead.Proofs.Surface.Pagination

/-!
How wide cells are drawn. A cell of width zero reaches from the cursor to the right margin, and nobody
asks whether the cursor is beyond it already, after wide cells or after spaces at the end of a line. In
a run of texts and cells, each cell has a width and leads further to the right exactly if all cells of
that kind begin within the margin.
-/

namespace Letterhead

open Binary

/-- Text, or a cell with lengths for sizes. -/
def Call.IsMeasured : Call → Prop
  | .flowText .. => True
  | .boxText _ layout =>
    (layout.width.isFinite = true ∧ 0 ≤ layout.width) ∧
      layout.height.isFinite = true ∧ 0 ≤ layout.height
  | _ => False

namespace Paper

variable {paper : Paper} {config : Config} (destination : Destination)

/-! ### Runs of texts and cells -/

theorem answer_measured {call : Call} (measured : call.IsMeasured) (opened : paper.closed = false) :
    Kept paper ((surface destination).answer call paper).2 := by
  cases call with
  | flowText lineHeight content =>
    rw [answer_flowText destination opened]
    exact flowText_kept lineHeight paper content
  | boxText content layout =>
    obtain ⟨⟨-, wide⟩, -, tall⟩ := measured
    rw [answer_boxText destination opened content (not_lt_of_le_float tall) (not_lt_of_le_float wide)]
    exact boxText_kept paper content layout
  | selectStyle | selectSize | stamp | write => exact measured.elim

theorem after_measured {calls : List Call} (measured : ∀ call ∈ calls, call.IsMeasured)
    (opened : paper.closed = false) :
    Kept paper ((surface destination).after paper (calls.map .call)) := by
  induction calls generalizing paper with
  | nil => exact ⟨rfl, rfl, rfl, rfl, rfl, rfl, rfl, rfl⟩
  | cons call rest ih =>
    obtain ⟨first, later⟩ := List.forall_mem_cons.mp measured
    have kept := answer_measured destination first opened
    exact kept.trans (ih later (kept.closed.trans opened))

/-- Something holds of each cell of a run, with the paper as it is when the cell is asked for. -/
def EachCell (paper : Paper) (calls : List Call) (holds : Paper → List Char → CellLayout → Prop) : Prop :=
  ∀ before call later, calls = before ++ call :: later →
    ∀ content layout, call = .boxText content layout →
      holds ((surface destination).after paper (before.map .call)) content layout

variable {holds : Paper → List Char → CellLayout → Prop}

theorem eachCell_nil (paper : Paper) : paper.EachCell destination [] holds := by
  intro before call later split
  simp at split

theorem eachCell_cons {call : Call} {rest : List Call} :
    paper.EachCell destination (call :: rest) holds ↔
      (∀ content layout, call = .boxText content layout → holds paper content layout) ∧
        ((surface destination).answer call paper).2.EachCell destination rest holds :=
  Text.forall_cut_cons fun before call _ => ∀ content layout, call = Call.boxText content layout →
    holds ((surface destination).after paper (before.map .call)) content layout

/-! ### Where the cursor is -/

/-- An open paper of these settings, with the cursor at a length from the left edge. -/
structure Advancing (config : Config) (paper : Paper) : Prop where
  opened : paper.closed = false
  settings : paper.settings = config.paperSettings
  fontSize : paper.fontSize.isFinite = true ∧ 0 < paper.fontSize
  x : 0 ≤ paper.x

theorem measure_nonneg (fontSize : paper.fontSize.isFinite = true ∧ 0 < paper.fontSize) (text : List Char) :
    0 ≤ paper.measure text := by
  have size := mul_nonneg_float (ofNat_nonneg text.length) fontSize.1 fontSize.2
  have half := mul_nonneg_float size (s := 0.5) (by decide) (by decide)
  exact div_nonneg_float half (by decide) (by decide)

/-- A line that begins at a length from the left edge, and has one itself. -/
structure Line.Advancing (paper : Paper) (line : Line) : Prop where
  settings : line.paper.settings = paper.settings
  fontSize : line.paper.fontSize = paper.fontSize
  start : 0 ≤ line.start
  width : 0 ≤ line.width

theorem Line.keeps_advancing (lineHeight : Float32) (left : 0 ≤ paper.settings.margins.left)
    (fontSize : paper.fontSize.isFinite = true ∧ 0 < paper.fontSize) :
    Line.Keeps lineHeight fun _ line => line.Advancing paper where
  flush {_ line} before := by
    have kept := emit_kept lineHeight line.paper line.start line.text
    have settings := kept.settings.trans before.settings
    have start : (line.flush lineHeight).start = paper.settings.margins.left :=
      congrArg (·.margins.left) settings
    exact ⟨settings, kept.fontSize.trans before.fontSize, start ▸ left, zero_nonneg⟩
  skip before := ⟨before.settings, before.fontSize, before.settings.symm ▸ left, before.width⟩
  append before added := by
    refine ⟨before.settings, before.fontSize, before.start, add_nonneg_float before.width ?_⟩
    exact measure_nonneg (before.fontSize ▸ fontSize) added

theorem x_flowLine (lineHeight : Float32) (left : 0 ≤ paper.settings.margins.left)
    (fontSize : paper.fontSize.isFinite = true ∧ 0 < paper.fontSize) (x : 0 ≤ paper.x)
    (segment : List Char) : 0 ≤ (paper.flowLine lineHeight segment).x := by
  have empty : Line.Advancing paper ⟨paper, [], paper.x, 0⟩ := ⟨rfl, rfl, x, zero_nonneg⟩
  have last := @Line.Keeps.words lineHeight _ _ [] (Line.keeps_advancing lineHeight left fontSize) empty
    (Text.words ' ' segment)
  exact add_nonneg_float last.start last.width

theorem x_flowLines (lineHeight : Float32) (left : 0 ≤ paper.settings.margins.left)
    (fontSize : paper.fontSize.isFinite = true ∧ 0 < paper.fontSize) (x : 0 ≤ paper.x)
    (segments : List (List Char)) : 0 ≤ (paper.flowLines lineHeight segments).x := by
  induction segments generalizing paper with
  | nil => exact x
  | cons segment rest ih =>
    have kept := flowLine_kept lineHeight paper segment
    rcases rest with _ | ⟨next, others⟩
    · exact x_flowLine lineHeight left fontSize x segment
    · have still : 0 ≤ (paper.flowLine lineHeight segment).settings.margins.left := kept.settings ▸ left
      change 0 ≤ (((paper.flowLine lineHeight segment).startLine lineHeight).flowLines lineHeight
        (next :: others)).x
      exact ih still (kept.fontSize.symm ▸ fontSize) still

/-! ### Between the margins -/

section Margins

variable (valid : config.fault? = none)
  (left : config.margins.left.isFinite = true ∧ 0 ≤ config.margins.left)
  (right : config.margins.right.isFinite = true ∧ 0 ≤ config.margins.right)
  (settings : paper.settings = config.paperSettings)

include valid right settings in
theorem rightLimit_finite : paper.rightLimit.isFinite = true := by
  obtain ⟨width, wide, -⟩ := Config.finite_of_fault? valid
  rw [rightLimit, settings]
  exact sub_finite width right.1 (le_of_lt_float wide) right.2

include valid left right settings in
theorem left_le_rightLimit : config.margins.left ≤ paper.rightLimit := by
  rw [rightLimit, settings]
  exact Config.left_le_right valid (isNumber_iff.mp (isNumber_add (isNumber_of_finite left.1) right.1))

include valid right settings in
/-- A cell of width zero has a width exactly if it begins within the right margin. -/
theorem cellWidth_nonneg_iff {layout : CellLayout} (width : 0 ≤ layout.width) :
    0 ≤ paper.cellWidth layout ↔ ((layout.width == 0) = true → paper.x ≤ paper.rightLimit) := by
  rw [cellWidth]
  split
  · rename_i automatic
    rw [sub_nonneg_iff (rightLimit_finite valid right settings)]
    exact ⟨fun within _ => within, fun within => within automatic⟩
  · rename_i given
    exact ⟨fun _ automatic => absurd automatic given, fun _ => width⟩

include valid right in
theorem Advancing.cellWidth_finite (advancing : paper.Advancing config) {layout : CellLayout}
    (width : layout.width.isFinite = true)
    (within : (layout.width == 0) = true → paper.x ≤ paper.rightLimit) :
    (paper.cellWidth layout).isFinite = true := by
  have limit := rightLimit_finite valid right advancing.settings
  rw [cellWidth]
  split
  · rename_i automatic
    have near := within automatic
    have finite := finite_of_between advancing.x near zero_within.finite limit
    exact sub_finite limit finite (le_trans_float advancing.x near) advancing.x
  · exact width

end Margins

/-! ### Cells that lead on -/

/-- The cell has a width, and the cursor is not further left after it. -/
def LeadsOn (paper : Paper) (content : List Char) (layout : CellLayout) : Prop :=
  0 ≤ paper.cellWidth layout ∧
    paper.x ≤ ((surface destination).answer (.boxText content layout) paper).2.x

/-- If the cell reaches to the right margin, it begins within it. -/
def StartsWithin (paper : Paper) (_content : List Char) (layout : CellLayout) : Prop :=
  (layout.width == 0) = true → paper.x ≤ paper.rightLimit

theorem x_boxText (paper : Paper) (content : List Char) (layout : CellLayout) :
    (paper.boxText content layout).x = paper.x + paper.cellWidth layout := by
  rw [boxText_eq]

section Run

variable (valid : config.fault? = none)
  (left : config.margins.left.isFinite = true ∧ 0 ≤ config.margins.left)
  (right : config.margins.right.isFinite = true ∧ 0 ≤ config.margins.right)

include valid right

theorem Advancing.leadsOn (advancing : paper.Advancing config) {content : List Char} {layout : CellLayout}
    (measured : (Call.boxText content layout).IsMeasured) (within : paper.StartsWithin content layout) :
    paper.LeadsOn destination content layout := by
  obtain ⟨⟨finite, wide⟩, -, tall⟩ := measured
  have width := (cellWidth_nonneg_iff valid right advancing.settings wide).mpr within
  refine ⟨width, ?_⟩
  rw [answer_boxText destination advancing.opened content (not_lt_of_le_float tall) (not_lt_of_le_float wide),
    x_boxText]
  exact le_add_of_nonneg (isNumber_of_le advancing.x).2
    (advancing.cellWidth_finite valid right finite within) width

include left

theorem Advancing.next (advancing : paper.Advancing config) {call : Call} (measured : call.IsMeasured)
    (within : ∀ content layout, call = .boxText content layout → paper.StartsWithin content layout) :
    ((surface destination).answer call paper).2.Advancing config := by
  have kept := answer_measured destination measured advancing.opened
  refine ⟨kept.closed.trans advancing.opened, kept.settings.trans advancing.settings,
    kept.fontSize.symm ▸ advancing.fontSize, ?_⟩
  cases call with
  | flowText lineHeight content =>
    rw [answer_flowText destination advancing.opened, flowText_eq]
    exact x_flowLines lineHeight (advancing.settings.symm ▸ left.2) advancing.fontSize advancing.x _
  | boxText content layout =>
    have leads := advancing.leadsOn destination valid right measured (within content layout rfl)
    exact le_trans_float advancing.x leads.2
  | selectStyle | selectSize | stamp | write => exact measured.elim

theorem Advancing.eachCell {calls : List Call} (measured : ∀ call ∈ calls, call.IsMeasured)
    (advancing : paper.Advancing config) (within : paper.EachCell destination calls StartsWithin) :
    paper.EachCell destination calls (LeadsOn destination) := by
  induction calls generalizing paper with
  | nil => exact eachCell_nil destination paper
  | cons call rest ih =>
    obtain ⟨first, later⟩ := List.forall_mem_cons.mp measured
    obtain ⟨here, others⟩ := (eachCell_cons destination).mp within
    refine (eachCell_cons destination).mpr ⟨?_, ?_⟩
    · rintro content layout rfl
      exact advancing.leadsOn destination valid right first (here content layout rfl)
    · exact ih later (advancing.next destination valid left right first here) others

end Run

theorem new_advancing (valid : config.fault? = none) (left : 0 ≤ config.margins.left)
    (template : Option Template) : (new config.paperSettings template).Advancing config where
  opened := rfl
  settings := rfl
  fontSize := Config.fontSize_of_fault? valid
  x := left

/-- A text that ends with a line feed leaves the cursor at the margin. -/
theorem x_flowText_feed (lineHeight : Float32) {text : List Char}
    (feed : (Text.unreturned text).getLast? = some '\n') :
    (paper.flowText lineHeight text).x = paper.settings.margins.left + 0 := by
  obtain ⟨body, ends⟩ := List.getLast?_eq_some_iff.mp feed
  have kept := (flowLines_kept lineHeight paper (Text.pieces '\n' body)).settings
  rw [flowText_eq, ends, Text.pieces_append_cons,
    flowLines_append lineHeight paper (Text.pieces_ne_nil '\n' body) (Text.pieces_ne_nil '\n' [])]
  exact congrArg (·.margins.left + 0) kept

/-- In a run of texts and cells, all cells have a width and lead on to the right exactly if all those
that reach to the right margin begin within it. One that is the first on its line, because it is the
first of all or a line feed comes before it, always leads on. -/
theorem cells_lead_on_iff_they_start_within (config : Config) (valid : config.fault? = none)
    (left : config.margins.left.isFinite = true ∧ 0 ≤ config.margins.left)
    (right : config.margins.right.isFinite = true ∧ 0 ≤ config.margins.right) (template : Option Template)
    (calls : List Call) (measured : ∀ call ∈ calls, call.IsMeasured) :
    let start := new config.paperSettings template
    (start.EachCell destination calls (LeadsOn destination) ↔
        start.EachCell destination calls StartsWithin) ∧
      ∀ before content layout later, calls = before ++ .boxText content layout :: later →
        (before = [] ∨ ∃ earlier lineHeight text, before = earlier ++ [.flowText lineHeight text] ∧
          (Text.unreturned text).getLast? = some '\n') →
        ((surface destination).after start (before.map .call)).LeadsOn destination content layout := by
  intro start
  have begun := new_advancing valid left.2 template
  have reached (before : List Call) {rest : List Call} (split : calls = before ++ rest) :
      Kept start ((surface destination).after start (before.map .call)) := by
    apply after_measured destination _ begun.opened
    intro call member
    exact measured call (split ▸ List.mem_append_left rest member)
  refine ⟨⟨?_, begun.eachCell destination valid left right measured⟩, ?_⟩
  · rintro each before _ later split content layout rfl
    have settings := (reached before split).settings
    have width : 0 ≤ layout.width := (measured (.boxText content layout) (by simp [split])).1.2
    exact (cellWidth_nonneg_iff valid right settings width).mp (each before _ later split content layout rfl).1
  · intro before content layout later split first
    have kept := reached before split
    have cell : (Call.boxText content layout).IsMeasured := measured _ (by simp [split])
    have limit := left_le_rightLimit valid left right kept.settings
    have margin : 0 ≤ ((surface destination).after start (before.map .call)).x ∧
        ((surface destination).after start (before.map .call)).x ≤ config.margins.left := by
      rcases first with rfl | ⟨earlier, lineHeight, text, rfl, feed⟩
      · exact ⟨left.2, le_self (isNumber_of_finite left.1)⟩
      · have still := reached earlier (split.trans (List.append_assoc ..))
        rw [List.map_append, Surface.after_append]
        generalize (surface destination).after start (earlier.map .call) = paper at still ⊢
        have drawn : (surface destination).after paper ([.flowText lineHeight text].map .call) =
            paper.flowText lineHeight text :=
          after_flowText destination (still.closed.trans begun.opened) lineHeight [text]
        rw [drawn, x_flowText_feed lineHeight feed, still.settings]
        exact ⟨add_nonneg_float left.2 zero_nonneg, add_zero_le left.1⟩
    have advancing : Advancing config ((surface destination).after start (before.map .call)) :=
      ⟨kept.closed.trans begun.opened, kept.settings, kept.fontSize.symm ▸ begun.fontSize, margin.1⟩
    exact advancing.leadsOn destination valid right cell fun _ => le_trans_float margin.2 limit

/-- A row of a table, and one cell across the page below it. -/
def tableRow : List Call :=
  [.boxText ['a'] { width := 50 }, .boxText ['b'] {}, .flowText 5 ['\n'], .boxText ['c'] {}]

theorem table_row_leads_on :
    ({} : Config).fault? = none ∧ (∀ call ∈ tableRow, call.IsMeasured) ∧
      (new ({} : Config).paperSettings none).EachCell (fun _ => .ok ()) tableRow
        (LeadsOn fun _ => .ok ()) := by
  have valid : ({} : Config).fault? = none := by decide +kernel
  have measured : ∀ call ∈ tableRow, call.IsMeasured := by
    simp only [tableRow, List.forall_mem_cons]
    refine ⟨?_, ?_, trivial, ?_, nofun⟩ <;> exact ⟨by decide +kernel, by decide +kernel⟩
  have within : (new ({} : Config).paperSettings none).EachCell (fun _ => .ok ()) tableRow StartsWithin := by
    simp only [tableRow, eachCell_cons]
    refine ⟨?_, ?_, nofun, ?_, eachCell_nil _ _⟩ <;>
      (rintro content layout ⟨⟩; intro _; decide +kernel)
  obtain ⟨leads, -⟩ := cells_lead_on_iff_they_start_within (fun _ => .ok ()) {} valid
    (by decide +kernel) (by decide +kernel) none tableRow measured
  exact ⟨valid, measured, leads.mpr within⟩

/-- A cell that is wider than the page leaves no room for the next one. -/
theorem cell_beyond_margin_leads_back :
    ({} : Config).fault? = none ∧
      let onto := surface fun _ => .ok ()
      let paper := onto.after (new ({} : Config).paperSettings none)
        [.call (.boxText ['a'] { width := 250 })]
      paper.x = 260 ∧ paper.cellWidth {} = -60 ∧ (onto.answer (.boxText ['b'] {}) paper).2.x = 200 := by
  decide +kernel

end Paper

end Letterhead
