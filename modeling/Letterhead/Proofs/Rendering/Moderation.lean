import Letterhead.Proofs.Rendering.Conservation
import Letterhead.Proofs.Rendering.Invariant
import Letterhead.Proofs.Surface.Bounds

/-!
A job of moderate size, with lengths up to 10²⁹ millimetres, is drawn with finite numbers only.
Beyond that, lengths may become infinite when they are added up or turned into points.
-/

namespace Letterhead

open Binary
open Markup (Tag Token)

/-! ### What a text asks for -/

theorem Markup.content_length_le {text content : List Char} (token : .content content ∈ tokenize text) :
    content.length ≤ text.length := by
  fun_induction tokenize text with
  | case1 text untagged =>
    obtain rfl := Token.content.inj (List.mem_singleton.mp token)
    exact Nat.le_refl _
  | case2 text split found ih =>
    have whole := congrArg List.length (split?_eq found)
    simp only [List.length_append, List.length_cons] at whole
    simp only [List.mem_cons, Token.content.injEq, reduceCtorEq, false_or] at token
    rcases token with rfl | later
    · omega
    · have rest := ih later
      omega

theorem CellState.prepare_length_le (state : CellState) (content : List Char) :
    (state.prepare content).1.length ≤ content.length := by
  rw [prepare]
  split
  · show (dropBreak content).length ≤ content.length
    unfold dropBreak
    split
    · simp only [List.length_cons]
      omega
    · exact Nat.le_succ _
    · exact Nat.le_refl _
  · exact Nat.le_refl _

/-- The cells that a text opens are of moderate size, and so are its pieces. -/
def Token.Moderate : Token → Prop
  | .content content => content.length ≤ 2 ^ 64
  | .tag tag => TagRole.ofName tag.name = .cell → tag.closing = false →
      (CellLayout.ofAttributes tag.attributes).Moderate

namespace TextState

structure Moderate (text : TextState) : Prop where
  regular : text.sizes.regular ≤ 4096
  small : text.sizes.small ≤ 4096
  layout : ∀ layout, text.cell.layout = some layout → layout.Moderate

variable {text : TextState} {lineHeight : Float32}

theorem Moderate.selected (moderate : text.Moderate) (isSmall : Bool) :
    (text.sizes.select isSmall).current ≤ 4096 := by
  cases isSmall
  · exact moderate.regular
  · exact moderate.small

theorem Moderate.step (moderate : text.Moderate) {token : Token} (sized : Token.Moderate token) :
    (text.step lineHeight token).2.Moderate := by
  obtain ⟨regular, small⟩ := text.step_sizes lineHeight token
  refine ⟨regular ▸ moderate.regular, small ▸ moderate.small, fun layout given => ?_⟩
  rcases text.step_layout lineHeight given with before | ⟨tag, rfl, role, opens, rfl⟩
  · exact moderate.layout layout before
  · exact sized role opens

theorem Moderate.asked (moderate : text.Moderate) (space : Within lengthBits lineHeight) {token : Token}
    (sized : Token.Moderate token) {call : Call} (asked : call ∈ (text.step lineHeight token).1) :
    call.Moderate := by
  cases token with
  | content content =>
    have short := (text.cell.prepare_length_le content).trans sized
    have layout := text.cell.prepare_layout content
    simp only [TextState.step, drawing] at asked
    split at asked
    · cases asked
    · split at asked <;> cases asked
      · rename_i cell given
        exact ⟨moderate.layout cell (layout ▸ given), short⟩
      · exact ⟨space, short⟩
  | tag tag =>
    simp only [TextState.step, stepTag] at asked
    split at asked <;> cases asked
    · trivial
    · exact moderate.selected _

theorem Moderate.calls (moderate : text.Moderate) (space : Within lengthBits lineHeight)
    {tokens : List Token} (sized : ∀ token ∈ tokens, Token.Moderate token) :
    ∀ call ∈ text.calls lineHeight tokens, call.Moderate := by
  intro call asked
  induction tokens generalizing text with
  | nil => cases asked
  | cons token rest ih =>
    rw [List.forall_mem_cons] at sized
    rcases List.mem_append.mp asked with here | later
    · exact moderate.asked space sized.1 (Option.mem_toList.mp here)
    · exact ih (moderate.step sized.1) sized.2 later

theorem Moderate.opening (moderate : text.Moderate) : ∀ call ∈ text.opening, call.Moderate := by
  intro call asked
  simp only [TextState.opening, List.mem_cons, List.not_mem_nil, or_false] at asked
  rcases asked with rfl | rfl
  · trivial
  · exact moderate.selected text.sizes.isSmall

end TextState

/-! ### The pass -/

-- As long as all calls so far were moderate.
def Traced.Bounded (state : Traced Paper) : Prop :=
  (∀ call ∈ state.log, call.Moderate) → state.surface.Bounded

theorem Paper.surface_keeps_bounds (destination : Destination) :
    (surface destination).tracing.Keeps Traced.Bounded where
  answer call state before moderate := by
    obtain ⟨now, earlier⟩ := List.forall_mem_cons.mp moderate
    exact (before earlier).answer destination now
  drainBreaks before moderate :=
    have bounded := before moderate
    ⟨bounded.settings, bounded.x, bounded.y, bounded.fontSize, bounded.marks⟩
  drainWarnings before moderate :=
    have bounded := before moderate
    ⟨bounded.settings, bounded.x, bounded.y, bounded.fontSize, bounded.marks⟩

theorem Call.moderate_of_isStamp {call : Call} (stamp : call.isStamp = true) : call.Moderate := by
  cases call <;> trivial

theorem Pass.beforeWriting_bounded (destination : Destination) (brief : Brief) {paper : Paper}
    {text : TextState} {tokens : List Token} (bounded : paper.Bounded) (moderate : text.Moderate)
    (space : Within lengthBits brief.lineHeight) (sized : ∀ token ∈ tokens, Token.Moderate token) :
    (Pass.beforeWriting (Paper.surface destination) brief { surface := paper, text } tokens).surface.Bounded := by
  let traced := Pass.beforeWriting (Paper.surface destination).tracing brief
    { surface := ⟨paper, []⟩, text } tokens
  have kept : traced.surface.Bounded :=
    (Paper.surface_keeps_bounds destination).beforeWriting brief (fun _ => bounded) tokens
  obtain ⟨others, -⟩ := Pass.beforeWriting_calls (Paper.surface destination) brief
    { surface := ⟨paper, []⟩, text } tokens
  have all : ∀ call ∈ traced.surface.log, call.Moderate := by
    intro call made
    by_cases stamp : call.isStamp = true
    · exact Call.moderate_of_isStamp stamp
    · have other : call ∈ traced.surface.others :=
        List.mem_filter.mpr ⟨List.mem_reverse.mpr made, by simp [stamp]⟩
      rw [others] at other
      rcases List.mem_append.mp other with opening | later
      · exact moderate.opening call opening
      · exact moderate.calls space sized call later
  have same := Pass.beforeWriting_untraced (Paper.surface destination) brief
    { surface := ⟨paper, []⟩, text } tokens
  exact (congrArg Pass.surface same) ▸ kept all

/-! ### Jobs -/

theorem clampGray_finite {level : Float32} (number : level.isNaN = false) :
    (Config.clampGray level).isFinite = true := by
  rw [Config.clampGray]
  split
  · rfl
  · split
    · rfl
    · rename_i low high
      exact finite_of_not_lt number low high rfl rfl

/-- Lengths are at most 10²⁹ millimetres, font sizes at most 4096 points. No cell is greater, and the
text is not so long that its characters could not be counted with 64 bits. -/
structure Job.Moderate (job : Job) : Prop where
  width : job.config.page.width ≤ 1e29
  height : job.config.page.height ≤ 1e29
  top : -1e29 ≤ job.config.margins.top ∧ job.config.margins.top ≤ 1e29
  left : -1e29 ≤ job.config.margins.left ∧ job.config.margins.left ≤ 1e29
  right : -1e29 ≤ job.config.margins.right ∧ job.config.margins.right ≤ 1e29
  fontSize : job.config.fontSize ≤ 4096
  smallFontSize : job.config.smallFontSize ≤ 4096
  lineHeight : job.config.lineHeight ≤ 1e29
  cellFillGray : job.config.cellFillGray.isNaN = false
  text : job.text.length ≤ 2 ^ 64
  cells : ∀ tag, .tag tag ∈ Markup.tokenize job.text → TagRole.ofName tag.name = .cell →
    tag.closing = false → (CellLayout.ofAttributes tag.attributes).width ≤ 1e29 ∧
      (CellLayout.ofAttributes tag.attributes).height ≤ 1e29

namespace Job

variable {job : Job}

theorem within_of_setting (valid : job.config.fault? = none) (name : String) {setting greatest : Float32}
    {bits : Int} (member : (name, setting) ∈ job.config.positiveSettings) (small : setting ≤ greatest)
    (bound : Within bits greatest) : Within bits setting := by
  have positive := Config.positive_of_fault? valid _ member
  rw [Config.isPositive, Bool.and_eq_true, decide_eq_true_eq] at positive
  exact within_of_positive positive.1 positive.2 small bound

theorem Moderate.blank (moderate : job.Moderate) (valid : job.config.fault? = none) :
    job.blank.Bounded := by
  have width : Within lengthBits job.config.page.width :=
    within_of_setting valid "page.width" (by simp [Config.positiveSettings]) moderate.width longest_within
  have height : Within lengthBits job.config.page.height :=
    within_of_setting valid "page.height" (by simp [Config.positiveSettings]) moderate.height longest_within
  have size : Within fontBits job.config.fontSize :=
    within_of_setting valid "defaultFontSize" List.mem_cons_self moderate.fontSize greatest_within
  have margin {length : Float32} (between : -1e29 ≤ length ∧ length ≤ 1e29) : Within lengthBits length :=
    within_of_between between.1 between.2 lowest_within longest_within
  have settings : job.config.paperSettings.Moderate :=
    { width
      height
      top := margin moderate.top
      left := margin moderate.left
      right := margin moderate.right
      fillGray := clampGray_finite moderate.cellFillGray }
  exact ⟨settings, settings.left.mono (by decide), settings.top.mono (by decide), size,
    Paper.bears_of_blank rfl⟩

theorem Moderate.tokens (moderate : job.Moderate) :
    ∀ token ∈ Markup.tokenize job.text, Token.Moderate token := by
  intro token member
  cases token with
  | content content => exact (Markup.content_length_le member).trans moderate.text
  | tag tag =>
    intro role opens
    obtain ⟨width, height⟩ := moderate.cells tag member role opens
    obtain ⟨least, lowest⟩ := CellLayout.ofAttributes_least tag.attributes
    have zero : Within lengthBits 0 := zero_within.mono (by decide)
    exact ⟨within_of_between least width zero longest_within,
      within_of_between lowest height zero longest_within⟩

/-- A job of moderate size with valid settings is written as pages on which every operand that is a
number is finite, however long the text is and wherever its lines and pages break. -/
theorem writes_finite_numbers (job : Job) (destination : Destination)
    (valid : job.config.fault? = none) (moderate : job.Moderate)
    (accepts : ∀ document, destination document = .ok ()) :
    ∃ pass document, job.run destination = .ok pass ∧ pass.surface.written = some document ∧
      document.pageIds.map document.pageContent =
        (job.pages destination).map (fun page => Pdf.contentBytes page.content) ∧
      ∀ page ∈ job.pages destination, ∀ operation ∈ page.content, ∀ number,
        .real number ∈ operation.operands → number.isFinite = true := by
  obtain ⟨opened, -⟩ := job.beforeWriting_glyphs destination valid
  have space : Within lengthBits job.config.lineHeight :=
    within_of_setting valid "lineHeight" (by simp [Config.positiveSettings]) moderate.lineHeight
      longest_within
  have start : job.start.Moderate := ⟨moderate.fontSize, moderate.smallFontSize, fun _ given => by cases given⟩
  have bounded : (job.beforeWriting destination).surface.Bounded :=
    Pass.beforeWriting_bounded destination job.brief (moderate.blank valid) start space moderate.tokens
  refine ⟨job.draw destination, job.document destination, run_of_valid valid,
    draw_written opened (accepts _), document_contents, ?_⟩
  rw [pages_eq_sheets opened]
  exact bounded.operands

def longCells : Job :=
  { text := "<CELL W=1e29 BORDER=1>a</CELL><CELL H=1e29 BORDER=L>b</CELL>".toList
    destination := "cells.pdf" }

theorem writes_long_cells :
    longCells.config.fault? = none ∧ longCells.Moderate ∧ (∀ document, accepting document = .ok ()) ∧
      ∃ pass document, longCells.run accepting = .ok pass ∧ pass.surface.written = some document ∧
        document.pageIds.map document.pageContent =
          (longCells.pages accepting).map (fun page => Pdf.contentBytes page.content) ∧
        ∀ page ∈ longCells.pages accepting, ∀ operation ∈ page.content, ∀ number,
          .real number ∈ operation.operands → number.isFinite = true := by
  have valid : longCells.config.fault? = none := by decide
  have cells : ((Markup.tokenize longCells.text).all fun
      | .content _ => true
      | .tag tag => decide ((CellLayout.ofAttributes tag.attributes).width ≤ 1e29 ∧
          (CellLayout.ofAttributes tag.attributes).height ≤ 1e29)) = true := by
    decide +kernel
  have moderate : longCells.Moderate :=
    { width := by decide +kernel
      height := by decide +kernel
      top := by decide +kernel
      left := by decide +kernel
      right := by decide +kernel
      fontSize := by decide +kernel
      smallFontSize := by decide +kernel
      lineHeight := by decide +kernel
      cellFillGray := by decide +kernel
      text := by decide +kernel
      cells := fun tag member _ _ => of_decide_eq_true (List.all_eq_true.mp cells (.tag tag) member) }
  exact ⟨valid, moderate, fun _ => rfl, longCells.writes_finite_numbers accepting valid moderate fun _ => rfl⟩

def wideCell : Job :=
  { text := "<CELL W=3e38 BORDER=1>a</CELL>".toList, destination := "cell.pdf" }

/-- A width that is finite in millimetres need not be so in points. -/
theorem wide_cell_is_infinite :
    Config.ofJson "{}".toList = .ok wideCell.config ∧ wideCell.config.fault? = none ∧
      ¬ ∀ page ∈ wideCell.pages accepting, ∀ operation ∈ page.content, ∀ number,
        .real number ∈ operation.operands → number.isFinite = true := by
  have found : ((wideCell.pages accepting).any fun page => page.content.any fun operation =>
      operation.operands.any fun
        | .real number => !number.isFinite
        | _ => false) = true := by
    decide +kernel
  refine ⟨by rfl, by decide, fun finite => ?_⟩
  obtain ⟨page, member, drawn⟩ := List.any_eq_true.mp found
  obtain ⟨operation, inside, shown⟩ := List.any_eq_true.mp drawn
  obtain ⟨operand, among, infinite⟩ := List.any_eq_true.mp shown
  split at infinite
  · rename_i number
    rw [finite page member operation inside number among] at infinite
    cases infinite
  · cases infinite

end Job

end Letterhead
