import Letterhead.Proofs.Markup.LineEndings
import Letterhead.Proofs.Rendering.Replacements
import Mathlib.Algebra.GroupWithZero.Nat

/-!
The same text with line feeds alone, and with a carriage return before each of them. Where text
flows, and where a line ending after a cell is left out, the two are drawn alike. A line ending
inside a cell is drawn as one space for each of its characters, so there the second one is longer.
-/

namespace Letterhead

open Markup (Token)
open Text (withReturns)

/-! ### What is asked for -/

def Call.withReturns : Call → Call
  | .flowText lineHeight content => .flowText lineHeight (Text.withReturns content)
  | .boxText content layout => .boxText (Text.withReturns content) layout
  | call => call

/-- How many lines end inside a cell. -/
def Call.boxedBreaks : Call → Nat
  | .boxText content _ => content.count '\n'
  | _ => 0

theorem CellState.prepare_withReturns (state : CellState) {content : List Char}
    (unreturned : '\r' ∉ content) :
    state.prepare (withReturns content) =
      (withReturns (state.prepare content).1, (state.prepare content).2) := by
  have dropped : dropBreak (withReturns content) = withReturns (dropBreak content) := by
    rcases content with _ | ⟨c, rest⟩
    · rfl
    · by_cases feed : c = '\n'
      · subst feed
        rfl
      · have other : c ≠ '\r' := by rintro rfl; exact unreturned List.mem_cons_self
        rw [Text.withReturns_cons feed]
        simp [dropBreak, feed, other, Text.withReturns_cons feed]
  rw [prepare, prepare, Text.isEmpty_withReturns]
  split
  · simp only [dropped, Text.all_isBlank_withReturns]
  · rfl

theorem TextState.drawing_withReturns (lineHeight : Float32) (layout : Option CellLayout)
    (content : List Char) :
    drawing lineHeight layout (withReturns content) =
      (drawing lineHeight layout content).map Call.withReturns := by
  rw [drawing.eq_def, drawing.eq_def, Text.isEmpty_withReturns]
  split
  · rfl
  · cases layout <;> rfl

theorem TextState.step_withReturns (text : TextState) (lineHeight : Float32) {token : Token}
    (unreturned : token.Unreturned) :
    text.step lineHeight token.withReturns =
      ((text.step lineHeight token).1.map Call.withReturns, (text.step lineHeight token).2) := by
  cases token with
  | content content =>
    simp only [Token.withReturns, step, text.cell.prepare_withReturns unreturned, drawing_withReturns]
  | tag tag =>
    have drawn : ∀ call ∈ (text.stepTag tag).1, call.withReturns = call := by
      intro call asked
      rw [stepTag] at asked
      split at asked <;> cases asked <;> rfl
    show text.stepTag tag = (_, _)
    refine Prod.ext ?_ rfl
    cases asked : (text.stepTag tag).1 with
    | none => simp [step, asked]
    | some call => simp [step, asked, drawn call asked]

theorem TextState.calls_withReturns (text : TextState) (lineHeight : Float32) {tokens : List Token}
    (unreturned : ∀ token ∈ tokens, token.Unreturned) :
    text.calls lineHeight (tokens.map Token.withReturns) =
      (text.calls lineHeight tokens).map Call.withReturns := by
  induction tokens generalizing text with
  | nil => rfl
  | cons token rest ih =>
    obtain ⟨first, later⟩ := List.forall_mem_cons.mp unreturned
    simp only [List.map_cons, calls, text.step_withReturns lineHeight first, ih _ later]
    cases (text.step lineHeight token).1 <;> rfl

/-! ### What is drawn -/

theorem Paper.answer_withReturns (destination : Destination) {call : Call} (unbroken : call.boxedBreaks = 0)
    (paper : Paper) : answer destination call.withReturns paper = answer destination call paper := by
  cases call with
  | flowText lineHeight content =>
    have same : paper.flowText lineHeight (withReturns content) = paper.flowText lineHeight content := by
      rw [flowText, flowText, Text.filter_withReturns _ rfl]
    simp only [Call.withReturns, answer, same]
  | boxText content layout =>
    have one : '\n' ∉ content := List.count_eq_zero.mp unbroken
    rw [Call.withReturns, Text.withReturns_of_one_line one]
  | selectStyle | selectSize | stamp | write => rfl

namespace Pass

variable (destination : Destination) (brief : Brief)

theorem perform_withReturns (pass : Pass Paper) {call : Call} (unbroken : call.boxedBreaks = 0) :
    pass.perform (Paper.surface destination) call.withReturns =
      pass.perform (Paper.surface destination) call := by
  have same : (Paper.surface destination).answer call.withReturns pass.surface =
      (Paper.surface destination).answer call pass.surface :=
    Paper.answer_withReturns destination unbroken pass.surface
  have message : failureMessage call.withReturns = failureMessage call := by cases call <;> rfl
  rw [perform, perform, same, message]

theorem feed_withReturns (pass : Pass Paper) {token : Token} (unreturned : token.Unreturned)
    (unbroken : ∀ call ∈ (pass.text.step brief.lineHeight token).1, call.boxedBreaks = 0) :
    pass.feed (Paper.surface destination) brief token.withReturns =
      pass.feed (Paper.surface destination) brief token := by
  rw [feed, feed, pass.text.step_withReturns brief.lineHeight unreturned]
  rcases asked : pass.text.step brief.lineHeight token with ⟨_ | call, text⟩
  · rfl
  · rw [asked] at unbroken
    have same := perform_withReturns destination { pass with text } (unbroken call rfl)
    exact congrArg (collect (Paper.surface destination) brief) same

theorem foldl_feed_withReturns (pass : Pass Paper) {tokens : List Token}
    (unreturned : ∀ token ∈ tokens, token.Unreturned)
    (unbroken : ∀ call ∈ pass.text.calls brief.lineHeight tokens, call.boxedBreaks = 0) :
    (tokens.map Token.withReturns).foldl (feed (Paper.surface destination) brief) pass =
      tokens.foldl (feed (Paper.surface destination) brief) pass := by
  induction tokens generalizing pass with
  | nil => rfl
  | cons token rest ih =>
    obtain ⟨first, later⟩ := List.forall_mem_cons.mp unreturned
    obtain ⟨asked, others⟩ := List.forall_mem_append.mp unbroken
    have now : ∀ call ∈ (pass.text.step brief.lineHeight token).1, call.boxedBreaks = 0 :=
      fun call given => asked call (Option.mem_toList.mpr given)
    rw [List.map_cons, List.foldl_cons, List.foldl_cons, feed_withReturns destination brief pass first now]
    refine ih _ later ?_
    rw [feed_text]
    exact others

theorem run_withReturns (pass : Pass Paper) {tokens : List Token}
    (unreturned : ∀ token ∈ tokens, token.Unreturned)
    (unbroken : ∀ call ∈ pass.text.calls brief.lineHeight tokens, call.boxedBreaks = 0) :
    pass.beforeWriting (Paper.surface destination) brief (tokens.map Token.withReturns) =
        pass.beforeWriting (Paper.surface destination) brief tokens ∧
      pass.run (Paper.surface destination) brief (tokens.map Token.withReturns) =
        pass.run (Paper.surface destination) brief tokens := by
  have started : (pass.start (Paper.surface destination)).text = pass.text := by
    simp only [start, TextState.opening, List.foldl_cons, List.foldl_nil, perform_text]
  have same := foldl_feed_withReturns destination brief (pass.start (Paper.surface destination))
    unreturned (started ▸ unbroken)
  constructor
  · rw [beforeWriting, beforeWriting, same]
  · rw [run, run, same]

end Pass

/-! ### What can be told apart -/

theorem Page.shown_of_content {pages others : List Page}
    (same : pages.map Page.content = others.map Page.content) :
    pages.flatMap Page.shown = others.flatMap Page.shown := by
  have each := congrArg (List.flatMap (List.filterMap Pdf.Operation.shown?)) same
  rw [List.flatMap_map, List.flatMap_map] at each
  exact each

theorem Call.length_visible_withReturns (call : Call) :
    call.withReturns.visible.length = call.visible.length + call.boxedBreaks := by
  cases call with
  | flowText lineHeight content =>
    have same := Text.filter_withReturns (!Paper.isBreak ·) rfl content
    exact congrArg List.length same
  | boxText content layout =>
    simp only [withReturns, visible, boxedBreaks, List.length_map, Text.length_withReturns]
  | selectStyle | selectSize | stamp | write => rfl

theorem Call.length_visibles_withReturns (calls : List Call) :
    ((calls.map Call.withReturns).flatMap Call.visible).length =
      (calls.flatMap Call.visible).length + (calls.map Call.boxedBreaks).sum := by
  induction calls with
  | nil => rfl
  | cons call rest ih =>
    simp only [List.map_cons, List.flatMap_cons, List.length_append, List.sum_cons,
      call.length_visible_withReturns, ih]
    omega

namespace Job

def withReturns (job : Job) : Job := { job with text := Text.withReturns job.text }

variable {job : Job}

theorem calls_withReturns (unreturned : '\r' ∉ job.text) :
    job.withReturns.calls = job.calls.map Call.withReturns := by
  have tokens : Markup.tokenize job.withReturns.text =
      (Markup.tokenize job.text).map Token.withReturns := Markup.tokenize_withReturns job.text
  rw [calls, tokens]
  exact job.start.calls_withReturns job.config.lineHeight (Markup.tokenize_unreturned unreturned)

theorem draw_withReturns (destination : Destination) (unreturned : '\r' ∉ job.text)
    (unbroken : ∀ call ∈ job.calls, call.boxedBreaks = 0) :
    job.withReturns.beforeWriting destination = job.beforeWriting destination ∧
      job.withReturns.draw destination = job.draw destination := by
  have tokens : Markup.tokenize job.withReturns.text =
      (Markup.tokenize job.text).map Token.withReturns := Markup.tokenize_withReturns job.text
  obtain ⟨before, whole⟩ := Pass.run_withReturns destination job.brief
    { surface := job.blank, text := job.start } (Markup.tokenize_unreturned unreturned) unbroken
  constructor
  · rw [beforeWriting, tokens]
    exact before
  · rw [draw, render, tokens]
    exact whole

-- As many bytes are shown as characters of the content are visible.
theorem length_shown (job : Job) (destination : Destination) (valid : job.config.fault? = none) :
    ((job.pages destination).flatMap Page.shown).flatten.length =
      (job.calls.flatMap Call.visible).length := by
  obtain ⟨fragments, -, shown, visible⟩ := job.minutes_tell destination valid
  rw [shown, ← visible, List.length_flatten, List.length_flatten, List.map_map]
  simp [Function.comp_def]

/-- A text and the same text with carriage returns are drawn on the same pages exactly if no line
ends inside a cell, and then all of the two runs is the same. -/
theorem line_endings_alike_unless_boxed (job : Job) (destination : Destination)
    (valid : job.config.fault? = none) (unreturned : '\r' ∉ job.text) :
    job.withReturns.calls = job.calls.map Call.withReturns ∧
      ((job.withReturns.pages destination).map Page.content =
          (job.pages destination).map Page.content ↔
        ∀ call ∈ job.calls, call.boxedBreaks = 0) ∧
      ((∀ call ∈ job.calls, call.boxedBreaks = 0) →
        job.withReturns.run destination = job.run destination) := by
  refine ⟨calls_withReturns unreturned, ⟨fun same => ?_, fun unbroken => ?_⟩, fun unbroken => ?_⟩
  · have lengths := job.withReturns.length_shown destination valid
    rw [Page.shown_of_content same, job.length_shown destination valid, calls_withReturns unreturned,
      Call.length_visibles_withReturns] at lengths
    have none : (job.calls.map Call.boxedBreaks).sum = 0 := by omega
    intro call asked
    exact List.sum_eq_zero_iff_forall_eq_nat.mp none _ (List.mem_map_of_mem asked)
  · rw [pages, pages, (draw_withReturns destination unreturned unbroken).1]
  · have checked : job.withReturns.config.fault? = none := valid
    rw [run_of_valid checked, run_of_valid valid, (draw_withReturns destination unreturned unbroken).2]

/-- A cell of one line, with lines ending before it and after it. -/
def boxedWord : Job :=
  { text := "one\n<CELL BORDER=1>two</CELL>\nthree\n".toList, destination := "words.pdf" }

theorem boxed_word_survives_returns :
    boxedWord.config.fault? = none ∧ '\r' ∉ boxedWord.text ∧
      (∀ call ∈ boxedWord.calls, call.boxedBreaks = 0) ∧
      boxedWord.withReturns.text = "one\r\n<CELL BORDER=1>two</CELL>\r\nthree\r\n".toList ∧
      boxedWord.withReturns.run accepting = boxedWord.run accepting := by
  have valid : boxedWord.config.fault? = none := by decide
  have unreturned : '\r' ∉ boxedWord.text := by decide +kernel
  have unbroken : ∀ call ∈ boxedWord.calls, call.boxedBreaks = 0 := by decide +kernel
  obtain ⟨-, -, same⟩ := boxedWord.line_endings_alike_unless_boxed accepting valid unreturned
  exact ⟨valid, unreturned, unbroken, by decide +kernel, same unbroken⟩

def boxedLines : Job := { text := "<CELL>a\nb</CELL>".toList, destination := "lines.pdf" }

/-- A carriage return in a cell is one space more. -/
theorem boxed_return_is_a_space :
    boxedLines.config.fault? = none ∧ '\r' ∉ boxedLines.text ∧
      (boxedLines.pages accepting).flatMap Page.shown = [Pdf.ascii "a b"] ∧
      (boxedLines.withReturns.pages accepting).flatMap Page.shown = [Pdf.ascii "a  b"] ∧
      (boxedLines.withReturns.pages accepting).map Page.content ≠
        (boxedLines.pages accepting).map Page.content := by
  have plain : (boxedLines.pages accepting).flatMap Page.shown = [Pdf.ascii "a b"] := by
    decide +kernel
  have returned : (boxedLines.withReturns.pages accepting).flatMap Page.shown = [Pdf.ascii "a  b"] := by
    decide +kernel
  refine ⟨by decide, by decide +kernel, plain, returned, fun same => ?_⟩
  exact absurd (returned.symm.trans ((Page.shown_of_content same).trans plain)) (by decide)

end Job

end Letterhead
