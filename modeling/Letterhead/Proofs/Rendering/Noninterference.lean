import Letterhead.Proofs.Rendering.Calls
import Letterhead.Proofs.Rendering.Conservation
import Letterhead.Proofs.Rendering.Invariant
import Letterhead.Proofs.Surface.Erasure

/-!
A job with its template and the same job without it, side by side: at every step the paper of the
one is the paper of the other without what the template has left there, and the only messages that
come on top are about stamps that failed.
-/

namespace Letterhead

open Markup (Token)
open Pdf (Object)

-- The second list is the first one with such items put in.
inductive Inserted {α : Type} (extra : α → Prop) : List α → List α → Prop
  | nil : Inserted extra [] []
  | both {short long : List α} (item : α) (rest : Inserted extra short long) :
      Inserted extra (item :: short) (item :: long)
  | extra {short long : List α} {item : α} (added : extra item) (rest : Inserted extra short long) :
      Inserted extra short (item :: long)

namespace Inserted

variable {α : Type} {extra : α → Prop} {short long : List α}

theorem refl (items : List α) : Inserted extra items items := by
  induction items with
  | nil => exact .nil
  | cons item rest ih => exact .both item ih

theorem append {more longer : List α} (front : Inserted extra short long)
    (back : Inserted extra more longer) : Inserted extra (short ++ more) (long ++ longer) := by
  induction front with
  | nil => exact back
  | both item _ ih => exact .both item ih
  | extra added _ ih => exact .extra added ih

end Inserted

def IsStampFailure (message : String) : Prop :=
  ∃ page templatePage current fault,
    message = failureMessage (.stamp page templatePage) current fault

theorem Paper.bare_answer (destination : Destination) {call : Call} (drawing : call.isDrawing = true)
    (paper : Paper) :
    answer destination call paper.bare =
      ((answer destination call paper).1, (answer destination call paper).2.bare) := by
  have closed : paper.bare.closed = paper.closed := rfl
  cases call with
  | selectStyle variant =>
    simp only [answer, closed]
    split <;> rfl
  | selectSize size =>
    simp only [answer, closed]
    split
    · rfl
    · split <;> rfl
  | flowText lineHeight content =>
    simp only [answer, closed, bare_flowText]
    split <;> rfl
  | boxText content layout =>
    simp only [answer, closed, bare_boxText]
    split
    · rfl
    · split <;> rfl
  | stamp page templatePage => cases drawing
  | write => cases drawing

/-- The same, without any template pages. -/
def Brief.withoutTemplate (brief : Brief) : Brief := { brief with templatePages := 0 }

namespace Pass

/-! ### Two passes in lockstep -/

-- How a pass with a template stands beside the same pass without it.
structure Alongside (plain pass : Pass Paper) : Prop where
  surface : plain.surface = pass.surface.bare
  text : plain.text = pass.text
  served : plain.served = pass.served
  report : Inserted IsStampFailure plain.report.messages pass.report.messages

variable {plain pass : Pass Paper} (destination : Destination) (brief : Brief)

namespace Alongside

theorem perform (alongside : plain.Alongside pass) {call : Call} (drawing : call.isDrawing = true) :
    (plain.perform (Paper.surface destination) call).Alongside
      (pass.perform (Paper.surface destination) call) := by
  obtain ⟨surface, text, served, report⟩ := alongside
  have same := Paper.bare_answer destination drawing pass.surface
  rw [perform_eq, perform_eq, surface]
  simp only [Paper.surface, same, Paper.bare_currentPage]
  refine ⟨rfl, text, served, ?_⟩
  rcases (Paper.answer destination call pass.surface).1 with fault | _
  · exact report.append (.refl _)
  · exact report

theorem foldl_perform (alongside : plain.Alongside pass) (calls : List Call)
    (drawing : ∀ call ∈ calls, call.isDrawing = true) :
    (calls.foldl (Pass.perform (Paper.surface destination)) plain).Alongside
      (calls.foldl (Pass.perform (Paper.surface destination)) pass) := by
  induction calls generalizing plain pass with
  | nil => exact alongside
  | cons call rest ih =>
    apply ih (alongside.perform destination (drawing call List.mem_cons_self))
    intro later member
    exact drawing later (List.mem_cons_of_mem _ member)

-- Whatever comes of a stamp, it leaves nothing but its failure in the report.
theorem stamp (alongside : plain.Alongside pass) (page templatePage : Nat) :
    plain.Alongside (pass.perform (Paper.surface destination) (.stamp page templatePage)) := by
  obtain ⟨surface, text, served, report⟩ := alongside
  have bare := Paper.answer_stamp_bare destination page templatePage pass.surface
  rw [perform_eq]
  refine ⟨surface.trans bare.symm, text, served, ?_⟩
  rcases (Paper.surface destination).answer (.stamp page templatePage) pass.surface with
    ⟨fault | _, after⟩
  · have failed : IsStampFailure (failureMessage (.stamp page templatePage) after.currentPage fault) :=
      ⟨page, templatePage, after.currentPage, fault, rfl⟩
    have added := report.append (.extra failed .nil)
    rwa [List.append_nil] at added
  · exact report

theorem layTemplate (alongside : plain.Alongside pass) (page : Nat) :
    (plain.layTemplate (Paper.surface destination) brief.withoutTemplate page).Alongside
      (pass.layTemplate (Paper.surface destination) brief page) := by
  have none : overlay? brief.withoutTemplate.templatePages page = none := by
    simp [overlay?, Brief.withoutTemplate]
  simp only [Pass.layTemplate, alongside.served, none]
  split
  · exact alongside
  · have turned : Alongside { plain with served := page :: pass.served }
        { pass with served := page :: pass.served } :=
      ⟨alongside.surface, alongside.text, rfl, alongside.report⟩
    rcases overlay? brief.templatePages page with _ | templatePage
    · exact turned
    · exact turned.stamp destination page templatePage

theorem foldl_layTemplate (alongside : plain.Alongside pass) (pages : List Nat) :
    (pages.foldl (Pass.layTemplate (Paper.surface destination) brief.withoutTemplate) plain).Alongside
      (pages.foldl (Pass.layTemplate (Paper.surface destination) brief) pass) := by
  induction pages generalizing plain pass with
  | nil => exact alongside
  | cons page rest ih => exact ih (alongside.layTemplate destination brief page)

theorem collectWarnings (alongside : plain.Alongside pass) :
    (plain.collectWarnings (Paper.surface destination)).Alongside
      (pass.collectWarnings (Paper.surface destination)) := by
  obtain ⟨surface, text, served, report⟩ := alongside
  have warned : plain.surface.warnings = pass.surface.warnings := by rw [surface]; rfl
  refine ⟨?_, text, served, ?_⟩
  · exact congrArg (fun paper : Paper => { paper with warnings := [] }) surface
  · show Inserted _ (plain.report.messages ++ plain.surface.warnings) _
    rw [warned]
    exact report.append (.refl pass.surface.warnings)

theorem collect (alongside : plain.Alongside pass) :
    (plain.collect (Paper.surface destination) brief.withoutTemplate).Alongside
      (pass.collect (Paper.surface destination) brief) := by
  have ended : plain.surface.breaks = pass.surface.breaks := by rw [alongside.surface]; rfl
  have drained : Alongside { plain with surface := plain.surface.drainBreaks.2 }
      { pass with surface := pass.surface.drainBreaks.2 } := by
    refine ⟨?_, alongside.text, alongside.served, alongside.report⟩
    exact congrArg (fun paper : Paper => { paper with breaks := [] }) alongside.surface
  have laid : Alongside
      (plain.surface.breaks.foldl (Pass.layTemplate (Paper.surface destination) brief.withoutTemplate)
        { plain with surface := plain.surface.drainBreaks.2 })
      (pass.surface.breaks.foldl (Pass.layTemplate (Paper.surface destination) brief)
        { pass with surface := pass.surface.drainBreaks.2 }) := by
    rw [ended]
    exact drained.foldl_layTemplate destination brief pass.surface.breaks
  exact laid.collectWarnings destination

theorem feed (alongside : plain.Alongside pass) (token : Token) :
    (plain.feed (Paper.surface destination) brief.withoutTemplate token).Alongside
      (pass.feed (Paper.surface destination) brief token) := by
  obtain ⟨surface, text, served, report⟩ := alongside
  let asked := pass.text.step brief.lineHeight token
  have moved : Alongside { plain with text := asked.2 } { pass with text := asked.2 } :=
    ⟨surface, rfl, served, report⟩
  have drawn := moved.foldl_perform destination asked.1.toList fun call member =>
    pass.text.step_drawing brief.lineHeight token call (Option.mem_toList.mp member)
  have same : plain.text.step brief.withoutTemplate.lineHeight token = asked := by rw [text]; rfl
  rw [Pass.feed, same]
  exact drawn.collect destination brief

theorem foldl_feed (alongside : plain.Alongside pass) (tokens : List Token) :
    (tokens.foldl (Pass.feed (Paper.surface destination) brief.withoutTemplate) plain).Alongside
      (tokens.foldl (Pass.feed (Paper.surface destination) brief) pass) := by
  induction tokens generalizing plain pass with
  | nil => exact alongside
  | cons token rest ih => exact ih (alongside.feed destination brief token)

theorem drawn (alongside : plain.Alongside pass) (tokens : List Token) :
    (plain.drawn (Paper.surface destination) brief.withoutTemplate tokens).Alongside
      (pass.drawn (Paper.surface destination) brief tokens) := by
  have started : (plain.start (Paper.surface destination)).Alongside
      (pass.start (Paper.surface destination)) := by
    rw [Pass.start, alongside.text]
    exact alongside.foldl_perform destination pass.text.opening pass.text.opening_drawing
  exact (started.foldl_feed destination brief tokens).collect destination brief

theorem beforeWriting (alongside : plain.Alongside pass) (tokens : List Token) :
    (plain.beforeWriting (Paper.surface destination) brief.withoutTemplate tokens).Alongside
      (pass.beforeWriting (Paper.surface destination) brief tokens) := by
  have drawn := alongside.drawn destination brief tokens
  have same : plain.lastPage (Paper.surface destination) brief.withoutTemplate tokens =
      pass.lastPage (Paper.surface destination) brief tokens := by
    rw [lastPage, lastPage, drawn.surface]
    exact Paper.bare_currentPage _
  rw [beforeWriting_eq, beforeWriting_eq, same]
  exact drawn.layTemplate destination brief _

end Alongside

-- The last warnings are collected before the last turn, and a turn adds none.
theorem beforeWriting_warnings (tokens : List Token) :
    (pass.beforeWriting (Paper.surface destination) brief tokens).surface.warnings = [] := by
  obtain ⟨drained, -⟩ := collect_bare destination brief
    (tokens.foldl (feed (Paper.surface destination) brief) (pass.start (Paper.surface destination)))
  obtain ⟨laid, -⟩ := layTemplate_bare destination brief
    (pass.drawn (Paper.surface destination) brief tokens)
    (pass.lastPage (Paper.surface destination) brief tokens)
  exact congrArg Paper.warnings (laid.trans drained)

end Pass

/-! ### Settings -/

theorem Paper.answer_settings (destination : Destination) (call : Call) (paper : Paper) :
    (answer destination call paper).2.settings = paper.settings := by
  unfold answer
  split
  · rfl
  · cases call with
    | selectStyle variant => rfl
    | selectSize size =>
      simp only
      split <;> rfl
    | flowText lineHeight content => exact (flowText_kept lineHeight paper content).settings
    | boxText content layout =>
      simp only
      split
      · rfl
      · exact (boxText_kept paper content layout).settings
    | stamp page templatePage =>
      have same : (paper.stamp page templatePage).2.bare.settings = paper.bare.settings := by
        rw [stamp_bare]
      exact same
    | write =>
      simp only [publish]
      split <;> rfl

theorem Paper.surface_keeps_settings (destination : Destination) (settings : PaperSettings) :
    (surface destination).Keeps (·.settings = settings) where
  answer call paper given := (answer_settings destination call paper).trans given
  drainBreaks given := given
  drainWarnings given := given

/-! ### Jobs -/

/-- What is reported of a destination that refuses a document. No page is left by then. -/
def refusal : Except String Unit → List String
  | .ok () => []
  | .error reason => [failureMessage .write 0 (.io reason)]

namespace Job

def withoutTemplate (job : Job) : Job := { job with template := none }

-- The run goes through with these messages, and its document has the pages of the job, in this size.
structure Delivers (job : Job) (destination : Destination) (box : Object) (messages : List String) :
    Prop where
  ran : ∃ pass, job.run destination = .ok pass ∧
    pass.report.messages = messages ++ refusal (destination (job.document destination)) ∧
    (destination (job.document destination) = .ok () →
      pass.surface.written = some (job.document destination))
  contents : (job.document destination).pageIds.map (job.document destination).pageContent =
    (job.pages destination).map fun page => Pdf.contentBytes page.content
  boxes : ∀ id ∈ (job.document destination).pageIds, (job.document destination).mediaBox? id = some box

variable {job : Job} {destination : Destination}

theorem Delivers.count {box : Object} {messages : List String}
    (delivers : job.Delivers destination box messages) :
    (job.document destination).pageIds.length = (job.pages destination).length := by
  simpa using congrArg List.length delivers.contents

theorem draw_messages (opened : (job.beforeWriting destination).surface.closed = false) :
    (job.draw destination).report.messages = (job.beforeWriting destination).report.messages ++
      refusal (destination (job.document destination)) := by
  have published : (Paper.surface destination).answer .write (job.beforeWriting destination).surface =
      (job.beforeWriting destination).surface.publish destination := by
    simp [Paper.surface, Paper.answer, opened]
  have warnings : (job.beforeWriting destination).surface.warnings = [] :=
    Pass.beforeWriting_warnings destination job.brief _
  rw [draw_eq, Pass.perform_eq, published, Paper.publish]
  rw [show (job.beforeWriting destination).surface.assemble = job.document destination from rfl]
  rcases destination (job.document destination) with reason | _
  · simp [Pass.collectWarnings, Paper.surface, Paper.drainWarnings, Paper.currentPage, Report.add,
      Report.addAll, refusal, warnings]
  · simp [Pass.collectWarnings, Paper.surface, Paper.drainWarnings, Report.addAll, refusal, warnings]

theorem delivers (valid : job.config.fault? = none) :
    job.Delivers destination job.blank.mediaBox (job.beforeWriting destination).report.messages := by
  obtain ⟨opened, -⟩ := job.beforeWriting_glyphs destination valid
  refine ⟨⟨job.draw destination, run_of_valid valid, draw_messages opened, draw_written opened⟩,
    document_contents, ?_⟩
  intro id member
  obtain ⟨shared, tree, ids, assembled⟩ := (job.beforeWriting destination).surface.assemble_assembled
  have settings : (job.beforeWriting destination).surface.settings = job.blank.settings :=
    (Paper.surface_keeps_settings destination job.blank.settings).beforeWriting job.brief rfl _
  rw [show (job.document destination).mediaBox? id = _ from assembled.mediaBoxes id member,
    Paper.mediaBox, settings]
  rfl

theorem withoutTemplate_alongside (job : Job) (destination : Destination) :
    (job.withoutTemplate.beforeWriting destination).Alongside (job.beforeWriting destination) := by
  have start : Pass.Alongside { surface := job.withoutTemplate.blank, text := job.start }
      { surface := job.blank, text := job.start } := ⟨rfl, rfl, rfl, .nil⟩
  exact start.beforeWriting destination job.brief (Markup.tokenize job.text)

/-- A job makes the same pages in the same size with its template and without it: what is drawn on
them differs in the form that is painted first, and the report in failed stamps. -/
theorem template_changes_no_layout (job : Job) (destination : Destination)
    (valid : job.config.fault? = none) :
    let plain := job.withoutTemplate
    (job.document destination).pageIds.length = (plain.document destination).pageIds.length ∧
      (job.pages destination).map (fun page => withoutUnderlay page.content) =
        (plain.pages destination).map Page.content ∧
      ∃ box messages plainMessages,
        job.Delivers destination box messages ∧ plain.Delivers destination box plainMessages ∧
          Inserted IsStampFailure plainMessages messages := by
  intro plain
  have alongside := job.withoutTemplate_alongside destination
  have delivers : job.Delivers destination job.blank.mediaBox _ := job.delivers valid
  have plainly : plain.Delivers destination job.blank.mediaBox _ := plain.delivers valid
  have bare : plain.pages destination = (job.pages destination).map Page.bare := by
    rw [pages, alongside.surface]
    exact Paper.bare_pages _
  refine ⟨?_, ?_, _, _, _, delivers, plainly, alongside.report⟩
  · rw [delivers.count, plainly.count, bare, List.length_map]
  · rw [bare, List.map_map]
    exact List.map_congr_left fun page _ => page.withoutUnderlay_content

/-- Three pages over a template that lacks what its pages draw with. -/
def lackingLines : Job :=
  { text := "a\nb\nc\nd\ne".toList, destination := "lines.pdf", template := some .lacking,
    config := { page := ⟨210, 40⟩ } }

theorem lacking_lines_keep_their_layout :
    lackingLines.config.fault? = none ∧
      (lackingLines.pages accepting).length = 3 ∧
      (lackingLines.draw accepting).report.messages.length = 1 ∧
      (lackingLines.withoutTemplate.draw accepting).report.messages = [] ∧
      (lackingLines.pages accepting).map (fun page => withoutUnderlay page.content) =
        (lackingLines.withoutTemplate.pages accepting).map Page.content ∧
      ∃ box messages plainMessages,
        lackingLines.Delivers accepting box messages ∧
          lackingLines.withoutTemplate.Delivers accepting box plainMessages ∧
          Inserted IsStampFailure plainMessages messages := by
  have valid : lackingLines.config.fault? = none := by decide
  have same := lackingLines.template_changes_no_layout accepting valid
  exact ⟨valid, by decide +kernel, by decide +kernel, by decide +kernel, same.2⟩

end Job

end Letterhead
