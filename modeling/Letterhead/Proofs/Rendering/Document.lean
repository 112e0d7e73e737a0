import Letterhead.Job
import Letterhead.Proofs.Pdf.ReadBack
import Letterhead.Proofs.Rendering.Tracing
import Letterhead.Proofs.Surface.Assembly
import Letterhead.Proofs.Surface.Drawing

/-!
What a job hands over: the pages as they are when all is drawn, and the document made of them.
-/

namespace Letterhead.Job

variable (job : Job) (destination : Destination)

def brief : Brief := ⟨job.config.lineHeight, job.templatePages⟩

def blank : Paper := .new job.config.paperSettings job.template

def start : TextState := .ofSizes job.config.fontSize job.config.smallFontSize

-- The pass when nothing is left to do but to write the pages.
def beforeWriting : Pass Paper :=
  Pass.beforeWriting (Paper.surface destination) job.brief { surface := job.blank, text := job.start }
    (Markup.tokenize job.text)

-- The whole pass with all its calls kept.
def traced : Pass (Traced Paper) :=
  Pass.run (Paper.surface destination).tracing job.brief
    { surface := ⟨job.blank, []⟩, text := job.start } (Markup.tokenize job.text)

def pages : List Page := (job.beforeWriting destination).surface.pages

def document : Pdf.Document := (job.beforeWriting destination).surface.assemble

variable {job} {destination}

theorem draw_eq : job.draw destination =
    ((job.beforeWriting destination).perform (Paper.surface destination) .write).collectWarnings
      (Paper.surface destination) := by
  rw [draw, render, Pass.run_eq]
  rfl

theorem traced_untraced : (job.traced destination).untraced = job.draw destination :=
  Pass.run_untraced _ _ _ _

theorem run_of_valid (valid : job.config.fault? = none) :
    job.run destination = .ok (job.draw destination) := by
  rw [run, valid]

theorem pages_eq_sheets (opened : (job.beforeWriting destination).surface.closed = false) :
    job.pages destination = (job.beforeWriting destination).surface.sheets :=
  Paper.pages_eq_sheets opened

theorem draw_written (opened : (job.beforeWriting destination).surface.closed = false)
    (accepted : destination (job.document destination) = .ok ()) :
    (job.draw destination).surface.written = some (job.document destination) := by
  have written : ((Paper.surface destination).answer .write
      (job.beforeWriting destination).surface).2.written = some (job.document destination) := by
    simp only [Paper.surface, Paper.answer, opened, Bool.false_eq_true, if_false, Paper.publish]
    rw [show destination (job.beforeWriting destination).surface.assemble = _ from accepted]
    rfl
  rw [← Pass.perform_surface] at written
  rw [draw_eq]
  exact written

theorem document_contents :
    (job.document destination).pageIds.map (job.document destination).pageContent =
      (job.pages destination).map fun page => Pdf.contentBytes page.content := by
  obtain ⟨shared, tree, ids, assembled⟩ := (job.beforeWriting destination).surface.assemble_assembled
  exact assembled.contents

/-- The streams of the document are read back as what was drawn on the pages. -/
theorem document_instructions :
    (job.document destination).pageIds.map
        (fun id => Pdf.readContent? ((job.document destination).pageContent id)) =
      (job.pages destination).map fun page => some (page.content.map Pdf.Operation.instruction) := by
  have contents : (job.document destination).pageIds.map (job.document destination).pageContent = _ :=
    document_contents
  have read := congrArg (List.map Pdf.readContent?) contents
  rw [List.map_map, List.map_map] at read
  refine read.trans (List.map_congr_left fun page _ => ?_)
  exact Pdf.readContent?_contentBytes page.content

end Letterhead.Job
