import Letterhead.Proofs.Rendering.Calls
import Letterhead.Proofs.Rendering.Document
import Letterhead.Proofs.Surface.Dressing
import Letterhead.Proofs.Surface.FormTable

/-!
Every page of a job gets its page of the template. A page has its turn after the call that ends it,
the last one before all are written, so the pages have their turns in the order of their numbers.
-/

namespace Letterhead

open Markup (Token)
open Pdf (Object ObjectId Dictionary Document Operation ascii)

namespace Pass

variable (destination : Destination) (brief : Brief) (template : Option Template)

-- So many pages have had their turn, and have what belongs behind them.
structure Level (count : Nat) (pass : Pass Paper) : Prop where
  served : pass.served = (List.range' 1 count).reverse
  dressed : pass.surface.Dressed count
  template : pass.surface.template = template
  pages : pass.surface.templatePages = brief.templatePages

-- The other pages that have ended are waiting for their turn.
structure Waiting (count : Nat) (pass : Pass Paper) : Prop extends pass.Level brief template count where
  within : count ≤ pass.surface.finished.length
  breaks : pass.surface.breaks = List.range' (count + 1) (pass.surface.finished.length - count)

variable {brief} {template} {count : Nat} {pass : Pass Paper}

theorem Level.layTemplate (level : pass.Level brief template count)
    (within : count ≤ pass.surface.finished.length) :
    let after := pass.layTemplate (Paper.surface destination) brief (count + 1)
    after.Level brief template (count + 1) ∧
      after.surface.finished.length = pass.surface.finished.length ∧
      after.surface.breaks = pass.surface.breaks := by
  obtain ⟨served, dressed, given, pages⟩ := level
  have new : pass.served.contains (count + 1) = false := by
    simp [served, Nat.add_comm]
  have next : (List.range' 1 (count + 1)).reverse = (count + 1) :: pass.served := by
    rw [served, List.range'_1_concat]
    simp [Nat.add_comm]
  simp only [Pass.layTemplate, new, Bool.false_eq_true, if_false]
  rcases chosen : overlay? brief.templatePages (count + 1) with _ | templatePage <;>
    rw [← pages] at chosen
  · exact ⟨⟨next.symm, dressed.skip within chosen, given, pages⟩, rfl, rfl⟩
  · obtain ⟨after, stamped, put, same, length, breaks⟩ := dressed.stamp within chosen
    have answered : ((Paper.surface destination).answer (.stamp (count + 1) templatePage)
        pass.surface).2 = after := by
      simp [Paper.surface, Paper.answer, dressed.opened, stamped]
    refine ⟨⟨?_, ?_, ?_, ?_⟩, ?_, ?_⟩
    · rw [perform_served]
      exact next.symm
    · rw [perform_surface, answered]
      exact put
    · rw [perform_surface, answered, same, given]
    · rw [perform_surface, answered, Paper.templatePages, same]
      exact pages
    · rw [perform_surface, answered, length]
    · rw [perform_surface, answered, breaks]

-- Each page that waits has its turn, and stamping it ends no other page.
theorem Level.foldl_layTemplate (level : pass.Level brief template count) (more : Nat)
    (within : count + more ≤ pass.surface.finished.length) :
    let after := (List.range' (count + 1) more).foldl
      (Pass.layTemplate (Paper.surface destination) brief) pass
    after.Level brief template (count + more) ∧
      after.surface.finished.length = pass.surface.finished.length ∧
      after.surface.breaks = pass.surface.breaks := by
  induction more generalizing count pass with
  | zero => exact ⟨level, rfl, rfl⟩
  | succ more ih =>
    obtain ⟨next, length, breaks⟩ := level.layTemplate destination (by omega)
    obtain ⟨last, sameLength, sameBreaks⟩ := ih next (by omega)
    refine ⟨?_, sameLength.trans length, sameBreaks.trans breaks⟩
    rw [show count + (more + 1) = count + 1 + more by omega]
    exact last

theorem Waiting.collect (waiting : pass.Waiting brief template count) :
    let after := pass.collect (Paper.surface destination) brief
    after.Waiting brief template pass.surface.finished.length ∧
      after.surface.finished.length = pass.surface.finished.length := by
  obtain ⟨⟨served, dressed, given, pages⟩, within, breaks⟩ := waiting
  have level : Level brief template count { pass with surface := pass.surface.drainBreaks.2 } :=
    ⟨served, dressed.unlike _ _ _ _, given, pages⟩
  have drained := level.foldl_layTemplate destination (pass.surface.finished.length - count)
    (Nat.le_of_eq (Nat.add_sub_cancel' within))
  rw [← breaks, Nat.add_sub_cancel' within] at drained
  obtain ⟨⟨turned, laid, kept, same⟩, length, none_⟩ := drained
  refine ⟨⟨⟨turned, laid.unlike _ _ _ _, kept, same⟩, Nat.le_of_eq length.symm, ?_⟩, length⟩
  have ended : (pass.collect (Paper.surface destination) brief).surface.finished.length =
      pass.surface.finished.length := length
  rw [ended, Nat.sub_self]
  exact none_

theorem Waiting.draws (waiting : pass.Waiting brief template count) {texts : List (List Char)} {paper : Paper}
    (draws : pass.surface.Draws texts paper) (report : Report) :
    ({ pass with surface := paper, report } : Pass Paper).Waiting brief template count := by
  obtain ⟨⟨served, dressed, given, pages⟩, within, breaks⟩ := waiting
  obtain ⟨turned, ended, reported, -⟩ := draws.turns
  refine ⟨⟨served, dressed.draws within draws, draws.kept.template.trans given, ?_⟩, ?_, ?_⟩
  · rw [Paper.templatePages, draws.kept.template]
    exact pages
  · simp only [ended]
    omega
  · have rest : pass.surface.finished.length + turned - count =
        (pass.surface.finished.length - count) + turned := by omega
    simp only [ended, reported, breaks]
    rw [rest, ← List.range'_append_1]
    congr 2
    omega

theorem Waiting.perform (waiting : pass.Waiting brief template count) (call : Call)
    (drawing : call.isDrawing = true) :
    (pass.perform (Paper.surface destination) call).Waiting brief template count := by
  rw [perform_eq]
  have ⟨⟨served, dressed, given, pages⟩, within, breaks⟩ := waiting
  have unchanged : ∀ report, ({ pass with report } : Pass Paper).Waiting brief template count :=
    fun report => ⟨⟨served, dressed, given, pages⟩, within, breaks⟩
  cases call with
  | selectStyle variant =>
    rw [Paper.answer_selectStyle destination dressed.opened]
    exact ⟨⟨served, dressed.unlike _ _ _ _, given, pages⟩, within, breaks⟩
  | selectSize size =>
    by_cases accepted : size.isFinite ∧ 0 < size
    · rw [Paper.answer_selectSize destination dressed.opened accepted]
      exact ⟨⟨served, dressed.unlike _ _ _ _, given, pages⟩, within, breaks⟩
    · simp only [Paper.surface, Paper.answer, dressed.opened, Bool.false_eq_true, if_false,
        if_neg accepted]
      exact unchanged _
  | flowText lineHeight content =>
    obtain ⟨texts, draws, -⟩ := pass.surface.flowText_draws lineHeight content
    simp only [Paper.surface, Paper.answer, dressed.opened, Bool.false_eq_true, if_false]
    exact waiting.draws draws _
  | boxText content layout =>
    simp only [Paper.surface, Paper.answer, dressed.opened, Bool.false_eq_true, if_false]
    split
    · exact unchanged _
    · obtain ⟨texts, draws, -⟩ := pass.surface.boxText_draws content layout
      exact waiting.draws draws _
  | stamp => cases drawing
  | write => cases drawing

theorem Waiting.feed (waiting : pass.Waiting brief template count) (token : Token) :
    ∃ later, (pass.feed (Paper.surface destination) brief token).Waiting brief template later := by
  have plain := pass.text.step_drawing brief.lineHeight token
  rw [Pass.feed]
  rcases asked : pass.text.step brief.lineHeight token with ⟨_ | call, text⟩
  · have ready : ({ pass with text } : Pass Paper).Waiting brief template count :=
      ⟨⟨waiting.served, waiting.dressed, waiting.template, waiting.pages⟩, waiting.within, waiting.breaks⟩
    exact ⟨_, (ready.collect destination).1⟩
  · have ready : ({ pass with text } : Pass Paper).Waiting brief template count :=
      ⟨⟨waiting.served, waiting.dressed, waiting.template, waiting.pages⟩, waiting.within, waiting.breaks⟩
    have drawn := ready.perform destination call (plain call (by rw [asked]; rfl))
    exact ⟨_, (drawn.collect destination).1⟩

theorem Waiting.foldl_feed (waiting : pass.Waiting brief template count) (tokens : List Token) :
    ∃ later, (tokens.foldl (Pass.feed (Paper.surface destination) brief) pass).Waiting brief template later := by
  induction tokens generalizing pass count with
  | nil => exact ⟨count, waiting⟩
  | cons token rest ih =>
    obtain ⟨later, fed⟩ := waiting.feed destination token
    exact ih fed

theorem Waiting.start (waiting : pass.Waiting brief template count) :
    (pass.start (Paper.surface destination)).Waiting brief template count := by
  have styled := waiting.perform destination (.selectStyle pass.text.style.variant) rfl
  exact styled.perform destination (.selectSize pass.text.sizes.current) rfl

-- The page that no call has ended is the last one to have its turn.
theorem Waiting.lastTurn (waiting : pass.Waiting brief template pass.surface.finished.length) :
    let after := pass.layTemplate (Paper.surface destination) brief pass.surface.currentPage
    after.Level brief template (after.surface.finished.length + 1) := by
  obtain ⟨laid, length, -⟩ := waiting.toLevel.layTemplate destination waiting.within
  rw [Paper.currentPage_eq waiting.dressed.opened]
  intro after
  rw [show after.surface.finished.length = _ from length]
  exact laid

theorem Waiting.beforeWriting (waiting : pass.Waiting brief template count) (tokens : List Token) :
    let after := pass.beforeWriting (Paper.surface destination) brief tokens
    after.Level brief template (after.surface.finished.length + 1) := by
  obtain ⟨fed, level⟩ := (waiting.start destination).foldl_feed destination tokens
  obtain ⟨collected, ended⟩ := level.collect destination
  rw [← ended] at collected
  exact collected.lastTurn destination

/-! ### The last turn is over -/

theorem Level.behind {count : Nat} (level : pass.Level brief template count)
    (all : count = pass.surface.finished.length + 1) {index : Nat} {page : Page}
    (found : pass.surface.sheets[index]? = some page) :
    page.backdrop = (overlay? brief.templatePages (index + 1)).map Paper.formKey := by
  subst all
  rw [level.dressed.backdrop found, Paper.backdropFor, level.pages]

theorem Level.stamps (level : pass.Level brief template count) (some : 0 < brief.templatePages) :
    pass.served.reverse.filterMap (stampFor? brief) =
      (List.range' 1 count).map fun page => .stamp page (min page brief.templatePages) := by
  rw [level.served, List.reverse_reverse, ← List.filterMap_eq_map]
  apply List.filterMap_congr
  intro page member
  have positive := (List.mem_range'_1.mp member).1
  have chosen : overlay? brief.templatePages page = Option.some (min page brief.templatePages) := by
    rw [overlay?, if_neg (by omega)]
  rw [stampFor?, chosen]
  rfl

-- The form of a template page stays where the import has put it, and its name leads to it.
theorem Level.forms (level : pass.Level brief template count) :
    ∃ forms : List ObjectId, forms.length = min count brief.templatePages ∧ forms.Nodup ∧
      (∀ index form, forms[index]? = some form → ∃ given id resources, template = some given ∧
        given.pageId? (index + 1) = some id ∧
        pass.surface.assemble.get? form = some (given.form id resources)) ∧
      ∀ id ∈ pass.surface.assemble.pageIds, ∃ entries : Dictionary,
        pass.surface.assemble.pageForms? id = some (.dictionary entries) ∧
        entries = List.zipWith (fun page form => (Paper.formKey page, .reference form))
          (List.range' 1 forms.length) forms ∧
        ∀ index form, forms[index]? = some form →
          entries.get? (Paper.formKey (index + 1)) = some (.reference form) := by
  have dressed := level.dressed
  obtain ⟨shared, tree, ids, assembled⟩ := pass.surface.assemble_assembled
  have length : (pass.surface.forms.map Prod.snd).length = min count brief.templatePages := by
    rw [List.length_map, dressed.length_forms, level.pages]
  refine ⟨pass.surface.forms.map Prod.snd, length, dressed.apart, ?_, ?_⟩
  · intro index form found
    obtain ⟨given, same, low, id, named, -, placed⟩ := dressed.held _ (dressed.form_at found)
    exact ⟨given, id, _, level.template.symm.trans same, named, (assembled.keeps form low).trans placed⟩
  · intro id member
    refine ⟨Paper.formEntries pass.surface.forms, assembled.pageForms id member, ?_, ?_⟩
    · rw [length, ← level.pages, ← dressed.forms, List.zipWith_map, List.zipWith_self]
      rfl
    · intro index form found
      have once : (pass.surface.forms.map Prod.fst).Nodup := dressed.forms ▸ List.nodup_range'
      exact (Paper.get?_formEntries once _ _).mpr (dressed.form_at found)

end Pass

/-! ### Jobs -/

theorem Paper.dressed_new (settings : PaperSettings) {template : Option Template}
    (importable : ∀ given, template = some given → given.Importable) :
    (Paper.new settings template).Dressed 0 where
  opened := rfl
  importable := importable
  backdrops := rfl
  forms := by rw [Nat.zero_min]; rfl
  apart := List.nodup_nil
  held _ member := by cases member

namespace Job

theorem beforeWriting_level (job : Job) (destination : Destination)
    (importable : ∀ template, job.template = some template → template.Importable) :
    (job.beforeWriting destination).Level job.brief job.template (job.pages destination).length ∧
      (job.pages destination).length =
        (job.beforeWriting destination).surface.finished.length + 1 := by
  have pages : job.blank.templatePages = job.templatePages := by
    rw [Paper.templatePages, templatePages, blank, Paper.new]
    rcases job.template with _ | template <;> rfl
  have waiting : Pass.Waiting job.brief job.template 0 { surface := job.blank, text := job.start } :=
    ⟨⟨rfl, Paper.dressed_new _ importable, rfl, pages⟩, Nat.le_refl _, rfl⟩
  have level := waiting.beforeWriting destination (Markup.tokenize job.text)
  have length : (job.pages destination).length =
      (job.beforeWriting destination).surface.finished.length + 1 := by
    rw [pages_eq_sheets level.dressed.opened, Paper.sheets, List.length_append, List.length_singleton]
  rw [length]
  exact ⟨level, rfl⟩

theorem traced_calls (job : Job) (destination : Destination) :
    ∃ earlier, (job.traced destination).surface.calls = earlier ++ [.write] ∧ .write ∉ earlier ∧
      earlier.filter Call.isStamp =
        (job.beforeWriting destination).served.reverse.filterMap (Pass.stampFor? job.brief) := by
  let start : Pass (Traced Paper) := { surface := ⟨job.blank, []⟩, text := job.start }
  obtain ⟨all, last, -, stamps, -⟩ := Pass.run_calls (Paper.surface destination) job.brief start rfl
    rfl (Markup.tokenize job.text)
  have untraced := Pass.beforeWriting_untraced (Paper.surface destination) job.brief start
    (Markup.tokenize job.text)
  refine ⟨_, all, last, stamps.trans ?_⟩
  exact congrArg (fun pass : Pass Paper => pass.served.reverse.filterMap (Pass.stampFor? job.brief))
    untraced

/-- Behind every page of a job lies the page of the template with its number, or the last one,
painted once and before all else. It is stamped once, in the order of the pages and before they are
written, and of each template page that is used there is one form in the document: every page finds
under the name that it paints the form of its template page. -/
theorem pages_get_their_template_pages (job : Job) (destination : Destination)
    (valid : job.config.fault? = none)
    (importable : ∀ template, job.template = some template → template.Importable) :
    ∃ pass, job.run destination = .ok pass ∧ (job.traced destination).untraced = pass ∧
      (destination (job.document destination) = .ok () →
        pass.surface.written = some (job.document destination)) ∧
      (job.document destination).pageIds.map (job.document destination).pageContent =
        (job.pages destination).map (fun page => Pdf.contentBytes page.content) ∧
      (job.templatePages = 0 →
        ∀ page ∈ job.pages destination, ∀ name, Operation.paintForm name ∉ page.content) ∧
      (0 < job.templatePages →
        (∀ index (page : Page), (job.pages destination)[index]? = some page →
          page.LiesOver (ascii "Tpl" ++ Pdf.digitBytes (min (index + 1) job.templatePages))) ∧
        (∃ earlier, (job.traced destination).surface.calls = earlier ++ [.write] ∧
          .write ∉ earlier ∧
          earlier.filter Call.isStamp = (List.range' 1 (job.pages destination).length).map
            fun page => .stamp page (min page job.templatePages)) ∧
        ∃ forms : List ObjectId,
          forms.length = min (job.pages destination).length job.templatePages ∧ forms.Nodup ∧
          (∀ index form, forms[index]? = some form → ∃ template id resources,
            job.template = some template ∧ template.pageId? (index + 1) = some id ∧
            (job.document destination).get? form = some (template.form id resources)) ∧
          ∀ id ∈ (job.document destination).pageIds, ∃ entries : Dictionary,
            (job.document destination).pageForms? id = some (.dictionary entries) ∧
            entries = List.zipWith (fun page form => (ascii "Tpl" ++ Pdf.digitBytes page, .reference form))
              (List.range' 1 forms.length) forms ∧
            ∀ index < (job.pages destination).length, ∃ form,
              forms[min (index + 1) job.templatePages - 1]? = some form ∧
              entries.get? (ascii "Tpl" ++ Pdf.digitBytes (min (index + 1) job.templatePages)) =
                some (.reference form)) := by
  obtain ⟨level, count⟩ := job.beforeWriting_level destination importable
  have opened := level.dressed.opened
  refine ⟨job.draw destination, run_of_valid valid, traced_untraced, draw_written opened,
    document_contents, ?_, ?_⟩
  · intro templateless page member
    obtain ⟨index, found⟩ := List.getElem?_of_mem member
    rw [pages_eq_sheets opened] at found
    have nothing := level.behind count found
    rw [brief, templateless] at nothing
    exact Page.paints_no_form (nothing.trans (by simp [overlay?]))
  · intro some
    obtain ⟨forms, length, apart, made, named⟩ := level.forms
    refine ⟨?_, ?_, forms, length, apart, made, fun id member => ?_⟩
    · intro index page found
      rw [pages_eq_sheets opened] at found
      apply Page.liesOver_of_backdrop
      rw [level.behind count found, overlay?, if_neg (by simp [brief]; omega)]
      rfl
    · obtain ⟨earlier, all, last, stamps⟩ := job.traced_calls destination
      exact ⟨earlier, all, last, stamps.trans (level.stamps some)⟩
    · obtain ⟨entries, held, same, found⟩ := named id member
      refine ⟨entries, held, same, fun index within => ?_⟩
      have pages : job.brief.templatePages = job.templatePages := rfl
      have drawn : min (index + 1) job.templatePages - 1 < forms.length := by omega
      have form := found _ _ (List.getElem?_eq_getElem drawn)
      rw [Nat.sub_add_cancel (by omega)] at form
      exact ⟨_, List.getElem?_eq_getElem drawn, form⟩

/-- Three pages, of which the last two share the second page of the template. -/
def fiveLines : Job :=
  { text := "a\nb\nc\nd\ne".toList, destination := "lines.pdf", template := some .ring,
    config := { page := ⟨210, 40⟩ } }

theorem ring_importable : Template.ring.Importable := by
  intro page positive within
  have two : Template.ring.size = 2 := by decide +kernel
  rw [two] at within
  obtain rfl | rfl : page = 1 ∨ page = 2 := by omega
  · exact ⟨by decide, by decide +kernel⟩
  · exact ⟨by decide, by decide +kernel⟩

theorem five_lines_get_their_template_pages :
    fiveLines.config.fault? = none ∧
      (∀ template, fiveLines.template = some template → template.Importable) ∧
      (fiveLines.pages fun _ => .ok ()).length = 3 ∧ fiveLines.templatePages = 2 ∧
      ∀ index (page : Page), (fiveLines.pages fun _ => .ok ())[index]? = some page →
        page.LiesOver (ascii "Tpl" ++ Pdf.digitBytes (min (index + 1) 2)) := by
  have valid : fiveLines.config.fault? = none := by decide
  have importable : ∀ template, fiveLines.template = some template → template.Importable := by
    intro template given
    obtain rfl := Option.some.inj given
    exact ring_importable
  have two : fiveLines.templatePages = 2 := by decide +kernel
  obtain ⟨-, -, -, -, -, -, dressed⟩ :=
    fiveLines.pages_get_their_template_pages (fun _ => .ok ()) valid importable
  have lies := (dressed (by rw [two]; decide)).1
  rw [two] at lies
  exact ⟨valid, importable, by decide +kernel, two, lies⟩

end Job

end Letterhead
