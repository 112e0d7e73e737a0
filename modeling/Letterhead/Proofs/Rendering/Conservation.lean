import Letterhead.Proofs.Cell.Sizes
import Letterhead.Proofs.Config.Validity
import Letterhead.Proofs.Rendering.Calls
import Letterhead.Proofs.Rendering.Document
import Letterhead.Proofs.Rendering.Walk
import Letterhead.Proofs.Surface.Stamping

/-!
What a job shows is what its text says: between the tokens the paper is set to the face and the
size that the tags leave open, and each token adds its own characters and no others.
-/

namespace Letterhead

open Markup (Token)

namespace Paper

-- The paper takes calls, and is set to what the tags so far leave open.
structure InStep (paper : Paper) (text : TextState) : Prop where
  opened : paper.closed = false
  variant : paper.variant = text.style.variant
  fontSize : paper.fontSize = text.sizes.current

variable {paper after : Paper} {text : TextState}

theorem Draws.inStep {texts : List (List Char)} (draws : Draws paper texts after)
    (step : paper.InStep text) : after.InStep text where
  opened := draws.kept.closed.trans step.opened
  variant := draws.kept.variant.trans step.variant
  fontSize := draws.kept.fontSize.trans step.fontSize

theorem answer_stamp_bare (destination : Destination) (page templatePage : Nat) (paper : Paper) :
    (answer destination (.stamp page templatePage) paper).2.bare = paper.bare := by
  rw [answer]
  split
  · rfl
  · exact paper.stamp_bare page templatePage

theorem answer_draws (destination : Destination) (opened : paper.closed = false) (lineHeight : Float32)
    {layout : Option CellLayout} (sized : ∀ cell, layout = some cell → cell.IsSized)
    {kept : List Char} {call : Call} (asked : TextState.drawing lineHeight layout kept = some call) :
    ∃ texts, Draws paper texts (answer destination call paper).2 ∧
      texts.flatten = visible layout kept := by
  unfold TextState.drawing at asked
  split at asked
  · cases asked
  · rcases layout with _ | cell <;> cases asked
    · simpa [answer, opened, visible] using paper.flowText_draws lineHeight kept
    · have fits : ¬ (cell.height < 0 ∨ cell.width < 0) := sized cell rfl
      simpa [answer, opened, visible, if_neg fits] using paper.boxText_draws kept cell

end Paper

/-! ### Sizes that the surface accepts -/

namespace TextState

structure Sound (text : TextState) : Prop where
  regular : Config.isPositive text.sizes.regular = true
  small : Config.isPositive text.sizes.small = true
  sized : ∀ layout, text.cell.layout = some layout → layout.IsSized

variable {text : TextState}

theorem Sound.current (sound : text.Sound) :
    text.sizes.current.isFinite ∧ 0 < text.sizes.current := by
  have accepted : Config.isPositive text.sizes.current = true := by
    rw [FontSizes.current]
    split
    · exact sound.small
    · exact sound.regular
  simpa [Config.isPositive] using accepted

theorem Sound.step (sound : text.Sound) (lineHeight : Float32) (token : Token) :
    (text.step lineHeight token).2.Sound := by
  obtain ⟨regular, small⟩ := text.step_sizes lineHeight token
  refine ⟨regular ▸ sound.regular, small ▸ sound.small, fun layout given => ?_⟩
  rcases text.step_layout lineHeight given with before | ⟨tag, -, -, -, rfl⟩
  · exact sound.sized layout before
  · exact CellLayout.ofAttributes_isSized tag.attributes

end TextState

theorem Config.sound_of_fault? {config : Config} (valid : config.fault? = none) :
    (TextState.ofSizes config.fontSize config.smallFontSize).Sound := by
  have accepted := positive_of_fault? valid
  refine ⟨?_, ?_, fun layout given => by cases given⟩
  · exact accepted ("defaultFontSize", config.fontSize) List.mem_cons_self
  · exact accepted ("smallFontSize", config.smallFontSize)
      (List.mem_cons_of_mem _ List.mem_cons_self)

namespace Pass

variable (destination : Destination) (brief : Brief) (pass : Pass Paper)

/-! ### Turns show nothing -/

theorem layTemplate_bare (page : Nat) :
    (pass.layTemplate (Paper.surface destination) brief page).surface.bare = pass.surface.bare ∧
      (pass.layTemplate (Paper.surface destination) brief page).text = pass.text := by
  rw [layTemplate]
  split
  · exact ⟨rfl, rfl⟩
  · rcases overlay? brief.templatePages page with _ | templatePage
    · exact ⟨rfl, rfl⟩
    · simp only [perform_surface, perform_text]
      exact ⟨Paper.answer_stamp_bare destination page templatePage pass.surface, trivial⟩

theorem foldl_layTemplate_bare (pages : List Nat) :
    (pages.foldl (layTemplate (Paper.surface destination) brief) pass).surface.bare =
        pass.surface.bare ∧
      (pages.foldl (layTemplate (Paper.surface destination) brief) pass).text = pass.text := by
  induction pages generalizing pass with
  | nil => exact ⟨rfl, rfl⟩
  | cons page rest ih =>
    obtain ⟨bare, text⟩ := layTemplate_bare destination brief pass page
    obtain ⟨later, same⟩ := ih (pass.layTemplate (Paper.surface destination) brief page)
    exact ⟨later.trans bare, same.trans text⟩

theorem collect_bare :
    (pass.collect (Paper.surface destination) brief).surface.bare =
        { pass.surface.bare with breaks := [], warnings := [] } ∧
      (pass.collect (Paper.surface destination) brief).text = pass.text := by
  obtain ⟨bare, text⟩ := foldl_layTemplate_bare destination brief
    { pass with surface := pass.surface.drainBreaks.2 } pass.surface.drainBreaks.1
  exact ⟨congrArg (fun paper : Paper => { paper with warnings := [] }) bare, text⟩

theorem feed_text (token : Token) :
    (pass.feed (Paper.surface destination) brief token).text =
      (pass.text.step brief.lineHeight token).2 :=
  (collect_bare destination brief _).2.trans (foldl_perform_text _ _ _)

/-! ### Tokens show their characters -/

variable {pass}

theorem drawing_shows {text : TextState} (step : pass.surface.InStep text) (sound : text.Sound) (kept : List Char) :
    let drawn := (TextState.drawing brief.lineHeight text.cell.layout kept).toList.foldl
      (perform (Paper.surface destination)) pass
    drawn.surface.InStep text ∧ drawn.surface.glyphs = pass.surface.glyphs ++
      Paper.spell text.style.variant text.sizes.current (Paper.visible text.cell.layout kept) := by
  rcases asked : TextState.drawing brief.lineHeight text.cell.layout kept with _ | call
  · have nothing : kept = [] := by
      unfold TextState.drawing at asked
      split at asked
      · rename_i empty
        exact List.isEmpty_iff.mp empty
      · split at asked <;> cases asked
    constructor
    · exact step
    · simp [nothing, Paper.visible, Paper.spell, Text.WinAnsi.encode]
  · obtain ⟨texts, draws, same⟩ :=
      Paper.answer_draws destination step.opened brief.lineHeight sound.sized asked
    have drawn := perform_surface (Paper.surface destination) pass call
    constructor
    · exact drawn ▸ draws.inStep step
    · rw [← same, ← step.variant, ← step.fontSize, ← draws.glyphs]
      exact congrArg Paper.glyphs drawn

theorem tag_shows (step : pass.surface.InStep pass.text) (sound : pass.text.Sound)
    (tag : Markup.Tag) :
    let asked := pass.text.stepTag tag
    let drawn := asked.1.toList.foldl (perform (Paper.surface destination))
      { pass with text := asked.2 }
    drawn.surface.InStep asked.2 ∧ drawn.surface.glyphs = pass.surface.glyphs := by
  have later : (pass.text.stepTag tag).2.Sound := sound.step 0 (.tag tag)
  have ⟨opened, variant, fontSize⟩ := step
  revert later
  rw [TextState.stepTag]
  rcases TagRole.ofName tag.name with emphasis | _ | _ | _ <;> intro later
  · simp only [Option.toList, List.foldl_cons, List.foldl_nil, perform_surface]
    rw [Paper.answer_selectStyle destination opened]
    exact ⟨⟨opened, rfl, fontSize⟩, rfl⟩
  · simp only [Option.toList, List.foldl_cons, List.foldl_nil, perform_surface]
    rw [Paper.answer_selectSize destination opened later.current]
    exact ⟨⟨opened, variant, rfl⟩, rfl⟩
  · exact ⟨⟨opened, variant, fontSize⟩, rfl⟩
  · exact ⟨step, rfl⟩

theorem start_shows (opened : pass.surface.closed = false) (sound : pass.text.Sound) :
    (pass.start (Paper.surface destination)).surface.InStep pass.text ∧
      (pass.start (Paper.surface destination)).surface.glyphs = pass.surface.glyphs ∧
      (pass.start (Paper.surface destination)).text = pass.text := by
  simp only [start, TextState.opening, List.foldl_cons, List.foldl_nil, perform_surface,
    perform_text]
  rw [Paper.answer_selectStyle destination opened]
  have still : { pass.surface with variant := pass.text.style.variant }.closed = false := opened
  rw [Paper.answer_selectSize destination still sound.current]
  exact ⟨⟨opened, rfl, rfl⟩, rfl, trivial⟩

/-! ### The whole text -/

-- The surface is set as the tags have left it, to sizes that it accepts.
structure Ready (pass : Pass Paper) : Prop where
  step : pass.surface.InStep pass.text
  sound : pass.text.Sound

theorem Ready.collect (ready : pass.Ready) :
    (pass.collect (Paper.surface destination) brief).Ready ∧
      (pass.collect (Paper.surface destination) brief).surface.glyphs = pass.surface.glyphs := by
  obtain ⟨bare, text⟩ := collect_bare destination brief pass
  obtain ⟨step, sound⟩ := ready
  have inStep : Paper.InStep (pass.collect (Paper.surface destination) brief).surface pass.text :=
    ⟨(congrArg Paper.closed bare).trans step.opened, (congrArg Paper.variant bare).trans step.variant,
      (congrArg Paper.fontSize bare).trans step.fontSize⟩
  constructor
  · exact ⟨text ▸ inStep, text ▸ sound⟩
  · rw [← Paper.glyphs_bare, bare, ← Paper.glyphs_bare pass.surface]
    rfl

theorem Ready.asked (ready : pass.Ready) (token : Token) :
    let asked := pass.text.step brief.lineHeight token
    let drawn := asked.1.toList.foldl (perform (Paper.surface destination))
      { pass with text := asked.2 }
    drawn.Ready ∧ drawn.surface.glyphs = pass.surface.glyphs ++ pass.text.said token := by
  obtain ⟨step, sound⟩ := ready
  have settled := sound.step brief.lineHeight token
  have text := foldl_perform_text (Paper.surface destination)
    (pass.text.step brief.lineHeight token).1
    { pass with text := (pass.text.step brief.lineHeight token).2 }
  intro asked drawn
  suffices drawn.surface.InStep asked.2 ∧
      drawn.surface.glyphs = pass.surface.glyphs ++ pass.text.said token from
    ⟨⟨text ▸ this.1, text ▸ settled⟩, this.2⟩
  cases token with
  | tag tag =>
    obtain ⟨inStep, shown⟩ := tag_shows destination step sound tag
    exact ⟨inStep, shown.trans (List.append_nil _).symm⟩
  | content content =>
    -- Content changes the skip flag alone, so the paper stays in step.
    have inStep : Paper.InStep ({ pass with text := asked.2 } : Pass Paper).surface asked.2 :=
      ⟨step.opened, step.variant, step.fontSize⟩
    exact drawing_shows destination brief inStep settled (pass.text.cell.prepare content).1

theorem Ready.feed (ready : pass.Ready) (token : Token) :
    (pass.feed (Paper.surface destination) brief token).Ready ∧
      (pass.feed (Paper.surface destination) brief token).surface.glyphs =
        pass.surface.glyphs ++ pass.text.said token := by
  obtain ⟨drawn, shown⟩ := ready.asked destination brief token
  obtain ⟨collected, same⟩ := drawn.collect destination brief
  exact ⟨collected, same.trans shown⟩

theorem Ready.foldl_feed (ready : pass.Ready) (tokens : List Token) :
    (tokens.foldl (Pass.feed (Paper.surface destination) brief) pass).Ready ∧
      (tokens.foldl (Pass.feed (Paper.surface destination) brief) pass).surface.glyphs =
        pass.surface.glyphs ++ pass.text.glyphs brief.lineHeight tokens := by
  induction tokens generalizing pass with
  | nil => exact ⟨ready, (List.append_nil _).symm⟩
  | cons token rest ih =>
    obtain ⟨fed, shown⟩ := ready.feed destination brief token
    obtain ⟨last, later⟩ := ih fed
    refine ⟨last, later.trans ?_⟩
    rw [shown, List.append_assoc, feed_text]
    rfl

theorem beforeWriting_shows (opened : pass.surface.closed = false) (sound : pass.text.Sound)
    (tokens : List Token) :
    (pass.beforeWriting (Paper.surface destination) brief tokens).surface.closed = false ∧
      (pass.beforeWriting (Paper.surface destination) brief tokens).surface.glyphs =
        pass.surface.glyphs ++ pass.text.glyphs brief.lineHeight tokens := by
  obtain ⟨inStep, shown, text⟩ := start_shows destination opened sound
  have started : Ready (pass.start (Paper.surface destination)) := ⟨text ▸ inStep, text ▸ sound⟩
  obtain ⟨fed, whole⟩ := started.foldl_feed destination brief tokens
  obtain ⟨collected, same⟩ := fed.collect destination brief
  let drained := (tokens.foldl (feed (Paper.surface destination) brief)
    (pass.start (Paper.surface destination))).collect (Paper.surface destination) brief
  obtain ⟨bare, -⟩ := layTemplate_bare destination brief drained drained.surface.currentPage
  constructor
  · exact (congrArg Paper.closed bare).trans collected.step.opened
  · rw [← shown, ← text, ← whole, ← same, ← Paper.glyphs_bare, ← Paper.glyphs_bare drained.surface]
    exact congrArg Paper.glyphs bare

end Pass

/-! ### Jobs -/

namespace Job

theorem beforeWriting_glyphs (job : Job) (destination : Destination)
    (valid : job.config.fault? = none) :
    (job.beforeWriting destination).surface.closed = false ∧
      (job.beforeWriting destination).surface.glyphs =
        job.start.glyphs job.config.lineHeight (Markup.tokenize job.text) :=
  Pass.beforeWriting_shows destination job.brief rfl (Config.sound_of_fault? valid) _

-- At the start nothing is open, so the openings in the text are all that can fill the counts.
theorem start_glyphs {job : Job}
    (few : ∀ tag, openings tag (Markup.toggles (Markup.tokenize job.text)) < 2 ^ 32) :
    job.start.glyphs job.config.lineHeight (Markup.tokenize job.text) =
      Walk.glyphs job.config.fontSize job.config.smallFontSize {} (Markup.tokenize job.text) := by
  have unopened (tag : Emphasis) : job.start.style.count tag = ({} : Walk).depth tag := by
    cases tag <;> rfl
  have room : ({} : Walk).HasRoom (Markup.tokenize job.text) := by
    intro tag
    cases tag <;> exact (Nat.zero_add _).trans_lt (few _)
  have follows : job.start.Follows job.config.fontSize job.config.smallFontSize {} :=
    ⟨unopened, rfl, rfl, rfl⟩
  exact follows.glyphs job.config.lineHeight room

/-- However its lines wrap and its pages break, a job with valid settings, whose text has fewer than
2^32 opening tags of each style, is written as pages that show every character of the text once, in
order, in its face and its size. -/
theorem shows_its_text (job : Job) (destination : Destination) (valid : job.config.fault? = none)
    (few : ∀ tag, openings tag (Markup.toggles (Markup.tokenize job.text)) < 2 ^ 32)
    (accepts : ∀ document, destination document = .ok ()) :
    ∃ pass document, job.run destination = .ok pass ∧ pass.surface.written = some document ∧
      document.pageIds.map document.pageContent =
        (job.pages destination).map (fun page => Pdf.contentBytes page.content) ∧
      (job.pages destination).flatMap Page.glyphs =
        Walk.glyphs job.config.fontSize job.config.smallFontSize {} (Markup.tokenize job.text) := by
  obtain ⟨opened, shown⟩ := job.beforeWriting_glyphs destination valid
  refine ⟨job.draw destination, job.document destination, run_of_valid valid, ?_,
    document_contents, ?_⟩
  · exact draw_written opened (accepts _)
  · rw [← start_glyphs few, ← shown, pages_eq_sheets opened]
    rfl

def boldWord : Job :=
  { text := "one <B>two</B> <SMALL>three".toList, destination := "words.pdf" }

def accepting : Destination := fun _ => .ok ()

theorem shows_bold_word :
    boldWord.config.fault? = none ∧
      (∀ tag, openings tag (Markup.toggles (Markup.tokenize boldWord.text)) < 2 ^ 32) ∧
      (∀ document, accepting document = .ok ()) ∧
      ∃ pass document, boldWord.run accepting = .ok pass ∧ pass.surface.written = some document ∧
        (boldWord.pages accepting).flatMap Page.glyphs =
          Paper.spell .plain 9 "one ".toList ++
            Paper.spell ⟨true, false, false⟩ 9 "two".toList ++
            Paper.spell .plain 9 " ".toList ++ Paper.spell .plain 6 "three".toList := by
  have valid : boldWord.config.fault? = none := by decide
  have few : ∀ tag, openings tag (Markup.toggles (Markup.tokenize boldWord.text)) < 2 ^ 32 := by
    intro tag
    cases tag <;> decide +kernel
  obtain ⟨pass, document, done, written, -, shown⟩ :=
    boldWord.shows_its_text accepting valid few fun _ => rfl
  refine ⟨valid, few, fun _ => rfl, pass, document, done, written, shown.trans ?_⟩
  decide +kernel

end Job

end Letterhead
