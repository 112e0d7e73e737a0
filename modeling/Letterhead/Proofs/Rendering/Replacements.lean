import Letterhead.CommandLine.Run
import Letterhead.Proofs.Rendering.Minutes
import Letterhead.Proofs.Rendering.Noninterference
import Letterhead.Proofs.Surface.Fragments

/-!
A job without a template has no failures. Its report holds nothing but a warning for each drawn
fragment in which a character was replaced, and its document is always written.
-/

namespace Letterhead

open Markup (Token)

/-! ### Calls on an open paper -/

/-- What is visible of the content of a call: line breaks are spaces in a cell, and elsewhere nothing. -/
def Call.visible : Call → List Char
  | .flowText _ content => content.filter (!Paper.isBreak ·)
  | .boxText content _ => content.map Paper.flattenBreak
  | _ => []

theorem Call.visible_eq_nil {call : Call} (stamp : call.isStamp = true) : call.visible = [] := by
  cases call <;> first | rfl | cases stamp

theorem Call.visible_filter (calls : List Call) :
    calls.flatMap Call.visible = (calls.filter (!·.isStamp)).flatMap Call.visible := by
  induction calls with
  | nil => rfl
  | cons call rest ih =>
    by_cases stamp : call.isStamp = true
    · simp [stamp, Call.visible_eq_nil stamp, ih]
    · simp [stamp, ih]

/-- Sets a size that there is, and leaves the paper open. -/
def Call.Sound : Call → Prop
  | .selectSize size => size.isFinite = true ∧ 0 < size
  | .boxText _ layout => layout.IsSized
  | .write => False
  | _ => True

theorem Call.sound_of_isStamp {call : Call} (stamp : call.isStamp = true) : call.Sound := by
  cases call <;> trivial

namespace Paper

variable {paper : Paper}

theorem answer_stamp_adds (destination : Destination) (page templatePage : Nat) (paper : Paper) :
    (answer destination (.stamp page templatePage) paper).2.closed = paper.closed ∧
      Adds paper [] (answer destination (.stamp page templatePage) paper).2 := by
  have bare := answer_stamp_bare destination page templatePage paper
  generalize answer destination (.stamp page templatePage) paper = outcome at bare
  have closed : outcome.2.bare.closed = paper.bare.closed := by rw [bare]
  have warnings : outcome.2.bare.warnings = paper.bare.warnings := by rw [bare]
  refine ⟨closed, adds_nothing ?_ warnings⟩
  rw [← shown_bare, bare, shown_bare]

/-- An open paper obeys sound calls, and stamps if it can. -/
theorem answer_sound (destination : Destination) (opened : paper.closed = false) {call : Call}
    (sound : call.Sound) :
    (answer destination call paper).2.closed = false ∧
      (∃ fragments, Adds paper fragments (answer destination call paper).2 ∧
        fragments.flatten = call.visible) ∧
      (call.isStamp = false → (answer destination call paper).1 = .ok ()) := by
  have stillOpen : ¬ paper.closed = true := by simp [opened]
  cases call with
  | selectStyle variant =>
    rw [answer.eq_def, if_neg stillOpen]
    exact ⟨opened, ⟨[], adds_nothing rfl rfl, rfl⟩, fun _ => rfl⟩
  | selectSize size =>
    rw [show answer destination (.selectSize size) paper = _ from
      answer_selectSize destination opened sound]
    exact ⟨opened, ⟨[], adds_nothing rfl rfl, rfl⟩, fun _ => rfl⟩
  | flowText lineHeight content =>
    rw [answer.eq_def, if_neg stillOpen]
    obtain ⟨texts, draws, same⟩ := paper.flowText_draws lineHeight content
    exact ⟨draws.kept.closed.trans opened, ⟨texts, draws.adds, same⟩, fun _ => rfl⟩
  | boxText content layout =>
    have fits : ¬ (layout.height < 0 ∨ layout.width < 0) := sound
    simp only [answer, if_neg stillOpen, if_neg fits]
    obtain ⟨texts, draws, same⟩ := paper.boxText_draws content layout
    exact ⟨draws.kept.closed.trans opened, ⟨texts, draws.adds, same⟩, fun _ => trivial⟩
  | stamp page templatePage =>
    obtain ⟨closed, adds⟩ := answer_stamp_adds destination page templatePage paper
    exact ⟨closed.trans opened, ⟨[], adds, rfl⟩, fun plain => by cases plain⟩
  | write => exact sound.elim

/-- As long as the pages are not written, a call that is refused shows nothing and warns of nothing. -/
theorem answer_adds (destination : Destination) (opened : paper.closed = false) {call : Call}
    (early : call ≠ .write) :
    ∃ fragments, Adds paper fragments (answer destination call paper).2 := by
  by_cases sound : call.Sound
  · obtain ⟨-, ⟨fragments, adds, -⟩, -⟩ := answer_sound destination opened sound
    exact ⟨fragments, adds⟩
  · refine ⟨[], ?_⟩
    rw [answer.eq_def, if_neg (by simp [opened])]
    cases call with
    | selectSize size =>
      have refused : ¬ (size.isFinite = true ∧ 0 < size) := sound
      simp only [if_neg refused]
      exact adds_nothing rfl rfl
    | boxText content layout =>
      have refused : layout.height < 0 ∨ layout.width < 0 := not_not.mp sound
      simp only [if_pos refused]
      exact adds_nothing rfl rfl
    | write => exact absurd rfl early
    | selectStyle | flowText | stamp => exact absurd trivial sound

/-- Nothing but the one who collects them takes warnings away. -/
theorem surface_pends (destination : Destination) : (surface destination).Pends Paper.warnings where
  answer call paper := by
    show paper.warnings <+: (answer destination call paper).2.warnings
    by_cases closed : paper.closed = true
    · simp only [answer.eq_def, if_pos closed, List.prefix_refl]
    · by_cases last : call = .write
      · rw [last, answer.eq_def, if_neg closed]
        simp only [publish]
        split <;> exact List.prefix_refl _
      · obtain ⟨fragments, adds⟩ := answer_adds destination (by simpa using closed) last
        exact ⟨_, adds.warnings.symm⟩
  drainBreaks _ := List.prefix_refl _
  handsOut _ := rfl
  clears _ := rfl

end Paper

namespace TextState.Sound

variable {text : TextState} {lineHeight : Float32}

theorem asked (sound : text.Sound) {token : Token} {call : Call}
    (asked : call ∈ (text.step lineHeight token).1) : call.Sound := by
  cases token with
  | content content =>
    have later := sound.step lineHeight (.content content)
    simp only [TextState.step, drawing] at asked
    split at asked
    · cases asked
    · split at asked <;> cases asked
      · rename_i cell given
        exact later.sized cell given
      · trivial
  | tag tag =>
    have selected : Sound { text with sizes := text.sizes.select !tag.closing } :=
      ⟨sound.regular, sound.small, sound.sized⟩
    simp only [TextState.step, stepTag] at asked
    split at asked <;> cases asked
    · trivial
    · exact selected.current

theorem calls (sound : text.Sound) (tokens : List Token) :
    ∀ call ∈ text.calls lineHeight tokens, call.Sound := by
  intro call asked
  induction tokens generalizing text with
  | nil => cases asked
  | cons token rest ih =>
    rcases List.mem_append.mp asked with here | later
    · exact sound.asked (Option.mem_toList.mp here)
    · exact ih (sound.step lineHeight token) later

theorem opening (sound : text.Sound) : ∀ call ∈ text.opening, call.Sound := by
  intro call asked
  simp only [TextState.opening, List.mem_cons, List.not_mem_nil, or_false] at asked
  rcases asked with rfl | rfl
  · trivial
  · exact sound.current

end TextState.Sound

/-! ### What a minuted paper tells -/

namespace Minuted

/-- The fragments shown are those of the calls, and all warnings are about them. -/
structure Tells (fragments : List (List Char)) (state : Minuted Paper) : Prop where
  opened : state.surface.closed = false
  shown : state.surface.shown = fragments.map Text.WinAnsi.encode
  warned : state.warned = Paper.replacements fragments
  filled : [] ∉ fragments
  visible : fragments.flatten = state.calls.flatMap Call.visible
  answered : ∀ answer ∈ state.answers, answer.call.isStamp = false → answer.result = .ok ()

-- As long as all calls so far were sound.
def Telling (state : Minuted Paper) : Prop :=
  (∀ call ∈ state.calls, call.Sound) → ∃ fragments, state.Tells fragments

theorem warnedAfter_adds {state : Minuted Paper} {fragments : List (List Char)} {after : Paper}
    (adds : Paper.Adds state.surface fragments after) :
    state.warnedAfter Paper.warnings after = state.warned ++ Paper.replacements fragments := by
  rw [warnedAfter, adds.warnings, List.drop_left]

theorem Tells.answer {fragments : List (List Char)} {state : Minuted Paper} (tells : state.Tells fragments)
    (destination : Destination) {call : Call} (sound : call.Sound) :
    ∃ added, (((Paper.surface destination).minuting Paper.warnings).answer call state).2.Tells
      (fragments ++ added) := by
  obtain ⟨opened, ⟨added, adds, visible⟩, succeeds⟩ :=
    Paper.answer_sound destination tells.opened sound
  refine ⟨added, opened, ?_, ?_, ?_, ?_, ?_⟩
  · rw [List.map_append, ← tells.shown]
    exact adds.shown
  · rw [Paper.replacements_append, ← tells.warned]
    exact warnedAfter_adds adds
  · rw [List.mem_append, not_or]
    exact ⟨tells.filled, adds.filled⟩
  · rw [List.flatten_append, tells.visible, visible]
    simp [Surface.minuting, calls]
  · intro answer given
    rcases List.mem_append.mp given with earlier | now
    · exact tells.answered answer earlier
    · obtain rfl := List.mem_singleton.mp now
      exact succeeds

theorem surface_keeps_telling (destination : Destination) :
    ((Paper.surface destination).minuting Paper.warnings).Keeps Telling where
  answer call state before sound := by
    have calls : ∀ earlier ∈ state.calls ++ [call], earlier.Sound := by
      simpa [Surface.minuting, Minuted.calls] using sound
    obtain ⟨earlier, now⟩ := List.forall_mem_append.mp calls
    obtain ⟨fragments, tells⟩ := before earlier
    obtain ⟨added, told⟩ := tells.answer destination (now call List.mem_cons_self)
    exact ⟨_, told⟩
  drainBreaks {state} before sound := by
    obtain ⟨fragments, tells⟩ := before sound
    have still : Paper.Adds state.surface [] state.surface.drainBreaks.2 := Paper.adds_nothing rfl rfl
    have same := (warnedAfter_adds still).trans (List.append_nil state.warned)
    exact ⟨fragments, tells.opened, tells.shown, same.trans tells.warned, tells.filled, tells.visible,
      tells.answered⟩
  drainWarnings before sound := by
    obtain ⟨fragments, tells⟩ := before sound
    exact ⟨fragments, tells.opened, tells.shown, tells.warned, tells.filled, tells.visible, tells.answered⟩

end Minuted

/-! ### The calls of a pass -/

theorem Pass.minuted_calls {σ : Type} (surface : Surface σ) (pending : σ → List String) (brief : Brief)
    (state : σ) (text : TextState) (tokens : List Token) :
    let minutes := Pass.beforeWriting (surface.minuting pending) brief
      { surface := ⟨state, [], []⟩, text } tokens
    minutes.surface.calls.filter (!·.isStamp) = text.opening ++ text.calls brief.lineHeight tokens ∧
      (brief.templatePages = 0 → minutes.surface.calls.filter Call.isStamp = []) := by
  intro minutes
  let traced : Pass (Traced σ) := { surface := ⟨state, []⟩, text }
  have same := beforeWriting_through brief (surface.minuting_views_tracing pending)
    { surface := ⟨state, [], []⟩, text } tokens
  have calls : minutes.surface.calls = (traced.beforeWriting surface.tracing brief tokens).surface.calls :=
    (List.reverse_reverse minutes.surface.calls).symm.trans (congrArg (·.surface.calls) same)
  obtain ⟨others, stamped⟩ := beforeWriting_calls surface brief traced tokens
  rw [calls]
  refine ⟨others, fun none => ?_⟩
  obtain ⟨stamps, -⟩ := stamped ⟨rfl, List.nodup_nil⟩
  refine stamps.trans (List.filterMap_eq_nil_iff.mpr fun page _ => ?_)
  simp [stampFor?, overlay?, none]

/-! ### Jobs -/

namespace Job

/-- What the text asks to draw. -/
def calls (job : Job) : List Call :=
  job.start.calls job.config.lineHeight (Markup.tokenize job.text)

/-- The pass with minutes, when nothing is left to do but to write the pages. -/
def minutes (job : Job) (destination : Destination) : Pass (Minuted Paper) :=
  Pass.beforeWriting ((Paper.surface destination).minuting Paper.warnings) job.brief
    { surface := ⟨job.blank, [], []⟩, text := job.start } (Markup.tokenize job.text)

/-- The whole pass with minutes. -/
def minuted (job : Job) (destination : Destination) : Pass (Minuted Paper) :=
  Pass.run ((Paper.surface destination).minuting Paper.warnings) job.brief
    { surface := ⟨job.blank, [], []⟩, text := job.start } (Markup.tokenize job.text)

variable (job : Job) (destination : Destination)

theorem minutes_through :
    (job.minutes destination).through Minuted.surface = job.beforeWriting destination :=
  Pass.beforeWriting_through job.brief ((Paper.surface destination).minuting_views Paper.warnings) _ _

theorem minutes_surface :
    (job.minutes destination).surface.surface = (job.beforeWriting destination).surface :=
  congrArg Pass.surface (job.minutes_through destination)

theorem minuted_through : (job.minuted destination).through Minuted.surface = job.draw destination :=
  Pass.run_through job.brief ((Paper.surface destination).minuting_views Paper.warnings) _ _

theorem blank_tells : Minuted.Tells [] ⟨job.blank, [], []⟩ where
  opened := rfl
  shown := rfl
  warned := rfl
  filled := List.not_mem_nil
  visible := rfl
  answered := fun _ given => absurd given List.not_mem_nil

theorem minutes_calls :
    (job.minutes destination).surface.calls.filter (!·.isStamp) = job.start.opening ++ job.calls ∧
      (job.template = none → (job.minutes destination).surface.calls.filter Call.isStamp = []) := by
  obtain ⟨others, unstamped⟩ := Pass.minuted_calls (Paper.surface destination) Paper.warnings job.brief
    job.blank job.start (Markup.tokenize job.text)
  refine ⟨others, fun plain => unstamped ?_⟩
  rw [brief, templatePages, plain]

variable {job}

theorem minutes_sound (valid : job.config.fault? = none) :
    ∀ call ∈ (job.minutes destination).surface.calls, call.Sound := by
  have sound := Config.sound_of_fault? valid
  intro call made
  by_cases stamp : call.isStamp = true
  · exact Call.sound_of_isStamp stamp
  · have other : call ∈ (job.minutes destination).surface.calls.filter (!·.isStamp) :=
      List.mem_filter.mpr ⟨made, by simp [stamp]⟩
    rw [(job.minutes_calls destination).1] at other
    rcases List.mem_append.mp other with opening | later
    · exact sound.opening call opening
    · exact sound.calls _ call later

variable (job)

/-- The fragments on the pages are those of the content that the tokens ask to draw. -/
theorem minutes_tell (valid : job.config.fault? = none) :
    ∃ fragments, (job.minutes destination).surface.Tells fragments ∧
      (job.pages destination).flatMap Page.shown = fragments.map Text.WinAnsi.encode ∧
      fragments.flatten = job.calls.flatMap Call.visible := by
  have fresh : Minuted.Telling ⟨job.blank, [], []⟩ := fun _ => ⟨[], job.blank_tells⟩
  have kept : (job.minutes destination).surface.Telling :=
    (Minuted.surface_keeps_telling destination).beforeWriting job.brief fresh _
  obtain ⟨fragments, tells⟩ := kept (minutes_sound destination valid)
  refine ⟨fragments, tells, ?_, ?_⟩
  · obtain ⟨opened, -⟩ := job.beforeWriting_glyphs destination valid
    rw [pages_eq_sheets opened, ← minutes_surface]
    exact tells.shown
  · rw [tells.visible, Call.visible_filter, (job.minutes_calls destination).1]
    rfl

variable {job} {destination}

theorem minuted_answers (opened : (job.beforeWriting destination).surface.closed = false) :
    ∃ page, (job.minuted destination).surface.answers = (job.minutes destination).surface.answers ++
      [⟨.write, ((job.beforeWriting destination).surface.publish destination).1, page⟩] := by
  have published : ((Paper.surface destination).answer .write (job.minutes destination).surface.surface) =
      (job.beforeWriting destination).surface.publish destination := by
    simp [minutes_surface, Paper.surface, Paper.answer, opened]
  rw [minuted, Pass.run_eq, ← published]
  exact ⟨_, congrArg Minuted.answers (Pass.perform_surface _ (job.minutes destination) .write)⟩

theorem minutes_answered (destination : Destination) (valid : job.config.fault? = none)
    (plain : job.template = none) :
    ∀ answer ∈ (job.minutes destination).surface.answers, answer.result = .ok () := by
  obtain ⟨fragments, tells, -⟩ := job.minutes_tell destination valid
  intro answer given
  apply tells.answered answer given
  by_contra stamp
  have among : answer.call ∈ (job.minutes destination).surface.calls.filter Call.isStamp :=
    List.mem_filter.mpr ⟨List.mem_map_of_mem given, by simpa using stamp⟩
  rw [(job.minutes_calls destination).2 plain] at among
  cases among

theorem minutes_messages (valid : job.config.fault? = none) (plain : job.template = none) :
    (job.beforeWriting destination).report.messages = (job.minutes destination).surface.warned := by
  have fresh : Pass.Accounts Paper.warnings { surface := ⟨job.blank, [], []⟩, text := job.start } :=
    ⟨[], rfl, .nil⟩
  have accounts : (job.minutes destination).Accounts Paper.warnings :=
    (Pass.keeps_accounts (Paper.surface_pends destination)).beforeWriting job.brief fresh _
  obtain ⟨collected, waiting, merged⟩ := accounts
  have answered := minutes_answered destination valid plain
  have unfailing : (job.minutes destination).surface.failures = [] := by
    refine List.filterMap_eq_nil_iff.mpr fun answer given => ?_
    rw [Answer.failure?, answered answer given]
  have drained : (job.minutes destination).surface.surface.warnings = [] := by
    rw [minutes_surface]
    exact Pass.beforeWriting_warnings destination job.brief _
  rw [unfailing] at merged
  rw [waiting, drained, List.append_nil, ← merged.eq_of_left_nil]
  exact congrArg (·.report.messages) (job.minutes_through destination).symm

/-- Without a failure to write, a job is saved, and never ends with nothing to save. -/
theorem produce_saves (valid : job.config.fault? = none) {m : Type → Type} [Monad m]
    (environment : CommandLine.Environment m) :
    CommandLine.produce environment job = do
      match ← environment.save job.destination (job.document accepting) with
      | .error reason => throw (.io reason)
      | .ok () => return (job.draw accepting).report := by
  obtain ⟨opened, -⟩ := job.beforeWriting_glyphs accepting valid
  have done : job.run (fun _ => .ok ()) = .ok (job.draw accepting) := run_of_valid valid
  have written : (job.draw accepting).surface.written = some (job.document accepting) :=
    draw_written opened rfl
  have produced := CommandLine.produce.eq_def environment job
  simp only [done, written] at produced
  exact produced

/-- A job without a template, with valid settings and a destination that takes it, is drawn without
any failure: each call is answered, a document is written, and the report has one warning for each
fragment with a character that was replaced, in the order in which the fragments are shown. The
fragments are those of the operators that show text, and make up what is visible of the content. -/
theorem succeeds_without_template (job : Job) (destination : Destination)
    (valid : job.config.fault? = none) (plain : job.template = none)
    (accepts : ∀ document, destination document = .ok ()) :
    (job.minuted destination).through Minuted.surface = job.draw destination ∧
      (∀ answer ∈ (job.minuted destination).surface.answers, answer.result = .ok ()) ∧
      (∃ pass document fragments, job.run destination = .ok pass ∧
        pass.surface.written = some document ∧
        document.pageIds.map document.pageContent =
          (job.pages destination).map (fun page => Pdf.contentBytes page.content) ∧
        (job.pages destination).flatMap Page.shown = fragments.map Text.WinAnsi.encode ∧
        [] ∉ fragments ∧
        fragments.flatten = job.calls.flatMap Call.visible ∧
        pass.report.messages = Paper.replacements fragments ∧
        (pass.report.isClean = true ↔
          ∀ c ∈ fragments.flatten, (Text.WinAnsi.byte? c).isSome = true)) ∧
      ∀ {m : Type → Type} [Monad m] (environment : CommandLine.Environment m),
        CommandLine.produce environment job = do
          match ← environment.save job.destination (job.document accepting) with
          | .error reason => throw (.io reason)
          | .ok () => return (job.draw accepting).report := by
  obtain ⟨opened, -⟩ := job.beforeWriting_glyphs destination valid
  obtain ⟨fragments, tells, shown, visible⟩ := job.minutes_tell destination valid
  have accepted : destination (job.document destination) = .ok () := accepts _
  have messages : (job.draw destination).report.messages = Paper.replacements fragments := by
    rw [draw_messages opened, accepted, minutes_messages valid plain, tells.warned]
    exact List.append_nil _
  refine ⟨job.minuted_through destination, ?_, ?_, produce_saves valid⟩
  · obtain ⟨page, answers⟩ := minuted_answers opened
    intro answer given
    rw [answers] at given
    rcases List.mem_append.mp given with earlier | last
    · exact minutes_answered destination valid plain answer earlier
    · obtain rfl := List.mem_singleton.mp last
      rw [Paper.publish, show destination (job.beforeWriting destination).surface.assemble = .ok () from
        accepted]
  · refine ⟨job.draw destination, job.document destination, fragments, run_of_valid valid,
      draw_written opened accepted, document_contents, shown, tells.filled, visible, messages, ?_⟩
    rw [Report.isClean, messages, List.isEmpty_iff, Paper.replacements_eq_nil_iff]

/-- Two of the three fragments have a character that no byte stands for. -/
def greekWords : Job :=
  { text := "λόγος\nsmall <CELL>→ λ</CELL>".toList, destination := "words.pdf" }

theorem greek_words_succeed :
    greekWords.config.fault? = none ∧ greekWords.template = none ∧
      (∀ document, accepting document = .ok ()) ∧
      ∃ pass, greekWords.run accepting = .ok pass ∧ pass.report.isClean = false ∧
        pass.report.messages =
          ["Characters outside WinAnsi replaced with '?' in \"λόγος\"",
            "Characters outside WinAnsi replaced with '?' in \"→ λ\""] := by
  have valid : greekWords.config.fault? = none := by decide
  obtain ⟨-, -, ⟨pass, document, fragments, done, -, -, -, -, visible, -, clean⟩, -⟩ :=
    greekWords.succeeds_without_template accepting valid rfl fun _ => rfl
  have drawn : greekWords.draw accepting = pass := Except.ok.inj ((run_of_valid valid).symm.trans done)
  refine ⟨valid, rfl, fun _ => rfl, pass, done, ?_, ?_⟩
  · rw [Bool.eq_false_iff]
    intro none
    have lambda := clean.mp none 'λ'
    rw [visible] at lambda
    exact absurd (lambda (by decide +kernel)) (by decide)
  · rw [← drawn]
    decide +kernel

end Job

end Letterhead
