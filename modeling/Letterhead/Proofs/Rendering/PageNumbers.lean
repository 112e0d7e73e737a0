import Letterhead.Proofs.Rendering.Journal
import Letterhead.Proofs.Rendering.Replacements
import Letterhead.Proofs.Rendering.Turns
import Letterhead.Proofs.Surface.Finality

/-!
The page numbers in the messages about a job. A failure while the job is drawn is reported with a
page that there is by then; when the pages are written none is left, and a failure to write them is
reported with page zero.
-/

namespace Letterhead

open Markup (Token)

/-! ### Messages that name a page -/

/-- The message is about a call that failed, and this is the page in it. -/
def Names (message : String) (page : Nat) : Prop :=
  ∃ call fault, message = failureMessage call page fault

theorem names_failureMessage {call : Call} {page number : Nat} {fault : DrawFault} :
    Names (failureMessage call page fault) number ↔ number = page := by
  constructor
  · rintro ⟨other, reason, same⟩
    exact (failureMessage_page same).symm
  · rintro rfl
    exact ⟨call, fault, rfl⟩

theorem not_names_replacement (fragment : List Char) (page : Nat) :
    ¬ Names (Paper.replacement fragment) page := by
  rintro ⟨call, fault, same⟩
  have letters := congrArg String.toList same
  rw [toList_failureMessage] at letters
  unfold Paper.replacement at letters
  simp at letters

/-- No page is named in any of the messages. -/
def Unnamed (messages : List String) : Prop := ∀ message ∈ messages, ∀ page, ¬ Names message page

theorem unnamed_replacements (fragments : List (List Char)) :
    Unnamed (Paper.replacements fragments) := by
  intro message member
  obtain ⟨fragment, -, rfl⟩ := List.mem_map.mp member
  exact not_names_replacement fragment

/-! ### Pages of an open paper -/

namespace Paper

variable {paper : Paper}

-- What a call changes about the pages and the warnings as long as the pages are not written.
theorem answer_goes_on (destination : Destination) (opened : paper.closed = false) {call : Call}
    (early : call ≠ .write) :
    let after := (answer destination call paper).2
    after.closed = false ∧
      (∃ count, after.finished.length = paper.finished.length + count ∧
        after.breaks = paper.breaks ++ List.range' (paper.finished.length + 1) count) ∧
      ∃ fragments, after.warnings = paper.warnings ++ replacements fragments := by
  intro after
  have used : paper.Used (.call call) after :=
    use_used destination opened fun same => early (Use.call.inj same)
  obtain ⟨fragments, adds⟩ := answer_adds destination opened early
  exact ⟨used.same.closed.trans opened, used.turns destination, fragments, adds.warnings⟩

end Paper

theorem Call.of_isDrawing {call : Call} (draws : call.isDrawing = true) :
    call ≠ .write ∧ call.stamped? = none := by
  cases call with
  | stamp | write => cases draws
  | selectStyle | selectSize | flowText | boxText => exact ⟨nofun, rfl⟩

/-! ### Entries and the pages there are -/

/-- Each call was answered while some page of these many and one more was current, and after the
page that it stamped, if it did. -/
def Entry.Dated (ended : Nat) : Entry → Prop
  | .answered answer =>
    0 < answer.page ∧ answer.page ≤ ended + 1 ∧ ∀ page ∈ answer.call.stamped?, page < answer.page
  | .warned warnings => Unnamed warnings

theorem Entry.Dated.mono {entry : Entry} {ended more : Nat} (dated : entry.Dated ended)
    (longer : ended ≤ more) : entry.Dated more := by
  cases entry with
  | answered answer => exact ⟨dated.1, Nat.le_trans dated.2.1 (Nat.succ_le_succ longer), dated.2.2⟩
  | warned warnings => exact dated

/-- When all is drawn: a stamp was answered while its own page was current only if that is the last. -/
def Entry.Settled (pages : Nat) : Entry → Prop
  | .answered answer =>
    0 < answer.page ∧ answer.page ≤ pages ∧
      ∀ page ∈ answer.call.stamped?, page ≤ answer.page ∧ (answer.page = page ↔ page = pages)
  | .warned warnings => Unnamed warnings

theorem Entry.Dated.settled {entry : Entry} {ended : Nat} (dated : entry.Dated ended) :
    entry.Settled (ended + 1) := by
  cases entry with
  | answered answer =>
    refine ⟨dated.1, dated.2.1, fun page stamped => ?_⟩
    have later := dated.2.2 page stamped
    have there := dated.2.1
    omega
  | warned warnings => exact dated

-- Before the last turn, and when at least so many pages have ended.
structure Journaled.Dated (least : Nat) (state : Journaled Paper) : Prop where
  opened : state.surface.closed = false
  least : least ≤ state.surface.finished.length
  ended : ∀ page ∈ state.surface.breaks, page ≤ state.surface.finished.length
  unnamed : Unnamed state.surface.warnings
  entries : ∀ entry ∈ state.entries, entry.Dated state.surface.finished.length

namespace Journaled.Dated

variable {state : Journaled Paper} {least : Nat} (destination : Destination)

theorem start (dated : state.Dated least) : state.Dated 0 := { dated with least := Nat.zero_le _ }

theorem currentPage (dated : state.Dated least) :
    state.surface.currentPage = state.surface.finished.length + 1 :=
  Paper.currentPage_eq dated.opened

theorem settled (dated : state.Dated least) :
    ∀ entry ∈ state.entries, entry.Settled state.surface.currentPage := by
  rw [dated.currentPage]
  exact fun entry member => (dated.entries entry member).settled

theorem answer (dated : state.Dated least) {call : Call} (early : call ≠ .write)
    (past : ∀ page ∈ call.stamped?, page ≤ least) :
    ((Paper.surface destination).journaling.answer call state).2.Dated least := by
  obtain ⟨opened, ⟨count, longer, breaks⟩, fragments, warnings⟩ :=
    Paper.answer_goes_on destination dated.opened early
  have grown : state.surface.finished.length ≤
      (Paper.answer destination call state.surface).2.finished.length :=
    longer ▸ Nat.le_add_right _ count
  have earlier := dated.least
  refine ⟨opened, Nat.le_trans earlier grown, ?_, ?_, ?_⟩
  · intro page member
    rcases List.mem_append.mp (breaks ▸ member) with waiting | now
    · exact Nat.le_trans (dated.ended page waiting) grown
    · have inside := List.mem_range'_1.mp now
      show page ≤ (Paper.answer destination call state.surface).2.finished.length
      omega
  · have unnamed := List.forall_mem_append.mpr ⟨dated.unnamed, unnamed_replacements fragments⟩
    rwa [← warnings] at unnamed
  · have current : (Paper.answer destination call state.surface).2.currentPage =
        (Paper.answer destination call state.surface).2.finished.length + 1 := by
      simp [Paper.currentPage, opened]
    refine List.forall_mem_append.mpr ⟨fun entry before => (dated.entries entry before).mono grown,
      List.forall_mem_singleton.mpr ⟨?_, Nat.le_of_eq current, fun page stamped => ?_⟩⟩
    · exact Nat.lt_of_lt_of_eq (Nat.succ_pos _) current.symm
    · have there := past page stamped
      show page < (Paper.answer destination call state.surface).2.currentPage
      omega

theorem drainBreaks (dated : state.Dated least) :
    ((Paper.surface destination).journaling.drainBreaks state).2.Dated
      state.surface.finished.length :=
  ⟨dated.opened, Nat.le_refl _, List.forall_mem_nil _, dated.unnamed, dated.entries⟩

theorem drainWarnings (dated : state.Dated least) :
    ((Paper.surface destination).journaling.drainWarnings state).2.Dated least :=
  ⟨dated.opened, dated.least, dated.ended, List.forall_mem_nil _,
    List.forall_mem_append.mpr ⟨dated.entries, List.forall_mem_singleton.mpr dated.unnamed⟩⟩

end Journaled.Dated

/-! ### The steps of a pass -/

namespace Pass

variable {pass : Pass (Journaled Paper)} {least : Nat} (destination : Destination) (brief : Brief)

theorem perform_dated (dated : pass.surface.Dated least) {call : Call} (early : call ≠ .write)
    (past : ∀ page ∈ call.stamped?, page ≤ least) :
    (pass.perform (Paper.surface destination).journaling call).surface.Dated least := by
  rw [perform_surface]
  exact dated.answer destination early past

theorem foldl_perform_dated (dated : pass.surface.Dated least) (calls : List Call)
    (drawing : ∀ call ∈ calls, call.isDrawing = true) :
    (calls.foldl (perform (Paper.surface destination).journaling) pass).surface.Dated least := by
  induction calls generalizing pass with
  | nil => exact dated
  | cons call rest ih =>
    obtain ⟨early, unstamped⟩ := Call.of_isDrawing (drawing call List.mem_cons_self)
    refine ih (perform_dated destination dated early ?_) fun later member =>
      drawing later (List.mem_cons_of_mem _ member)
    intro page stamped
    rw [unstamped] at stamped
    cases stamped

theorem layTemplate_dated (dated : pass.surface.Dated least) {page : Nat} (ended : page ≤ least) :
    (pass.layTemplate (Paper.surface destination).journaling brief page).surface.Dated least := by
  rw [layTemplate]
  split
  · exact dated
  · rcases overlay? brief.templatePages page with _ | templatePage
    · exact dated
    · have turned : Journaled.Dated least { pass with served := page :: pass.served }.surface := dated
      refine perform_dated destination turned (by simp) fun own stamped => ?_
      obtain rfl : page = own := Option.some.inj stamped
      exact ended

theorem foldl_layTemplate_dated (dated : pass.surface.Dated least) (pages : List Nat)
    (ended : ∀ page ∈ pages, page ≤ least) :
    (pages.foldl (layTemplate (Paper.surface destination).journaling brief) pass).surface.Dated least := by
  induction pages generalizing pass with
  | nil => exact dated
  | cons page rest ih =>
    refine ih (layTemplate_dated destination brief dated (ended page List.mem_cons_self)) ?_
    exact fun later member => ended later (List.mem_cons_of_mem _ member)

theorem collect_dated (dated : pass.surface.Dated least) :
    (pass.collect (Paper.surface destination).journaling brief).surface.Dated
      pass.surface.surface.finished.length := by
  have drained := dated.drainBreaks destination
  exact (foldl_layTemplate_dated destination brief drained _ dated.ended).drainWarnings destination

theorem feed_dated (dated : pass.surface.Dated least) (token : Token) :
    (pass.feed (Paper.surface destination).journaling brief token).surface.Dated 0 := by
  have moved : Journaled.Dated 0
      { pass with text := (pass.text.step brief.lineHeight token).2 }.surface := dated.start
  have drawn := foldl_perform_dated destination moved (pass.text.step brief.lineHeight token).1.toList
    fun call asked => pass.text.step_drawing brief.lineHeight token call (Option.mem_toList.mp asked)
  exact (collect_dated destination brief drawn).start

theorem foldl_feed_dated (dated : pass.surface.Dated 0) (tokens : List Token) :
    (tokens.foldl (feed (Paper.surface destination).journaling brief) pass).surface.Dated 0 := by
  induction tokens generalizing pass with
  | nil => exact dated
  | cons token rest ih => exact ih (feed_dated destination brief dated token)

theorem drawn_dated (dated : pass.surface.Dated 0) (tokens : List Token) :
    (pass.drawn (Paper.surface destination).journaling brief tokens).surface.Dated 0 := by
  have started : (pass.start (Paper.surface destination).journaling).surface.Dated 0 :=
    foldl_perform_dated destination dated pass.text.opening pass.text.opening_drawing
  exact (collect_dated destination brief (foldl_feed_dated destination brief started tokens)).start

/-! ### The last turn -/

-- The current page is the only one that is stamped while it still is the current one.
theorem stamp_settled (dated : pass.surface.Dated least) (templatePage : Nat) :
    let page := pass.surface.surface.currentPage
    let last := pass.perform (Paper.surface destination).journaling (.stamp page templatePage)
    last.surface.surface.currentPage = page ∧ ∀ entry ∈ last.surface.entries, entry.Settled page := by
  intro page last
  have stamped : last.surface = _ := perform_surface _ pass (.stamp page templatePage)
  have bare : last.surface.surface.bare = pass.surface.surface.bare := by
    rw [stamped]
    exact Paper.answer_stamp_bare destination page templatePage pass.surface.surface
  have same : last.surface.surface.currentPage = page := by
    rw [← Paper.bare_currentPage, bare, Paper.bare_currentPage]
  refine ⟨same, ?_⟩
  rw [stamped] at same ⊢
  refine List.forall_mem_append.mpr ⟨dated.settled, List.forall_mem_singleton.mpr
    ⟨?_, Nat.le_of_eq same, fun own stamped => ?_⟩⟩
  · exact Nat.lt_of_lt_of_eq (Nat.succ_pos _) (same.trans dated.currentPage).symm
  · obtain rfl : page = own := Option.some.inj stamped
    exact ⟨Nat.le_of_eq same.symm, fun _ => rfl, fun _ => same⟩

theorem layTemplate_settled (dated : pass.surface.Dated least) :
    let page := pass.surface.surface.currentPage
    let last := pass.layTemplate (Paper.surface destination).journaling brief page
    last.surface.surface.currentPage = page ∧ ∀ entry ∈ last.surface.entries, entry.Settled page := by
  intro page last
  simp only [last, layTemplate]
  split
  · exact ⟨rfl, dated.settled⟩
  · rcases overlay? brief.templatePages page with _ | templatePage
    · exact ⟨rfl, dated.settled⟩
    · have turned : Journaled.Dated least { pass with served := page :: pass.served }.surface := dated
      exact stamp_settled destination turned templatePage

theorem beforeWriting_settled (dated : pass.surface.Dated 0) (tokens : List Token) :
    let last := pass.beforeWriting (Paper.surface destination).journaling brief tokens
    ∀ entry ∈ last.surface.entries, entry.Settled last.surface.surface.currentPage := by
  obtain ⟨current, settled⟩ :=
    layTemplate_settled destination brief (drawn_dated destination brief dated tokens)
  intro last entry member
  rw [show last.surface.surface.currentPage = _ from current]
  exact settled entry member

end Pass

/-! ### Jobs -/

theorem Paper.length_pages (paper : Paper) : paper.pages.length = paper.currentPage := by
  rw [pages, currentPage]
  split <;> simp

namespace Job

variable (job : Job) (destination : Destination)

/-- The pass with a journal, when nothing is left to do but to write the pages. -/
def journal : Pass (Journaled Paper) :=
  Pass.beforeWriting (Paper.surface destination).journaling job.brief
    { surface := ⟨job.blank, []⟩, text := job.start } (Markup.tokenize job.text)

theorem journal_through :
    (job.journal destination).through Journaled.surface = job.beforeWriting destination :=
  Pass.beforeWriting_through job.brief (Paper.surface destination).journaling_views _ _

theorem journal_settled :
    ∀ entry ∈ (job.journal destination).surface.entries,
      entry.Settled (job.pages destination).length := by
  have blank : Journaled.Dated 0 ⟨job.blank, []⟩ :=
    ⟨rfl, Nat.le_refl _, List.forall_mem_nil _, List.forall_mem_nil _, List.forall_mem_nil _⟩
  let fresh : Pass (Journaled Paper) := { surface := ⟨job.blank, []⟩, text := job.start }
  have dated : fresh.surface.Dated 0 := blank
  rw [pages, Paper.length_pages, ← journal_through]
  exact Pass.beforeWriting_settled destination job.brief dated _

-- Neither the last call nor the last warnings are about a stamp.
theorem failedStamps_journaled :
    (job.journaled destination).surface.failedStamps = (job.journal destination).surface.failedStamps := by
  obtain ⟨entries, -⟩ :=
    Pass.perform_journal (Paper.surface destination) (job.journal destination) .write
  have whole : (job.journaled destination).surface.entries = _ ++ [Entry.warned _] :=
    congrArg (· ++ [Entry.warned _]) entries
  rw [Journaled.failedStamps, whole]
  simp [Surface.entryFor, Entry.failedStamp?, Answer.failedStamp?, Journaled.failedStamps]

theorem journal_messages :
    (job.beforeWriting destination).report.messages =
      (job.journal destination).surface.entries.flatMap Entry.messages := by
  have fresh : Pass.Journals (Paper.surface destination)
      { surface := ⟨job.blank, []⟩, text := job.start } := ⟨rfl, List.forall_mem_nil _⟩
  rw [← journal_through]
  exact ((Pass.keeps_journal (Paper.surface destination)).beforeWriting job.brief fresh _).reported

/-- A stamp that fails is blamed on a page after the one that was stamped, unless that is the last
page of all. -/
theorem blames_later_pages :
    ∀ failed ∈ (job.journaled destination).surface.failedStamps,
      failed.page ≤ failed.current ∧ failed.current ≤ (job.pages destination).length ∧
        (failed.current = failed.page ↔ failed.page = (job.pages destination).length) := by
  intro failed member
  rw [failedStamps_journaled] at member
  obtain ⟨entry, inside, found⟩ := List.mem_filterMap.mp member
  have settled := job.journal_settled destination entry inside
  rcases entry with ⟨call, result, current⟩ | warnings
  · cases call <;> cases result <;> cases found
    obtain ⟨-, within, stamped⟩ := settled
    obtain ⟨later, last⟩ := stamped _ rfl
    exact ⟨later, within, last⟩
  · cases found

variable {job} {destination}

/-- A page that is named before the pages are written is one of them. -/
theorem names_pages_before_writing {message : String}
    (reported : message ∈ (job.beforeWriting destination).report.messages) {page : Nat}
    (named : Names message page) : 1 ≤ page ∧ page ≤ (job.pages destination).length := by
  rw [journal_messages] at reported
  obtain ⟨entry, inside, told⟩ := List.mem_flatMap.mp reported
  have settled := job.journal_settled destination entry inside
  rcases entry with ⟨call, _ | fault, current⟩ | warnings
  · obtain rfl := List.mem_singleton.mp told
    rw [names_failureMessage.mp named]
    exact ⟨settled.1, settled.2.1⟩
  · cases told
  · exact absurd named (settled message told page)

/-- Every page that the report of a job names is a page of the job, unless the destination refuses
the document: that is reported last, with a page zero. -/
theorem names_existing_pages_unless_refused (job : Job) (destination : Destination)
    (valid : job.config.fault? = none) :
    ∃ pass earlier, job.run destination = .ok pass ∧
      pass.report.messages = earlier ++ refusal (destination (job.document destination)) ∧
      (∀ message ∈ earlier, ∀ page, Names message page →
        1 ≤ page ∧ page ≤ (job.pages destination).length) ∧
      ((∀ message ∈ pass.report.messages, ∀ page, Names message page →
          1 ≤ page ∧ page ≤ (job.pages destination).length) ↔
        destination (job.document destination) = .ok ()) := by
  obtain ⟨opened, -⟩ := job.beforeWriting_glyphs destination valid
  have messages := draw_messages opened
  refine ⟨job.draw destination, _, run_of_valid valid, messages,
    fun message member page named => names_pages_before_writing member named, ?_⟩
  rw [messages]
  rcases destination (job.document destination) with reason | _
  · constructor
    · intro each
      have zero : Names (failureMessage .write 0 (.io reason)) 0 := ⟨.write, .io reason, rfl⟩
      have there := each _ (List.mem_append_right _ (List.mem_singleton.mpr rfl)) 0 zero
      exact absurd there.1 (by decide)
    · nofun
  · refine ⟨fun _ => rfl, fun _ message member page named => ?_⟩
    rw [refusal, List.append_nil] at member
    exact names_pages_before_writing member named

theorem torn_front_names_existing_pages :
    tornFront.config.fault? = none ∧ (tornFront.pages accepting).length = 3 ∧
      ∃ pass, tornFront.run accepting = .ok pass ∧
        pass.report.messages =
          ["Failed to stamp template on page 3: Template error: PDF error: object ID 5 0 not found"] ∧
        ∀ message ∈ pass.report.messages, ∀ page, Names message page → 1 ≤ page ∧ page ≤ 3 := by
  have valid : tornFront.config.fault? = none := by decide
  have length : (tornFront.pages accepting).length = 3 := by decide +kernel
  obtain ⟨pass, -, done, -, -, existing⟩ :=
    tornFront.names_existing_pages_unless_refused accepting valid
  have drawn : tornFront.draw accepting = pass := Except.ok.inj ((run_of_valid valid).symm.trans done)
  refine ⟨valid, length, pass, done, ?_, length ▸ existing.mpr rfl⟩
  rw [← drawn]
  decide +kernel

def oneLetter : Job := { text := ['a'], destination := "letter.pdf" }

def refusing : Destination := fun _ => .error "disk full"

theorem refused_letter_names_page_zero :
    oneLetter.config.fault? = none ∧ (oneLetter.pages refusing).length = 1 ∧
      (oneLetter.draw refusing).report.messages =
        ["Failed to write document on page 0: I/O error: disk full"] ∧
      Names "Failed to write document on page 0: I/O error: disk full" 0 :=
  ⟨by decide, by decide +kernel, by decide +kernel, .write, .io "disk full", by decide +kernel⟩

end Job

end Letterhead
