import Letterhead.Proofs.Rendering.Conservation
import Letterhead.Proofs.Rendering.Minutes
import Letterhead.Proofs.Template.Forms

/-!
The page that a message about a failed call names, on any surface at all: it is the one that is
current when the call is over. A page that is stamped after the surface has gone on is another one.
-/

namespace Letterhead

open Markup (Token)
open Pdf (Dictionary)

variable {σ : Type}

/-! ### Pages in messages -/

-- The digits end at the colon, so they can be read back.
theorem digits_before_colon {left right : Nat} {rest more : List Char}
    (same : Nat.toDigits 10 left ++ ':' :: rest = Nat.toDigits 10 right ++ ':' :: more) :
    left = right := by
  have read (n : Nat) (tail : List Char) :
      (Nat.toDigits 10 n ++ ':' :: tail).takeWhile Char.isDigit = Nat.toDigits 10 n := by
    rw [List.takeWhile_append_of_pos fun c member =>
      Nat.isDigit_of_mem_toDigits (by decide) (by decide) member]
    exact List.append_nil _
  have digits : Nat.toDigits 10 left = Nat.toDigits 10 right := by rw [← read left rest, same, read]
  rw [← @Nat.ofDigitChars_ten_toDigits left, digits, Nat.ofDigitChars_ten_toDigits]

theorem toList_failureMessage (call : Call) (page : Nat) (fault : DrawFault) :
    (failureMessage call page fault).toList =
      "Failed to ".toList ++ (call.purpose.toList ++
        (" on page ".toList ++ (Nat.toDigits 10 page ++ ':' :: ' ' :: fault.message.toList))) := by
  unfold failureMessage
  simp

-- No purpose is the beginning of another one.
theorem Call.eq_after_purpose {call other : Call} {rest more : List Char}
    (same : call.purpose.toList ++ (" on page ".toList ++ rest) =
      other.purpose.toList ++ (" on page ".toList ++ more)) : rest = more := by
  cases call <;> cases other <;> simp [purpose] at same <;> exact same

theorem failureMessage_page {call other : Call} {page number : Nat} {fault reason : DrawFault}
    (same : failureMessage call page fault = failureMessage other number reason) : page = number := by
  have letters := congrArg String.toList same
  rw [toList_failureMessage, toList_failureMessage, List.append_cancel_left_eq] at letters
  exact digits_before_colon (Call.eq_after_purpose letters)

/-! ### Stamps that fail -/

structure FailedStamp where
  page : Nat
  templatePage : Nat
  fault : DrawFault
  /-- The page that was current after the call. -/
  current : Nat

namespace FailedStamp

def blaming (failed : FailedStamp) (page : Nat) : String :=
  "Failed to stamp template on page " ++ toString page ++ ": " ++ failed.fault.message

theorem blaming_eq (failed : FailedStamp) (page : Nat) :
    failed.blaming page = failureMessage (.stamp failed.page failed.templatePage) page failed.fault := by
  have front : "Failed to stamp template on page " = "Failed to " ++ "stamp template" ++ " on page " := by
    decide +kernel
  exact congrArg (· ++ toString page ++ ": " ++ failed.fault.message) front

theorem blaming_eq_iff (failed : FailedStamp) (page other : Nat) :
    failed.blaming page = failed.blaming other ↔ page = other := by
  constructor
  · intro same
    rw [blaming_eq, blaming_eq] at same
    exact failureMessage_page same
  · intro same
    rw [same]

/-- Some stamp on the surface fails in this way. -/
def Occurs (failed : FailedStamp) (surface : Surface σ) : Prop :=
  ∃ before after, surface.answer (.stamp failed.page failed.templatePage) before =
    (.error failed.fault, after) ∧ surface.currentPage after = failed.current

end FailedStamp

def Answer.failedStamp? : Answer → Option FailedStamp
  | ⟨.stamp page templatePage, .error fault, current⟩ => some ⟨page, templatePage, fault, current⟩
  | _ => none

/-! ### Journals -/

/-- What a pass hears from a surface: how it answered a call, or which warnings it handed out. -/
inductive Entry where
  | answered (answer : Answer)
  | warned (warnings : List String)

namespace Entry

def messages : Entry → List String
  | .answered answer => answer.failure?.toList
  | .warned warnings => warnings

def failedStamp? : Entry → Option FailedStamp
  | .answered answer => answer.failedStamp?
  | .warned _ => none

theorem messages_of_failedStamp? {entry : Entry} {failed : FailedStamp}
    (found : entry.failedStamp? = some failed) : entry.messages = [failed.blaming failed.current] := by
  rcases entry with ⟨call, result, current⟩ | warnings
  · cases call <;> cases result <;> cases found
    rw [FailedStamp.blaming_eq]
    rfl
  · cases found

end Entry

structure Journaled (σ : Type) where
  surface : σ
  /-- The earliest first. -/
  entries : List Entry := []

def Journaled.failedStamps (state : Journaled σ) : List FailedStamp :=
  state.entries.filterMap Entry.failedStamp?

namespace Surface

variable (surface : Surface σ)

-- The answer to a call, with the page that is current then.
def entryFor (call : Call) (state : σ) : Entry :=
  .answered ⟨call, (surface.answer call state).1, surface.currentPage (surface.answer call state).2⟩

/-- Answers as the surface does and keeps a journal. -/
def journaling : Surface (Journaled σ) where
  answer call state :=
    let (result, after) := surface.answer call state.surface
    (result, ⟨after, state.entries ++ [surface.entryFor call state.surface]⟩)
  currentPage state := surface.currentPage state.surface
  drainBreaks state :=
    let (breaks, after) := surface.drainBreaks state.surface
    (breaks, { state with surface := after })
  drainWarnings state :=
    let (warnings, after) := surface.drainWarnings state.surface
    (warnings, ⟨after, state.entries ++ [.warned warnings]⟩)

theorem journaling_views : surface.journaling.Views surface Journaled.surface :=
  ⟨fun _ _ => rfl, fun _ => rfl, fun _ => rfl, fun _ => rfl⟩

theorem entryFor_occurs {call : Call} {state : σ} {failed : FailedStamp}
    (found : (surface.entryFor call state).failedStamp? = some failed) : failed.Occurs surface := by
  rw [entryFor] at found
  rcases answered : surface.answer call state with ⟨fault | _, after⟩ <;> rw [answered] at found <;>
    cases call <;> cases found
  exact ⟨state, after, answered, rfl⟩

end Surface

namespace Pass

variable (surface : Surface σ) (brief : Brief)

-- The report is what the journal says, and the journal says what has happened on the surface.
structure Journals (pass : Pass (Journaled σ)) : Prop where
  reported : pass.report.messages = pass.surface.entries.flatMap Entry.messages
  occurred : ∀ entry ∈ pass.surface.entries, ∀ failed ∈ entry.failedStamp?, failed.Occurs surface

theorem perform_journal (pass : Pass (Journaled σ)) (call : Call) :
    (pass.perform surface.journaling call).surface.entries =
        pass.surface.entries ++ [surface.entryFor call pass.surface.surface] ∧
      (pass.perform surface.journaling call).report.messages =
        pass.report.messages ++ (surface.entryFor call pass.surface.surface).messages := by
  rw [perform_eq]
  refine ⟨rfl, ?_⟩
  rcases answered : surface.answer call pass.surface.surface with ⟨fault | _, after⟩ <;>
    simp [Surface.journaling, Surface.entryFor, answered, Entry.messages, Answer.failure?, Report.add]

theorem keeps_journal : Pass.Keeps surface.journaling (Journals surface) where
  perform call pass before := by
    obtain ⟨entries, messages⟩ := perform_journal surface pass call
    constructor
    · rw [messages, entries, before.reported]
      simp
    · rw [entries]
      exact List.forall_mem_append.mpr ⟨before.occurred,
        List.forall_mem_singleton.mpr fun _ found => surface.entryFor_occurs found⟩
  drainBreaks before := ⟨before.reported, before.occurred⟩
  collectWarnings {pass} before := by
    constructor
    · simp [collectWarnings, Surface.journaling, Report.addAll, before.reported, Entry.messages]
    · exact List.forall_mem_append.mpr ⟨before.occurred,
        List.forall_mem_singleton.mpr fun _ none => by cases none⟩
  aside _ _ _ before := ⟨before.reported, before.occurred⟩

/-- On any surface, whatever it answers and whenever its pages end: each stamp that fails adds one
message to the report, and the page that is blamed is the one that is current when the call is over.
That is the page that was stamped exactly if it is still, or again, the current one. Keeping a
journal does not change the run. -/
theorem blames_stamps_on_current_page (surface : Surface σ) (brief : Brief) (state : σ)
    (text : TextState) (tokens : List Token) :
    let last := Pass.run surface.journaling brief { surface := ⟨state, []⟩, text } tokens
    last.through Journaled.surface = Pass.run surface brief { surface := state, text } tokens ∧
      last.report.messages = last.surface.entries.flatMap Entry.messages ∧
      ∀ entry ∈ last.surface.entries, ∀ failed ∈ entry.failedStamp?,
        failed.Occurs surface ∧ entry.messages = [failed.blaming failed.current] ∧
          (entry.messages = [failed.blaming failed.page] ↔ failed.current = failed.page) := by
  intro last
  have fresh : Journals surface { surface := ⟨state, []⟩, text } := ⟨rfl, List.forall_mem_nil _⟩
  obtain ⟨reported, occurred⟩ := (keeps_journal surface).run brief fresh tokens
  refine ⟨run_through brief surface.journaling_views _ tokens, reported, ?_⟩
  intro entry member failed found
  have message := Entry.messages_of_failedStamp? found
  refine ⟨occurred entry member failed found, message, ?_⟩
  rw [message, List.singleton_inj]
  exact failed.blaming_eq_iff failed.current failed.page

-- The first page ends while something is drawn; neither of the two can be stamped.
def unstampable : List Rule :=
  [{ event := "a".toList, newPages := 1, warnings := ["clipped"] },
    { event := "stamp:1".toList, fault := some (.fault .noTemplate) },
    { event := "stamp:2".toList, fault := some .noCurrentPage }]

theorem unstampable_pages_are_blamed :
    let last := Pass.run Script.surface.journaling ⟨5, 1⟩
      { surface := ⟨{ rules := unstampable }, []⟩, text := .ofSizes 9 6 } [.content ['a']]
    last.report.messages =
        ["Failed to stamp template on page 2: No template document is loaded", "clipped",
          "Failed to stamp template on page 2: Page 2 does not exist"] ∧
      last.surface.failedStamps.map (fun failed => (failed.page, failed.current)) = [(1, 2), (2, 2)] ∧
      ∀ failed ∈ last.surface.failedStamps, failed.Occurs Script.surface := by
  obtain ⟨-, reported, blamed⟩ := blames_stamps_on_current_page Script.surface ⟨5, 1⟩
    { rules := unstampable } (.ofSizes 9 6) [.content ['a']]
  refine ⟨?_, by decide +kernel, fun failed member => ?_⟩
  · rw [reported]
    decide +kernel
  · obtain ⟨entry, inside, found⟩ := List.mem_filterMap.mp member
    exact (blamed entry inside failed found).1

end Pass

/-! ### Jobs -/

namespace Job

/-- The whole pass with a journal. -/
def journaled (job : Job) (destination : Destination) : Pass (Journaled Paper) :=
  Pass.run (Paper.surface destination).journaling job.brief
    { surface := ⟨job.blank, []⟩, text := job.start } (Markup.tokenize job.text)

/-- Three pages over a template with two, the first of which lacks what it draws with. -/
def tornFront : Job :=
  { text := "a\nb\nc\nd\ne".toList, destination := "lines.pdf", config := { page := ⟨210, 40⟩ },
    template := some <| .twoPages [(⟨4, 0⟩, .dictionary <| Dictionary.ofList
      [("Type", .ofName "Page"), ("Parent", .reference ⟨2, 0⟩)])] }

-- The first page is stamped when all three are drawn, and the third is blamed for it.
theorem torn_front_is_blamed_on_last_page :
    tornFront.config.fault? = none ∧
      (tornFront.journaled accepting).surface.failedStamps.map
        (fun failed => (failed.page, failed.blaming failed.current)) =
        [(1, "Failed to stamp template on page 3: Template error: PDF error: object ID 5 0 not found")] ∧
      (tornFront.draw accepting).report.messages =
        ["Failed to stamp template on page 3: Template error: PDF error: object ID 5 0 not found"] := by
  exact ⟨by decide, by decide +kernel, by decide +kernel⟩

end Job

end Letterhead
