import Letterhead.Proofs.Surface.History
import Letterhead.Proofs.Template.Reach

/-!
Calls that fail. Each is refused for one of seven reasons, and nothing that can be seen of the surface
is different afterwards: an import that breaks off leaves its copies in the document, but neither a form
in the table nor a name behind a page. After the last call, every call is refused.
-/

namespace Letterhead

namespace Paper

/-- Why a call is refused, unless it is the last one, and what is left. -/
inductive Refused (paper : Paper) : Call → DrawFault → Paper → Prop
  | closed {call : Call} (shut : paper.closed = true) : Refused paper call .closed paper
  | size {size : Float32} (opened : paper.closed = false) (unfit : ¬ (size.isFinite ∧ 0 < size)) :
      Refused paper (.selectSize size) (.invalidFontSize size) paper
  | cell {content : List Char} {layout : CellLayout} (opened : paper.closed = false)
      (negative : layout.height < 0 ∨ layout.width < 0) :
      Refused paper (.boxText content layout) (.invalidCellSize layout.width layout.height) paper
  | noTemplate {page templatePage : Nat} (opened : paper.closed = false) (bare : paper.template = none) :
      Refused paper (.stamp page templatePage) .noTemplate paper
  | noPage {template : Template} {page templatePage : Nat} (opened : paper.closed = false)
      (given : paper.template = some template) (outside : page = 0 ∨ paper.currentPage < page) :
      Refused paper (.stamp page templatePage) (.pageOutOfRange page) paper
  | noNumber {template : Template} {page templatePage : Nat} (opened : paper.closed = false)
      (given : paper.template = some template) (inside : ¬ (page = 0 ∨ paper.currentPage < page))
      (new : (paper.forms.lookup templatePage).isSome = false) (long : templatePageLimit ≤ templatePage) :
      Refused paper (.stamp page templatePage)
        (.template ("Template page " ++ toString templatePage ++ " is out of range")) paper
  | broken {template : Template} {page templatePage : Nat} {fault : ImportFault} {imports : Import}
      (opened : paper.closed = false) (given : paper.template = some template)
      (inside : ¬ (page = 0 ∨ paper.currentPage < page))
      (new : (paper.forms.lookup templatePage).isSome = false) (short : ¬ templatePageLimit ≤ templatePage)
      (failed : template.importForm templatePage paper.imports = (.error fault, imports)) :
      Refused paper (.stamp page templatePage) (.template fault.message) { paper with imports }

variable {paper after : Paper} {call : Call} {fault : DrawFault}

theorem Refused.keeps (refused : paper.Refused call fault after) :
    after = { paper with imports := after.imports } := by
  cases refused <;> rfl

theorem refused_of_stamp {page templatePage : Nat} (opened : paper.closed = false)
    (failed : paper.stamp page templatePage = (.error fault, after)) :
    paper.Refused (.stamp page templatePage) fault after := by
  rw [stamp] at failed
  rcases given : paper.template with _ | template <;> simp only [given] at failed
  · cases failed
    exact .noTemplate opened given
  · by_cases outside : page = 0 ∨ paper.currentPage < page
    · rw [if_pos outside] at failed
      cases failed
      exact .noPage opened given outside
    · rw [if_neg outside, requireForm] at failed
      by_cases known : (paper.forms.lookup templatePage).isSome = true
      · simp [known] at failed
      · by_cases long : templatePageLimit ≤ templatePage
        · simp only [if_neg known, if_pos long] at failed
          cases failed
          exact .noNumber opened given outside (Bool.not_eq_true _ ▸ known) long
        · simp only [if_neg known, if_neg long] at failed
          rcases outcome : template.importForm templatePage paper.imports with ⟨broken | form, imports⟩ <;>
            simp only [outcome] at failed <;> cases failed
          exact .broken opened given outside (Bool.not_eq_true _ ▸ known) long outcome

theorem refused_of_answer {destination : Destination} (early : call ≠ .write)
    (failed : (surface destination).answer call paper = (.error fault, after)) :
    paper.Refused call fault after := by
  simp only [surface, answer] at failed
  split at failed
  · rename_i shut
    cases failed
    exact .closed shut
  · rename_i opened
    rw [Bool.not_eq_true] at opened
    cases call with
    | selectStyle | flowText => cases failed
    | selectSize size =>
      simp only at failed
      split at failed
      · cases failed
      · rename_i unfit
        cases failed
        exact .size opened unfit
    | boxText content layout =>
      simp only at failed
      split at failed
      · rename_i negative
        cases failed
        exact .cell opened negative
      · cases failed
    | stamp page templatePage => exact refused_of_stamp opened failed
    | write => exact absurd rfl early

theorem Refused.answer_eq (destination : Destination) (refused : paper.Refused call fault after) :
    (surface destination).answer call paper = (.error fault, after) := by
  cases refused with
  | closed shut => simp [surface, answer, shut]
  | size opened unfit => simp only [surface, answer, opened, Bool.false_eq_true, if_false, if_neg unfit]
  | cell opened negative =>
    simp only [surface, answer, opened, Bool.false_eq_true, if_false, if_pos negative]
  | noTemplate opened bare => simp [surface, answer, opened, stamp, bare]
  | noPage opened given outside =>
    simp only [surface, answer, opened, Bool.false_eq_true, if_false, stamp, given, if_pos outside]
  | noNumber opened given inside new long =>
    simp only [surface, answer, opened, Bool.false_eq_true, if_false, stamp, given, if_neg inside,
      requireForm, new, if_pos long]
  | broken opened given inside new short failed =>
    simp only [surface, answer, opened, Bool.false_eq_true, if_false, stamp, given, if_neg inside,
      requireForm, new, if_neg short, failed]

/-! ### After the last call -/

theorem closed_use (destination : Destination) (shut : paper.closed = true) (use : Use) :
    ((surface destination).use paper use).closed = true := by
  cases use with
  | call call =>
    have refused := (Refused.closed shut : paper.Refused call .closed paper).answer_eq destination
    rw [Surface.use, refused]
    exact shut
  | drainBreaks | drainWarnings => exact shut

theorem closed_after (destination : Destination) (shut : paper.closed = true) (uses : List Use) :
    ((surface destination).after paper uses).closed = true := by
  induction uses generalizing paper with
  | nil => exact shut
  | cons use rest ih => exact ih (closed_use destination shut use)

-- Whether or not the destination takes the document.
theorem closed_write (destination : Destination) (paper : Paper) :
    ((surface destination).use paper (.call .write)).closed = true := by
  rcases shut : paper.closed with _ | _
  · simp only [Surface.use, surface, answer, shut, Bool.false_eq_true, if_false, publish]
    rcases destination paper.assemble <;> rfl
  · exact closed_use destination shut _

theorem closed_after_write (destination : Destination) (paper : Paper) {uses : List Use}
    (written : .call .write ∈ uses) : ((surface destination).after paper uses).closed = true := by
  obtain ⟨first, rest, rfl⟩ := List.append_of_mem written
  rw [Surface.after_append]
  exact closed_after destination (closed_write destination _) rest

/-- A call before the last one fails exactly when it is refused for one of the reasons, and then only
what has been copied into the document can be different: pages and what is on and behind them, cursor,
size, variant, pending breaks and warnings and the table of forms are as they were. Once the last call
has been made, whether it succeeded or not, every call is refused, the last one too, and changes
nothing. -/
theorem failures_leave_no_trace (destination : Destination) (paper : Paper) :
    (∀ call fault after, call ≠ .write →
      ((surface destination).answer call paper = (.error fault, after) ↔ paper.Refused call fault after) ∧
      (paper.Refused call fault after → after = { paper with imports := after.imports })) ∧
    ∀ uses, .call .write ∈ uses → ∀ (other : Destination) (call : Call),
      let left := (surface destination).after paper uses
      (surface other).answer call left = (.error .closed, left) := by
  constructor
  · intro call fault after early
    exact ⟨⟨refused_of_answer early, Refused.answer_eq destination⟩, Refused.keeps⟩
  · intro uses written other call
    exact (Refused.closed (closed_after_write destination paper written)).answer_eq other

-- The import of the first page breaks off when a number has been taken for a copy already.
theorem torn_stamp_leaves_no_trace :
    let paper := new {} (some Template.lacking)
    let onto := surface fun _ => .error "disk full"
    let torn := onto.answer (.stamp 1 1) paper
    torn.1.isOk = false ∧ torn.2.imports.copies.size = 1 ∧
    torn.2 = { paper with imports := torn.2.imports } ∧
    ∀ call, let left := onto.after paper [.call (.stamp 1 1), .call .write]
      onto.answer call left = (.error .closed, left) := by
  intro paper onto torn
  obtain ⟨refusals, ends⟩ := failures_leave_no_trace (fun _ => .error "disk full") paper
  have fails : torn.1.isOk = false := by decide +kernel
  have keeps : torn.2 = { paper with imports := torn.2.imports } := by
    rcases outcome : torn with ⟨fault | _, after⟩
    · obtain ⟨refused, kept⟩ := refusals (.stamp 1 1) fault after nofun
      exact kept (refused.mp outcome)
    · rw [outcome] at fails
      cases fails
  exact ⟨fails, by decide +kernel, keeps, ends _ (by simp) _⟩

end Paper

end Letterhead
