import Letterhead.Proofs.Surface.History

/-!
Pages that are final. Marks are put on the last page and on no other, so what is drawn on a page
stays as it is once the next page has begun; only what lies behind it can still be exchanged. Every
page that ends is handed out once, and in order.
-/

namespace Letterhead

open Pdf (Bytes Operation)

/-- What was drawn on the page: its content without the operations that put something behind it. -/
def Page.drawing (page : Page) : List Operation := page.marks.flatMap Mark.operations

/-- The second list of pages comes from the first by additions to the page that is last at that
moment and by beginning new pages. -/
inductive Continues {α : Type} (before : List (List α)) : List (List α) → Prop
  | same : Continues before before
  | add {front : List (List α)} {last : List α} (more : List α)
      (continues : Continues before (front ++ [last])) : Continues before (front ++ [last ++ more])
  | begin {after : List (List α)} (continues : Continues before after) :
      Continues before (after ++ [[]])

namespace Continues

variable {α : Type} {before after : List (List α)}

theorem length_le (continues : Continues before after) : before.length ≤ after.length := by
  induction continues with
  | same => exact Nat.le_refl _
  | add more _ ih => simpa using ih
  | «begin» _ ih => exact Nat.le_trans ih (by simp)

-- Only the last page can change.
theorem getElem?_eq (continues : Continues before after) {index : Nat}
    (ended : index + 1 < before.length) : after[index]? = before[index]? := by
  induction continues with
  | same => rfl
  | @add front last more continues ih =>
    have short := continues.length_le
    rw [List.length_append, List.length_singleton] at short
    have inside : index < front.length := by omega
    rw [← ih, List.getElem?_append_left inside, List.getElem?_append_left inside]
  | «begin» continues ih =>
    have short := continues.length_le
    rw [← ih, List.getElem?_append_left (by omega)]

end Continues

namespace Paper

def drawings (paper : Paper) : List (List Operation) := paper.sheets.map Page.drawing

variable {start paper after : Paper}

theorem drawings_bare (paper : Paper) : paper.bare.drawings = paper.drawings := by
  have same : ∀ page : Page, page.bare.drawing = page.drawing := fun _ => rfl
  simp [drawings, sheets, bare, Function.comp_def, same]

/-! ### Drawing -/

theorem continues_draw (continues : Continues start.drawings paper.drawings) (mark : Mark) :
    Continues start.drawings (paper.draw mark).drawings := by
  have last : (paper.draw mark).drawings =
      paper.finished.map Page.drawing ++ [paper.current.drawing ++ mark.operations] := by
    simp [drawings, sheets, draw, Page.drawing]
  have split : paper.drawings = paper.finished.map Page.drawing ++ [paper.current.drawing] := by
    simp [drawings, sheets]
  rw [split] at continues
  rw [last]
  exact .add mark.operations continues

theorem drawings_warnIfReplaced (paper : Paper) (text : List Char) :
    (paper.warnIfReplaced text).drawings = paper.drawings := by
  rw [warnIfReplaced]
  split <;> rfl

theorem continues_place (continues : Continues start.drawings paper.drawings) (x height : Float32)
    (text : List Char) : Continues start.drawings (paper.place x height text).drawings := by
  rw [← drawings_warnIfReplaced paper text] at continues
  simp only [place]
  split
  · rwa [drawings_warnIfReplaced] at continues
  · split
    · exact continues_draw (continues_draw continues _) _
    · exact continues_draw continues _

theorem Draws.continues {texts : List (List Char)} (draws : Draws paper texts after) :
    Continues paper.drawings after.drawings := by
  induction draws with
  | stay => exact .same
  | place x height _ _ ih => exact continues_place ih x height _
  | rule _ _ ih => exact continues_draw ih _
  | @turn _ after _ ih =>
    have begun : after.turnPage.drawings = after.drawings ++ [[]] := by
      simp [drawings, sheets, turnPage, Page.drawing, Page.marks]
    rw [begun]
    exact .begin ih
  | move _ _ _ ih => exact ih

/-! ### One use -/

theorem stamp_drawings (paper : Paper) (page templatePage : Nat) :
    (paper.stamp page templatePage).2.drawings = paper.drawings := by
  rw [← drawings_bare, stamp_bare, drawings_bare]

theorem Used.continues {use : Use} (used : paper.Used use after) :
    Continues paper.drawings after.drawings := by
  cases used with
  | drawn _ draws => exact draws.continues
  | set | handedOut => exact .same
  | stamped page templatePage =>
    rw [stamp_drawings]
    exact .same

theorem Used.drawings_eq {use : Use} (used : paper.Used use after) (plain : use.draws = false) :
    after.drawings = paper.drawings := by
  cases used with
  | drawn drawing => simp [plain] at drawing
  | set | handedOut => rfl
  | stamped page templatePage => exact stamp_drawings paper page templatePage

-- Only a stamp on the page itself exchanges what lies behind it.
theorem Used.backdrop {use : Use} (used : paper.Used use after) {index : Nat}
    (inside : index < paper.backdrops.length) :
    after.backdrops[index]? = paper.backdrops[index]? ∨
      ∃ templatePage, use = .call (.stamp (index + 1) templatePage) ∧
        after.backdrops[index]? = some (some (formKey templatePage)) := by
  cases used with
  | drawn _ draws =>
    obtain ⟨count, -, -, behind⟩ := draws.turns
    rw [behind, List.getElem?_append_left inside]
    exact .inl rfl
  | set | handedOut => exact .inl rfl
  | stamped page templatePage =>
    rcases (paper.stamp_stamped page templatePage).backdrops with same | ⟨positive, behind⟩
    · exact .inl (congrArg (·[index]?) same)
    · rw [behind, List.getElem?_set]
      split
      · rename_i here
        obtain rfl : page = index + 1 := by omega
        exact .inr ⟨templatePage, rfl, by rw [if_pos (here ▸ inside)]⟩
      · exact .inl rfl

-- The pages that end are the ones that are newly reported, now or later.
theorem Used.turns (destination : Destination) {use : Use} (used : paper.Used use after) :
    ∃ count, after.finished.length = paper.finished.length + count ∧
      (surface destination).handsOut paper use ++ after.breaks =
        paper.breaks ++ List.range' (paper.finished.length + 1) count := by
  cases used with
  | drawn drawing draws =>
    obtain ⟨count, ended, reported, -⟩ := draws.turns
    have nothing : (surface destination).handsOut paper use = [] := by
      cases use <;> first | rfl | simp [Use.draws] at drawing
    exact ⟨count, ended, by rw [nothing, reported, List.nil_append]⟩
  | set _ _ _ _ keeps =>
    have nothing : (surface destination).handsOut paper use = [] := by
      cases use <;> first | rfl | exact absurd rfl keeps
    exact ⟨0, rfl, by simp [nothing]⟩
  | handedOut => exact ⟨0, rfl, by simp [Surface.handsOut, surface, drainBreaks]⟩
  | stamped page templatePage =>
    have bare := paper.stamp_bare page templatePage
    refine ⟨0, ?_, ?_⟩
    · simpa [Paper.bare] using congrArg (fun paper => paper.finished.length) bare
    · have kept : (paper.stamp page templatePage).2.breaks = paper.breaks :=
        congrArg (fun paper => paper.breaks) bare
      simp [Surface.handsOut, kept]

/-! ### Many uses -/

variable (settings : PaperSettings) (template : Option Template) (destination : Destination)

theorem handedOut_breaks (uses : List Use) (early : .call .write ∉ uses) :
    let paper := (surface destination).after (new settings template) uses
    paper.closed = false ∧
      (surface destination).handedOut (new settings template) uses ++ paper.breaks =
        List.range' 1 paper.finished.length := by
  intro paper
  refine And.imp Same.closed id <|
    after_induction (new settings template) destination rfl (fun uses paper =>
      (surface destination).handedOut (new settings template) uses ++ paper.breaks =
        List.range' 1 paper.finished.length) rfl ?_ uses early
  intro uses use before after reached _ _ used reported
  obtain ⟨count, ended, handed⟩ := used.turns destination
  rw [Surface.handedOut, Surface.seen_concat, reached, List.append_assoc, handed,
    ← List.append_assoc, ← Surface.handedOut, reported, ended, Nat.add_comm _ 1, List.range'_append_1]

theorem after_continues (opened : paper.closed = false) (uses : List Use)
    (early : .call .write ∉ uses) {index : Nat} (ended : index < paper.finished.length) :
    ((surface destination).after paper uses).drawings[index]? = paper.drawings[index]? := by
  refine (after_induction paper destination opened (fun _ after =>
    paper.drawings.length ≤ after.drawings.length ∧
      after.drawings[index]? = paper.drawings[index]?) ⟨Nat.le_refl _, rfl⟩ ?_ uses early).2.2
  rintro uses use before after - - - used ⟨longer, kept⟩
  have continues := used.continues
  have inside : index + 1 < before.drawings.length := by
    refine Nat.lt_of_lt_of_le ?_ longer
    simpa [drawings, sheets] using ended
  exact ⟨Nat.le_trans longer continues.length_le, (continues.getElem?_eq inside).trans kept⟩

/-- As long as the pages are not written: what has been handed out and what is still to be handed
out are the pages before the current one, each once and in order; no use goes back to an earlier
page; marks are added to the page that is last at that moment, and only a stamp on a page exchanges
what lies behind it; and whatever is done later, what is drawn on the pages before stays. -/
theorem pages_are_final (settings : PaperSettings) (template : Option Template)
    (destination : Destination) (uses : List Use) (early : .call .write ∉ uses) :
    let onto := surface destination
    let paper := onto.after (new settings template) uses
    onto.handedOut (new settings template) uses ++ (onto.drainBreaks paper).1 =
      List.range' 1 (onto.currentPage paper - 1) ∧
    1 ≤ onto.currentPage paper ∧ paper.pages.length = onto.currentPage paper ∧
    (∀ use, use ≠ .call .write →
      let after := onto.use paper use
      onto.currentPage paper ≤ onto.currentPage after ∧
      Continues (paper.pages.map Page.drawing) (after.pages.map Page.drawing) ∧
      (use.draws = false → after.pages.map Page.drawing = paper.pages.map Page.drawing) ∧
      ∀ index, index < onto.currentPage paper →
        after.pages[index]?.map Page.backdrop = paper.pages[index]?.map Page.backdrop ∨
        ∃ templatePage, use = .call (.stamp (index + 1) templatePage) ∧
          after.pages[index]?.map Page.backdrop = some (some (formKey templatePage))) ∧
    ∀ later, .call .write ∉ later → ∀ index, index + 1 < onto.currentPage paper →
      (onto.after paper later).pages[index]?.map Page.drawing =
        paper.pages[index]?.map Page.drawing := by
  intro onto paper
  obtain ⟨opened, reported⟩ := handedOut_breaks settings template destination uses early
  have current (paper : Paper) (opened : paper.closed = false) :
      onto.currentPage paper = paper.finished.length + 1 := by
    simp [onto, surface, currentPage, opened]
  have sheets_length (paper : Paper) : paper.sheets.length = paper.finished.length + 1 := by
    simp [sheets]
  rw [current paper opened, pages_eq_sheets opened]
  refine ⟨reported, Nat.succ_pos _, sheets_length paper, ?_, ?_⟩
  · intro use notWritten after
    have used := use_used destination opened notWritten
    have stillOpen : after.closed = false := used.same.closed.trans opened
    rw [current after stillOpen, pages_eq_sheets stillOpen]
    refine ⟨?_, used.continues, used.drawings_eq, ?_⟩
    · have longer := used.continues.length_le
      simpa [drawings, sheets_length] using longer
    · intro index inside
      have within : index < paper.backdrops.length := by
        simpa [backdrops, sheets_length] using inside
      simpa only [backdrops, List.getElem?_map] using used.backdrop within
  · intro later notWritten index ended
    have same := (after_induction paper destination opened (fun _ _ => True) trivial
      (fun _ _ _ _ _ _ _ _ _ => trivial) later notWritten).1
    have kept := after_continues destination opened later notWritten (Nat.lt_of_succ_lt_succ ended)
    rw [pages_eq_sheets (same.closed.trans opened)]
    simpa only [drawings, List.getElem?_map] using kept

-- Each of the two lines is too high for any page; one stamp is for a page that does not exist.
def tallLines : List Use :=
  [.call (.flowText 300 ['a', '\n', 'b']), .call (.stamp 1 2),
    .drainBreaks, .call (.stamp 7 1), .call (.flowText 300 ['c'])]

theorem tall_lines_are_final :
    .call .write ∉ tallLines ∧
    let onto := surface fun _ => .ok ()
    let paper := onto.after (new {} (some Template.ring)) tallLines
    onto.handedOut (new {} (some Template.ring)) tallLines = [1, 2] ∧
      (onto.drainBreaks paper).1 = [3] ∧
      [1, 2] ++ [3] = List.range' 1 (onto.currentPage paper - 1) ∧
      (onto.use paper (.call (.stamp 1 1))).pages.map Page.drawing = paper.pages.map Page.drawing := by
  have early : Use.call .write ∉ tallLines := by simp [tallLines]
  obtain ⟨reported, -, -, step, -⟩ :=
    pages_are_final {} (some Template.ring) (fun _ => .ok ()) tallLines early
  have handed : (surface fun _ => .ok ()).handedOut (new {} (some Template.ring)) tallLines = [1, 2] := by
    decide +kernel
  have pending : ((surface fun _ => .ok ()).drainBreaks
      ((surface fun _ => .ok ()).after (new {} (some Template.ring)) tallLines)).1 = [3] := by
    decide +kernel
  rw [handed, pending] at reported
  exact ⟨early, handed, pending, reported, (step (.call (.stamp 1 1)) nofun).2.2.1 rfl⟩

end Paper

end Letterhead
