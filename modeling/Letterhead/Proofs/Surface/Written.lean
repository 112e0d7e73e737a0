import Letterhead.Proofs.Surface.Assembly
import Letterhead.Proofs.Surface.Fonts
import Letterhead.Proofs.Surface.FormTable

/-!
The document that is written after any history of a surface. Its pages are reached from the root in
order, all names that their contents use are defined in the resources that they share, the forms
defined there are those of the template pages that were stamped with, and whatever had been put
into the document on the way is still in it.
-/

namespace Letterhead

open Pdf (Object ObjectId Dictionary Document Bytes Operation ascii)

theorem Page.selectFont_mem_content {page : Page} {name : Bytes} {size : Float32}
    (selects : .selectFont name size ∈ page.content) :
    ∃ mark ∈ page.marks, .selectFont name size ∈ mark.operations := by
  rw [content, List.mem_append, List.mem_flatMap] at selects
  rcases selects with behind | drawn
  · rcases given : page.backdrop with _ | form <;> simp [backdropOperations, given] at behind
  · exact drawn

theorem Page.paintForm_mem_content {page : Page} {name : Bytes}
    (paints : .paintForm name ∈ page.content) : page.backdrop = some name := by
  rw [content, List.mem_append] at paints
  rcases paints with behind | drawn
  · rcases given : page.backdrop with _ | form <;> simp [backdropOperations, given] at behind
    rw [behind]
  · exact absurd drawn (page.marks_paint_no_form name)

namespace Paper

theorem resources_eq (paper : Paper) :
    paper.resources = .dictionary (Dictionary.ofList [
      ("Font", .dictionary (fontFaces.map (fontEntry paper.settings.family))),
      ("XObject", .dictionary (formEntries paper.forms))]) :=
  rfl

theorem answer_write {paper : Paper} {destination : Destination} (opened : paper.closed = false)
    (accepts : destination paper.assemble = .ok ()) :
    ((surface destination).answer .write paper).1 = .ok () ∧
      ((surface destination).answer .write paper).2.written = some paper.assemble := by
  simp [surface, answer, opened, publish, accepts]

theorem after_faced (settings : PaperSettings) (template : Option Template)
    (destination : Destination) (uses : List Use) (early : .call .write ∉ uses) :
    ((surface destination).after (new settings template) uses).Bears Mark.Faced := by
  refine (after_induction (new settings template) destination rfl
    (fun _ paper => paper.Bears Mark.Faced) (bears_of_blank rfl) ?_ uses early).2
  intro uses use before after _ _ _ used bears
  exact used.faced bears

/-- Whatever has been done before, the document that is written is well formed: the root leads to a
node with the pages in order, each with its content and all with the same resources; every font and
every form that a page uses is among these; the forms are one for each template page that has been
stamped with, made of it by one of the stamps; and no object was overwritten, neither between the
uses nor during a copy, except the null that a copy puts where it will be. -/
theorem written_is_well_formed (settings : PaperSettings) (template : Option Template)
    (destination : Destination) (accepts : ∀ document, destination document = .ok ())
    (uses : List Use) (early : .call .write ∉ uses) :
    let onto := surface destination
    let start := new settings template
    let paper := onto.after start uses
    let stamped := onto.stampedWith start uses
    (onto.answer .write paper).1 = .ok () ∧
    ∃ (document : Document) (shared tree : ObjectId) (ids : List ObjectId) (fonts forms : Dictionary),
      (onto.answer .write paper).2.written = some document ∧
      paper.Assembled document shared tree ids ∧
      document.get? shared = some (.dictionary (Dictionary.ofList [
        ("Font", .dictionary fonts), ("XObject", .dictionary forms)])) ∧
      (∀ page ∈ paper.pages,
        (∀ name size, .selectFont name size ∈ page.content → fonts.get? name ≠ none) ∧
        ∀ name, .paintForm name ∈ page.content → forms.get? name ≠ none) ∧
      (forms.map Prod.fst).Nodup ∧ (forms.map Prod.snd).Nodup ∧
      (∀ key, key ∈ forms.map Prod.fst ↔ ∃ templatePage ∈ stamped, key = formKey templatePage) ∧
      (∀ templatePage ∈ stamped, ∃ form,
        forms.get? (formKey templatePage) = some (.reference form) ∧
        ImportedBy destination start uses templatePage form ∧
        ∃ given, template = some given ∧ given.HasForm paper.imports templatePage form) ∧
      (∀ first rest, uses = first ++ rest → ∀ id object,
        (onto.after start first).imports.target.get? id = some object →
        document.get? id = some object) ∧
      ∀ (source : Document) (depth : Nat) (id : ObjectId) (before after : Import)
        (object copied : Object), before.copies[id]? = none → source.lookup id = .ok object →
        (Import.rename (Import.copyWithin source depth) object).run (before.reserved id) =
          (.ok copied, after) →
        (Import.copyWithin source (depth + 1) id).run before =
            (.ok before.target.nextId, after.installed before.target.nextId copied) ∧
          after.target.get? before.target.nextId = some .null ∧
          before.target.Extends after.target := by
  intro onto start paper stamped
  have opened (uses : List Use) (early : .call .write ∉ uses) :
      (onto.after start uses).closed = false :=
    (after_induction start destination rfl (fun _ _ => True) trivial (by intros; trivial) uses early).1.closed
  have formed : Formed destination start uses paper := after_formed settings template destination uses early
  obtain ⟨answered, written⟩ := answer_write (opened uses early) (accepts paper.assemble)
  obtain ⟨shared, tree, ids, assembled⟩ := paper.assemble_assembled
  refine ⟨answered, paper.assemble, shared, tree, ids, _, _, written, assembled,
    assembled.resources.trans (congrArg some paper.resources_eq), ?_, formed.entries_nodup.1,
    formed.entries_nodup.2, formed.mem_keys, fun _ => formed.bound, ?_,
    fun source _ _ _ _ _ _ => Import.copyWithin_fills_placeholder source⟩
  · intro page member
    rw [pages_eq_sheets (opened uses early)] at member
    constructor
    · intro name size selects
      obtain ⟨mark, inside, selected⟩ := Page.selectFont_mem_content selects
      obtain ⟨variant, rfl⟩ := after_faced settings template destination uses early page member mark
        inside name size selected
      exact faceKey_mem _ variant
    · intro name paints
      exact formed.named member (Page.paintForm_mem_content paints)
  · rintro first rest rfl id object there
    rw [List.mem_append, not_or] at early
    have begun : start.closed = false := rfl
    have grown := after_grows destination begun first early.1
    have grows := after_grows destination (opened first early.1) rest early.2
    have low : id.number ≤ (onto.after start first).imports.target.lastNumber := by
      apply grown.target.bounded Document.bounded_empty
      rw [there]
      exact Option.some_ne_none object
    rw [← Surface.after_append] at grows
    rw [assembled.keeps id (Nat.le_trans low grows.target.lastNumber_le),
      grows.target.get?_eq id low, there]

-- Three stamps succeed, with two different pages of the template.
def mixedStamps : List Use :=
  [.call (.flowText 300 ['a', '\n', 'b']), .call (.stamp 1 2), .call (.stamp 2 9),
    .call (.stamp 7 1), .call (.selectStyle ⟨true, false, true⟩), .call (.stamp 2 1),
    .call (.flowText 5 ['c']), .call (.stamp 3 2)]

theorem mixed_stamps_are_well_formed :
    .call .write ∉ mixedStamps ∧
    let accept : Destination := fun _ => .ok ()
    let onto := surface accept
    let start := new {} (some Template.ring)
    (∀ document, accept document = .ok ()) ∧ onto.stampedWith start mixedStamps = [2, 1, 2] ∧
    ∃ (document : Document) (shared : ObjectId) (fonts forms : Dictionary),
      (onto.answer .write (onto.after start mixedStamps)).2.written = some document ∧
      document.get? shared = some (.dictionary (Dictionary.ofList [
        ("Font", .dictionary fonts), ("XObject", .dictionary forms)])) ∧
      ∀ key, key ∈ forms.map Prod.fst ↔ key = ascii "Tpl1" ∨ key = ascii "Tpl2" := by
  have early : Use.call .write ∉ mixedStamps := by simp [mixedStamps]
  have stamped : (surface fun _ => .ok ()).stampedWith (new {} (some Template.ring)) mixedStamps =
      [2, 1, 2] := by
    decide +kernel
  obtain ⟨-, document, shared, tree, ids, fonts, forms, written, -, resources, -, -, -, keys, -⟩ :=
    written_is_well_formed {} (some Template.ring) (fun _ => .ok ()) (fun _ => rfl) mixedStamps early
  refine ⟨early, fun _ => rfl, stamped, document, shared, fonts, forms, written, resources, ?_⟩
  intro key
  rw [keys key, stamped]
  have one : formKey 1 = ascii "Tpl1" := by decide
  have two : formKey 2 = ascii "Tpl2" := by decide
  simp only [List.mem_cons, List.not_mem_nil, or_false, exists_eq_or_imp, exists_eq_left, one, two]
  grind

end Paper

end Letterhead
