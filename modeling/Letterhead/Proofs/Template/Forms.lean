import Letterhead.Proofs.Pdf.Lookup
import Letterhead.Proofs.Template.Completion
import Mathlib.Data.List.Forall2

/-!
Forms made of template pages. An importer that has never failed is a renaming of the template: its
table gives every object that it reached a number of its own, new to the target, and under that
number the target has the object with all references renamed. The forms have the resources of
their pages under the same renaming.
-/

namespace Letterhead

open Pdf (Object ObjectId Dictionary Document ascii)
open Import (visit copyWithin Completes Grows)

namespace Template

variable (template : Template)

/-- What the page draws with: its own resources or inherited ones, or none. -/
def resources (page : ObjectId) : Object :=
  (template.inherited? page "Resources").getD (.dictionary [])

def form (page : ObjectId) (resources : Object) : Object :=
  .ofStream (formEntries (template.mediaBox page) resources) (template.document.pageContent page)

abbrev copier : ObjectId → Copying ObjectId :=
  copyWithin template.document (template.document.objects.size + 1)

theorem resources_form (box : List Float32) (resources length : Object) :
    (Dictionary.set (formEntries box resources) (ascii "Length") length).get? (ascii "Resources") =
      some resources := by
  simp [Dictionary.get?_set, Dictionary.get?_cons, Dictionary.ofList, formEntries, ascii]

/-- Imports one page after the other, whether or not the earlier ones could be imported. -/
def importForms : List Nat → Import → List (Except ImportFault ObjectId) × Import
  | [], state => ([], state)
  | page :: rest, state =>
    let (outcome, state) := template.importForm page state
    let (outcomes, state) := importForms rest state
    (outcome :: outcomes, state)

theorem importResources_run (page : ObjectId) (state : Import) :
    (template.importResources page).run state =
      match (visit template.copier (template.resources page).references).run state with
      | (.ok (), after) => (.ok ((template.resources page).mapReferences after.copyOf), after)
      | (.error fault, after) => (.error fault, after) := by
  rw [importResources, resources]
  rcases template.inherited? page "Resources" with _ | object
  · rfl
  · exact Import.rename_run (Import.copyWithin_remembers template.document _) object state

theorem importForm_run (page : Nat) (state : Import) :
    template.importForm page state =
      match template.pageId? page with
      | none => (.error (.pageOutOfRange page template.size), state)
      | some id =>
        match (visit template.copier (template.resources id).references).run state with
        | (.error fault, after) => (.error (.lookup fault), after)
        | (.ok (), after) =>
          (.ok after.target.nextId,
            after.added (template.form id ((template.resources id).mapReferences after.copyOf))) := by
  rw [importForm]
  rcases template.pageId? page with _ | id
  · rfl
  · simp only [importResources_run]
    rcases (visit template.copier (template.resources id).references).run state with ⟨_ | _, after⟩ <;>
      rfl

variable {template} {page : Nat} {form : ObjectId} {before after : Import}

theorem importForm_grows (template : Template) (page : Nat) (before : Import) :
    Grows before (template.importForm page before).2 := by
  rw [importForm_run]
  rcases template.pageId? page with _ | id
  · exact Grows.refl before
  · have grows := Import.visit_grows template.document (template.document.objects.size + 1)
      (template.resources id).references before
    rcases outcome : (visit template.copier (template.resources id).references).run before
      with ⟨_ | _, after⟩ <;> simp only [copier] at outcome <;> simp only [outcome] at grows ⊢
    · exact grows
    · exact grows.add _

variable (template) in
/-- The form of a page, drawing with the copies of what the page draws with. -/
def HasForm (state : Import) (page : Nat) (form : ObjectId) : Prop :=
  form.number ≤ state.target.lastNumber ∧
  ∃ id, template.pageId? page = some id ∧
    (∀ reference ∈ (template.resources id).references, reference ∈ state.copies) ∧
    state.target.get? form =
      some (template.form id ((template.resources id).mapReferences state.copyOf))

theorem HasForm.grows (has : template.HasForm before page form) (grows : Grows before after) :
    template.HasForm after page form := by
  obtain ⟨low, id, named, inside, there⟩ := has
  refine ⟨Nat.le_trans low grows.target.lastNumber_le, id, named,
    fun reference found => grows.keeps.mem (inside reference found), ?_⟩
  rw [grows.target.get?_eq form low, there]
  exact congrArg (fun resources => some (template.form id resources))
    (Object.mapReferences_congr _ fun reference found =>
      grows.keeps.copyOf_eq (inside reference found))

theorem importForm_succeeds (done : template.importForm page before = (.ok form, after)) :
    Completes template.document before after ∧ template.HasForm after page form := by
  rw [importForm_run] at done
  rcases named : template.pageId? page with _ | id <;> simp only [named] at done
  · cases done
  · rcases outcome : (visit template.copier (template.resources id).references).run before
      with ⟨_ | _, middle⟩ <;> simp only [outcome] at done
    · cases done
    · cases done
      have remembers := Import.copyWithin_remembers template.document
        (template.document.objects.size + 1)
      have completes := Import.visit_completes (Import.copyWithin_completes _) _ outcome
      have grown := Import.visit_grows template.document (template.document.objects.size + 1)
        (template.resources id).references before
      have inside := Import.visit_known remembers _ before middle outcome
      rw [outcome] at grown
      have grows := (Grows.refl middle).add
        (template.form id ((template.resources id).mapReferences middle.copyOf))
      refine ⟨completes.trans ?_ grown grows, Nat.le_refl _, id, named, inside, ?_⟩
      · exact Completes.of_copies_eq rfl
      · exact Document.get?_add_self _ _

-- Forms are added last, so their numbers are above all that were given out before.
theorem importForm_fresh (done : template.importForm page before = (.ok form, after)) :
    before.target.lastNumber < form.number := by
  rw [importForm_run] at done
  rcases named : template.pageId? page with _ | id <;> simp only [named] at done
  · cases done
  · have grows := Import.visit_grows template.document (template.document.objects.size + 1)
      (template.resources id).references before
    rcases outcome : (visit template.copier (template.resources id).references).run before
      with ⟨_ | _, middle⟩ <;> simp only [outcome] at done grows <;> cases done
    exact Nat.lt_succ_of_le grows.target.lastNumber_le

theorem importForms_succeed {pages : List Nat} {forms : List ObjectId}
    (done : template.importForms pages before = (forms.map .ok, after)) :
    Grows before after ∧ Completes template.document before after ∧
      List.Forall₂ (template.HasForm after) pages forms := by
  induction pages generalizing before forms with
  | nil =>
    obtain ⟨none, rfl⟩ := Prod.mk.inj done
    obtain rfl := List.map_eq_nil_iff.mp none.symm
    exact ⟨Grows.refl _, Completes.refl _, .nil⟩
  | cons page rest ih =>
    simp only [importForms, Prod.mk.injEq] at done
    obtain ⟨outcomes, final⟩ := done
    obtain ⟨form, later, rfl, first, others⟩ := List.map_eq_cons_iff.mp outcomes.symm
    have grown := importForm_grows template page before
    rcases step : template.importForm page before with ⟨outcome, middle⟩
    rw [step] at first others final grown
    obtain ⟨grows, completed, has⟩ := ih (Prod.ext others.symm final)
    obtain ⟨completes, hasFirst⟩ := importForm_succeeds (step.trans (congrArg (·, middle) first.symm))
    exact ⟨grown.trans grows, completes.trans completed grown grows, .cons (hasFirst.grows grows) has⟩

/-! ### The renaming -/

theorem imports_rename_faithfully (template : Template) (target : Document) (pages : List Nat)
    (forms : List ObjectId) (bounded : target.Bounded)
    (imported : (template.importForms pages ⟨target, {}⟩).1 = forms.map .ok) :
    let state := (template.importForms pages ⟨target, {}⟩).2
    (∀ left right copy : ObjectId, state.copies[left]? = some copy →
      state.copies[right]? = some copy → left = right) ∧
    (∀ source copy : ObjectId, state.copies[source]? = some copy → target.get? copy = none) ∧
    (∀ source copy : ObjectId, state.copies[source]? = some copy →
      ∃ object, template.document.lookup source = .ok object ∧
        (∀ reference ∈ object.references, reference ∈ state.copies) ∧
        state.target.get? copy = some (object.mapReferences state.copyOf)) ∧
    List.Forall₂ (fun page form => ∃ id entries data, template.pageId? page = some id ∧
      state.target.get? form = some (.stream entries data) ∧
      (∀ reference ∈ (template.resources id).references, reference ∈ state.copies) ∧
      Dictionary.get? entries (ascii "Resources") =
        some ((template.resources id).mapReferences state.copyOf)) pages forms := by
  intro state
  obtain ⟨grows, completes, has⟩ := importForms_succeed (Prod.ext imported (Eq.refl state))
  have empty : ∀ id : ObjectId, (∅ : Std.TreeMap ObjectId ObjectId)[id]? = none :=
    fun id => Std.TreeMap.getElem?_emptyc
  refine ⟨fun left right copy => grows.apart left right copy (empty left) (empty right), ?_, ?_, ?_⟩
  · intro source copy entry
    have high := (grows.fresh source copy (empty source) entry).1
    exact Classical.byContradiction fun present => Nat.not_lt.mpr (bounded copy present) high
  · intro source copy entry
    obtain ⟨held, object, found, looked, inside, there⟩ :=
      completes source (empty source) (Import.mem_copies.mpr ⟨copy, entry⟩)
    obtain rfl := Option.some.inj (found.symm.trans entry)
    exact ⟨object, looked, inside, there⟩
  · apply has.imp
    rintro page form ⟨-, id, named, inside, there⟩
    exact ⟨id, _, _, named, there, inside, resources_form _ _ _⟩

/-- A template with two pages that both draw with object 5. -/
def twoPages (shared : List (ObjectId × Object)) : Template :=
  let page := Object.dictionary <| Dictionary.ofList
    [("Type", .ofName "Page"), ("Parent", .reference ⟨2, 0⟩), ("Resources", .reference ⟨5, 0⟩)]
  let tree := Object.dictionary <| Dictionary.ofList
    [("Type", .ofName "Pages"), ("Kids", .array [.reference ⟨3, 0⟩, .reference ⟨4, 0⟩])]
  let catalog := Object.dictionary <| Dictionary.ofList [("Pages", .reference ⟨2, 0⟩)]
  let objects := [(⟨1, 0⟩, catalog), (⟨2, 0⟩, tree), (⟨3, 0⟩, page), (⟨4, 0⟩, page)] ++ shared
  let trailer := Dictionary.ofList [("Root", .reference ⟨1, 0⟩)]
  .ofDocument (objects.foldl (fun document entry => document.insert entry.1 entry.2) { trailer })

/-- Both pages draw with two objects that refer to each other. -/
def ring : Template :=
  twoPages [(⟨5, 0⟩, .dictionary (Dictionary.ofList [("Next", .reference ⟨6, 0⟩)])),
    (⟨6, 0⟩, .array [.reference ⟨5, 0⟩, .reference ⟨6, 0⟩])]

theorem imports_rename_ring :
    ({} : Document).Bounded ∧
    (ring.importForms [2, 1] ⟨{}, {}⟩).1 = [⟨3, 0⟩, ⟨4, 0⟩].map .ok ∧
    ∀ left right copy : ObjectId, (ring.importForms [2, 1] ⟨{}, {}⟩).2.copies[left]? = some copy →
      (ring.importForms [2, 1] ⟨{}, {}⟩).2.copies[right]? = some copy → left = right := by
  have imported : (ring.importForms [2, 1] ⟨{}, {}⟩).1 = [⟨3, 0⟩, ⟨4, 0⟩].map .ok := by
    decide +kernel
  exact ⟨Document.bounded_empty, imported,
    (imports_rename_faithfully ring {} [2, 1] _ Document.bounded_empty imported).1⟩

end Template

end Letterhead
