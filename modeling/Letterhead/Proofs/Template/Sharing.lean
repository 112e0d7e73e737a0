import Letterhead.Proofs.Template.Integrity
import Letterhead.Proofs.Template.Reach
import Letterhead.Proofs.Template.Tally
import Mathlib.Data.Finite.Set
import Mathlib.Data.Finite.Sum
import Mathlib.Data.Fin.VecNotation

/-!
What several pages have in common is copied once, in whatever order they are imported. An importer
that never fails copies just what the pages reach, so the order decides only the numbers.
-/

namespace Letterhead

open Pdf (Object ObjectId Dictionary Document)

namespace Template

variable (template : Template)

def roots (pages : List Nat) : List ObjectId :=
  (pages.filterMap template.pageId?).flatMap fun id => (template.resources id).references

/-- What the pages draw with, directly or not. -/
def reachable (pages : List Nat) : Set ObjectId :=
  {id | Import.Reached template.document (fun _ => False) (template.roots pages) id}

variable {template}

theorem mem_roots {pages : List Nat} {page : Nat} {id : ObjectId} (among : page ∈ pages)
    (named : template.pageId? page = some id) :
    ∀ reference ∈ (template.resources id).references, reference ∈ template.roots pages :=
  fun _ found => List.mem_flatMap.mpr ⟨id, List.mem_filterMap.mpr ⟨page, among, named⟩, found⟩

theorem reachable_congr {first second : List Nat} (same : ∀ page, page ∈ first ↔ page ∈ second) :
    template.reachable first = template.reachable second := by
  have inside : ∀ {left right : List Nat}, (∀ page ∈ left, page ∈ right) →
      template.reachable left ⊆ template.reachable right := by
    intro left right within id reached
    refine reached.mono (fun _ stop => stop) fun root member => .root ?_
    obtain ⟨id, isPage, found⟩ := List.mem_flatMap.mp member
    obtain ⟨page, among, named⟩ := List.mem_filterMap.mp isPage
    exact mem_roots (within page among) named root found
  exact Set.Subset.antisymm (inside fun page => (same page).mp) (inside fun page => (same page).mpr)

theorem closedUnder_reachable (pages : List Nat) :
    Import.ClosedUnder template.document (· ∈ template.reachable pages) :=
  fun _ _ reached looked _ found => reached.next id looked found

/-! ### What is in the target -/

theorem hasForm_of_mem {state : Import} {pages : List Nat} {forms : List ObjectId}
    (has : List.Forall₂ (template.HasForm state) pages forms) :
    ∀ page ∈ pages, ∃ form, template.HasForm state page form := by
  induction has with
  | nil => exact nofun
  | cons here _ ih => exact List.forall_mem_cons.mpr ⟨⟨_, here⟩, ih⟩

theorem finished_of_reachable {target : Document} {state : Import} {pages : List Nat}
    (completes : Import.Completes template.document ⟨target, {}⟩ state)
    (has : ∀ page ∈ pages, ∃ form, template.HasForm state page form) :
    ∀ id ∈ template.reachable pages, Import.Finished template.document state id := by
  have finished : ∀ id ∈ state.copies, Import.Finished template.document state id :=
    fun id known => completes id Std.TreeMap.getElem?_emptyc known
  intro id reached
  apply finished
  induction reached with
  | root member =>
    obtain ⟨source, isPage, found⟩ := List.mem_flatMap.mp member
    obtain ⟨page, among, named⟩ := List.mem_filterMap.mp isPage
    obtain ⟨form, -, held, same, inside, -⟩ := has page among
    obtain rfl := Option.some.inj (same.symm.trans named)
    exact inside _ found
  | next _ _ looked found ih =>
    obtain ⟨_, object, -, resolved, inside, -⟩ := finished _ ih
    obtain rfl := Except.ok.inj (resolved.symm.trans looked)
    exact inside _ found

theorem mapReferences_form (f : ObjectId → ObjectId) (page : ObjectId) (resources : Object) :
    (template.form page resources).mapReferences f =
      template.form page (resources.mapReferences f) := by
  have box := Object.mapItems_reals f (template.mediaBox page)
  simp [form, Object.ofStream, formEntries, Dictionary.ofList, Dictionary.set, Pdf.ascii,
    Object.mapReferences, Object.mapEntries, Object.ofName, box]

section Contents
variable {count : Nat} (wanted : Set ObjectId)

variable (template) in
/-- What is copied or made a form of, with the references that it has in the template. -/
def original (pages : Fin count → Nat) : wanted ⊕ Fin count → Option Object
  | .inl id => (template.document.lookup id).toOption
  | .inr index =>
    (template.pageId? (pages index)).map fun id => template.form id (template.resources id)

/-- Where copies and forms are. -/
def placed (state : Import) (forms : Fin count → ObjectId) : wanted ⊕ Fin count → ObjectId :=
  Sum.elim (fun id => state.copyOf id) forms

variable (template) in
/-- The target has a form for each of the pages, a copy of each object that is wanted, and nothing
else, each at a place of its own. -/
structure Imported (base : Nat) (pages : Fin count → Nat) (forms : Fin count → ObjectId)
    (state : Import) : Prop where
  consecutive : state.target.Consecutive base
  apart : Function.Injective (placed wanted state forms)
  range_eq : Set.range (placed wanted state forms) = state.target.ids
  holds : ∀ thing, ∃ object, template.original wanted pages thing = some object ∧
    (∀ reference ∈ object.references, reference ∈ wanted) ∧
    state.target.get? (placed wanted state forms thing) = some (object.mapReferences state.copyOf)

variable {wanted}

theorem imported_of_tally {base : Nat} {pages : Fin count → Nat} {forms : Fin count → ObjectId}
    {made : List ObjectId} {state : Import} (tally : Import.Tally wanted base made state)
    (finished : ∀ id ∈ wanted, Import.Finished template.document state id)
    (apart : ∀ left right copy : ObjectId, state.copies[left]? = some copy →
      state.copies[right]? = some copy → left = right)
    (once : Function.Injective forms) (among : ∀ id, id ∈ made ↔ ∃ index, forms index = id)
    (has : ∀ index, template.HasForm state (pages index) (forms index)) :
    template.Imported wanted base pages forms state := by
  have entry : ∀ id ∈ wanted, state.copies[id]? = some (state.copyOf id) := by
    intro id member
    obtain ⟨copy, _, known, -⟩ := finished id member
    rw [Import.copyOf, known, Option.getD_some]
  refine ⟨tally.consecutive, ?apart, ?range, ?holds⟩
  case apart =>
    apply Function.Injective.sumElim
    · intro left right same
      have known := entry left left.2
      rw [show state.copyOf left = state.copyOf right from same] at known
      exact Subtype.ext (apart left right _ known (entry right right.2))
    · exact once
    · intro id index same
      exact tally.separate id _ (entry id id.2) ((among _).mpr ⟨index, same.symm⟩)
  case range =>
    ext id
    rw [placed, Set.Sum.elim_range, tally.mem_ids_iff, among, Set.mem_union, or_comm]
    apply or_congr Iff.rfl
    constructor
    · rintro ⟨source, rfl⟩
      exact ⟨source, entry source source.2⟩
    · rintro ⟨source, known⟩
      have member := tally.copied source (Import.mem_copies.mpr ⟨id, known⟩)
      exact ⟨⟨source, member⟩, Option.some.inj ((entry source member).symm.trans known)⟩
  case holds =>
    rintro (⟨id, member⟩ | index)
    · obtain ⟨copy, object, known, looked, inside, there⟩ := finished id member
      refine ⟨object, by simp [original, looked, Except.toOption],
        fun reference found => tally.copied reference (inside reference found), ?_⟩
      rw [← there]
      simp [placed, Import.copyOf, known]
    · obtain ⟨-, id, named, inside, there⟩ := has index
      refine ⟨template.form id (template.resources id), by simp [original, named], ?_, ?_⟩
      · rw [references_form]
        exact fun reference found => tally.copied reference (inside reference found)
      · rw [mapReferences_form]
        exact there

-- The order in which the pages were imported says only which form belongs to which page.
theorem imported_of_importForms {target : Document} (empty : ∀ id, target.get? id = none)
    {pages : Fin count → Nat} {forms : Fin count → ObjectId} (order : Equiv.Perm (Fin count))
    {state : Import}
    (done : template.importForms (List.ofFn (pages ∘ order)) ⟨target, {}⟩ =
      ((List.ofFn forms).map .ok, state)) :
    template.Imported (template.reachable (List.ofFn pages)) target.lastNumber pages
      (forms ∘ order.symm) state := by
  have members : ∀ page, page ∈ List.ofFn (pages ∘ order) ↔ page ∈ List.ofFn pages := by
    intro page
    rw [List.mem_ofFn, List.mem_ofFn]
    exact ⟨fun ⟨index, same⟩ => ⟨order index, same⟩,
      fun ⟨index, same⟩ => ⟨order.symm index, by simp [same]⟩⟩
  have absent : ∀ id : ObjectId, (∅ : Std.TreeMap ObjectId ObjectId)[id]? = none :=
    fun _ => Std.TreeMap.getElem?_emptyc
  have inside : ∀ page ∈ List.ofFn (pages ∘ order), ∀ id, template.pageId? page = some id →
      ∀ reference ∈ (template.resources id).references,
        reference ∈ template.reachable (List.ofFn pages) :=
    fun page isPage id named reference found =>
      .root (mem_roots ((members page).mp isPage) named reference found)
  have tally := importForms_tally (.start empty) (closedUnder_reachable _) inside done
  obtain ⟨grows, completes, has⟩ := importForms_succeed done
  have hasForm : ∀ index, template.HasForm state (pages index) (forms (order.symm index)) := by
    intro index
    have here := (List.forall₂_iff_get.mp has).2 (order.symm index) (by simp) (by simp)
    simpa using here
  have finished := finished_of_reachable completes (hasForm_of_mem has)
  rw [reachable_congr members] at finished
  have once := List.nodup_ofFn.mp tally.once
  refine imported_of_tally tally finished (fun left right copy => grows.apart left right copy
    (absent left) (absent right)) (once.comp order.symm.injective) ?_ hasForm
  intro id
  rw [List.nil_append, List.mem_ofFn]
  exact order.symm.surjective.exists

namespace Imported

variable {base : Nat} {pages : Fin count → Nat} {forms others : Fin count → ObjectId}
  {state first second : Import}

theorem finite (imported : template.Imported wanted base pages forms state) :
    Finite (wanted ⊕ Fin count) := by
  have ids : Finite (Set.range (placed wanted state forms)) := by
    rw [imported.range_eq]
    exact state.target.finite_ids
  exact Finite.of_injective_finite_range imported.apart

theorem ncard_ids (imported : template.Imported wanted base pages forms state) :
    state.target.ids.ncard = count + wanted.ncard := by
  have := imported.finite
  have : Finite wanted := Finite.sum_left (Fin count)
  rw [← imported.range_eq, Set.ncard_range_of_injective imported.apart, Nat.card_sum,
    Nat.card_coe_set_eq, Nat.card_fin, Nat.add_comm]

-- The references of a copy are at the places of other copies, so they are renumbered with these.
theorem renumbered (one : template.Imported wanted base pages forms first)
    (two : template.Imported wanted base pages others second)
    (trailer_eq : second.target.trailer = first.target.trailer) :
    ∃ renumbering : Equiv.Perm ObjectId,
      Document.Renumbered renumbering first.target second.target ∧
      ∀ index, renumbering (forms index) = others index := by
  have := one.finite
  obtain ⟨renumbering, moves⟩ := Pdf.exists_renumbering one.apart two.apart
  refine ⟨renumbering, ⟨fun id => ?_, ?_, trailer_eq⟩, fun index => moves (.inr index)⟩
  · by_cases there : id ∈ first.target.ids
    · rw [← one.range_eq] at there
      obtain ⟨thing, rfl⟩ := there
      obtain ⟨object, isObject, inside, held⟩ := one.holds thing
      obtain ⟨same, isSame, -, alsoHeld⟩ := two.holds thing
      obtain rfl := Option.some.inj (isSame.symm.trans isObject)
      rw [moves thing, held, alsoHeld, Option.map_some, Object.mapReferences_mapReferences]
      refine congrArg some (Object.mapReferences_congr same fun reference found => ?_)
      exact (moves (.inl ⟨reference, inside reference found⟩)).symm
    · have gone : renumbering id ∉ second.target.ids := by
        rw [← two.range_eq]
        rintro ⟨thing, same⟩
        rw [← moves thing] at same
        exact there (one.range_eq ▸ ⟨thing, renumbering.injective same⟩)
      simp only [Document.ids, Set.mem_ofPred_eq, not_not] at there gone
      rw [there, gone, Option.map_none]
  · rw [one.consecutive.lastNumber_eq, two.consecutive.lastNumber_eq, one.ncard_ids, two.ncard_ids]

end Imported

end Contents

/-! ### Other orders -/

theorem complete_of_importForms {target : Document} {pages : List Nat} {forms : List ObjectId}
    {state : Import} (done : template.importForms pages ⟨target, {}⟩ = (forms.map .ok, state)) :
    ∀ page ∈ pages, ∃ id, template.pageId? page = some id ∧ template.Complete id := by
  obtain ⟨-, completes, has⟩ := importForms_succeed done
  have finished := finished_of_reachable completes (hasForm_of_mem has)
  intro page among
  obtain ⟨form, -, id, named, -, -⟩ := hasForm_of_mem has page among
  refine ⟨id, named, fun sought reached => ?_⟩
  have within : sought ∈ template.reachable pages :=
    reached.mono (fun _ stop => stop) fun root member => .root (mem_roots among named root member)
  obtain ⟨_, object, -, looked, -⟩ := finished sought within
  exact ⟨object, looked⟩

theorem importForms_ok_of_complete (pages : List Nat) (before : Import)
    (complete : ∀ page ∈ pages, ∃ id, template.pageId? page = some id ∧ template.Complete id) :
    ∃ forms : List ObjectId, forms.length = pages.length ∧
      (template.importForms pages before).1 = forms.map .ok := by
  induction pages generalizing before with
  | nil => exact ⟨[], rfl, rfl⟩
  | cons page rest ih =>
    obtain ⟨id, named, whole⟩ := complete page List.mem_cons_self
    obtain ⟨form, done⟩ := (importForm_ok_iff template page before).mpr ⟨id, named, whole.unblocked _⟩
    obtain ⟨forms, sized, others⟩ := ih (template.importForm page before).2
      fun later member => complete later (List.mem_cons_of_mem page member)
    refine ⟨form :: forms, by simp [sized], ?_⟩
    simp only [importForms, done, others, List.map_cons]

/-- Where pages are imported into an empty target and none fails, the target ends with one object
for each import and one for each object that the pages reach. In any other order none fails either,
and the target is the same up to a renumbering that takes each form to the form of the same import. -/
theorem imports_share_in_any_order (template : Template) (target : Document)
    (empty : ∀ id, target.get? id = none) {count : Nat} (pages : Fin count → Nat)
    (forms : Fin count → ObjectId)
    (imported : (template.importForms (List.ofFn pages) ⟨target, {}⟩).1 = (List.ofFn forms).map .ok) :
    let first := (template.importForms (List.ofFn pages) ⟨target, {}⟩).2.target
    (template.reachable (List.ofFn pages)).Finite ∧
    first.objects.size = count + (template.reachable (List.ofFn pages)).ncard ∧
    ∀ order : Equiv.Perm (Fin count), ∃ others : Fin count → ObjectId,
      let second := template.importForms (List.ofFn (pages ∘ order)) ⟨target, {}⟩
      second.1 = (List.ofFn others).map .ok ∧
      ∃ renumbering : Equiv.Perm ObjectId,
        Document.Renumbered renumbering first second.2.target ∧
        ∀ index, renumbering (forms (order index)) = others index := by
  intro first
  obtain ⟨state, done⟩ : ∃ state, template.importForms (List.ofFn pages) ⟨target, {}⟩ =
      ((List.ofFn forms).map .ok, state) := ⟨_, Prod.ext imported rfl⟩
  have isFirst : first = state.target := congrArg (fun run => run.2.target) done
  have one := imported_of_importForms empty (Equiv.refl _) done
  rw [isFirst]
  refine ⟨?finite, ?size, fun order => ?order⟩
  case finite =>
    have := one.finite
    exact Finite.sum_left (Fin count)
  case size =>
    rw [Document.size_eq_ncard, one.ncard_ids]
  case order =>
    have complete := complete_of_importForms done
    obtain ⟨made, sized, succeeds⟩ := importForms_ok_of_complete (List.ofFn (pages ∘ order))
      ⟨target, {}⟩ fun page among => by
        obtain ⟨index, rfl⟩ := List.mem_ofFn.mp among
        exact complete _ (List.mem_ofFn.mpr ⟨order index, rfl⟩)
    rw [List.length_ofFn] at sized
    subst sized
    obtain ⟨after, ended⟩ : ∃ after, template.importForms (List.ofFn (pages ∘ order)) ⟨target, {}⟩ =
        ((List.ofFn made.get).map .ok, after) := ⟨_, Prod.ext (by rw [List.ofFn_get, succeeds]) rfl⟩
    have two := imported_of_importForms empty order ended
    have trailers := (importForms_succeed ended).1.target.trailer_eq.trans
      (importForms_succeed done).1.target.trailer_eq.symm
    obtain ⟨renumbering, renumbered, moves⟩ := one.renumbered two trailers
    refine ⟨made.get, ?_⟩
    rw [ended]
    refine ⟨rfl, renumbering, renumbered, fun index => ?_⟩
    simpa using moves (order index)

-- Each of the two objects is copied once, though both pages draw with both and these with each other.
theorem ring_imports_share :
    (∀ id, ({} : Document).get? id = none) ∧
    (ring.importForms (List.ofFn ![2, 1]) ⟨{}, {}⟩).1 = (List.ofFn ![⟨3, 0⟩, ⟨4, 0⟩]).map .ok ∧
    (ring.reachable (List.ofFn ![2, 1])).ncard = 2 ∧
    ∃ renumbering : Equiv.Perm ObjectId, Document.Renumbered renumbering
      (ring.importForms (List.ofFn ![2, 1]) ⟨{}, {}⟩).2.target
      (ring.importForms (List.ofFn (![2, 1] ∘ Equiv.swap 0 1)) ⟨{}, {}⟩).2.target := by
  have empty : ∀ id, ({} : Document).get? id = none := fun _ => Std.TreeMap.getElem?_emptyc
  have imported : (ring.importForms (List.ofFn ![2, 1]) ⟨{}, {}⟩).1 =
      (List.ofFn ![⟨3, 0⟩, ⟨4, 0⟩]).map .ok := by
    decide +kernel
  have four : (ring.importForms (List.ofFn ![2, 1]) ⟨{}, {}⟩).2.target.objects.size = 4 := by
    decide +kernel
  obtain ⟨-, size, orders⟩ := imports_share_in_any_order ring {} empty ![2, 1] _ imported
  obtain ⟨others, -, renumbering, renumbered, -⟩ := orders (Equiv.swap 0 1)
  exact ⟨empty, imported, by omega, renumbering, renumbered⟩

end Template

end Letterhead
