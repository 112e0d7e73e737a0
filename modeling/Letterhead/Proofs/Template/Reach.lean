import Letterhead.Proofs.Template.Forms

/-!
Which imports succeed. A copy follows references until it meets an object that has a number in the
table already, and fails at the first one that the template lacks. It leaves that one in the table,
so an import may succeed only because an earlier one has failed.
-/

namespace Letterhead

open Pdf (Object ObjectId Dictionary Document LookupFault)

namespace Import

variable (source : Document)

/-- What references lead to from the roots, without going on from an object to stop at. -/
inductive Reached (stop : ObjectId → Prop) (roots : List ObjectId) : ObjectId → Prop
  | root {id : ObjectId} : id ∈ roots → Reached stop roots id
  | next {id reference : ObjectId} {object : Object} : Reached stop roots id → ¬ stop id →
      source.lookup id = .ok object → reference ∈ object.references →
      Reached stop roots reference

def Resolves (id : ObjectId) : Prop := ∃ object, source.lookup id = .ok object

/-- All that would have to be copied is in the source. -/
def Unblocked (state : Import) (roots : List ObjectId) : Prop :=
  ∀ id, Reached source (· ∈ state.copies) roots id → id ∈ state.copies ∨ Resolves source id

variable {source}

-- A table with more entries stops earlier.
theorem Reached.mono {stop later : ObjectId → Prop} {roots more : List ObjectId}
    (stops : ∀ id, stop id → later id) (inside : ∀ id ∈ roots, Reached source stop more id)
    {id : ObjectId} (reached : Reached source later roots id) : Reached source stop more id := by
  induction reached with
  | root member => exact inside _ member
  | next _ unknown looked found ih => exact .next ih (fun known => unknown (stops _ known)) looked found

theorem Unblocked.mono {before after : Import} {roots more : List ObjectId}
    (unblocked : Unblocked source before more) (keeps : Keeps before after)
    (inside : ∀ id ∈ roots, Reached source (· ∈ before.copies) more id) :
    Unblocked source after roots := by
  intro id reached
  rcases unblocked id (reached.mono (fun _ => keeps.mem) inside) with known | resolves
  · exact Or.inl (keeps.mem known)
  · exact Or.inr resolves

/-! ### A copy that succeeds meets nothing missing -/

theorem unblocked_of_visit {depth : Nat} {ids : List ObjectId} {before after : Import}
    (done : (visit (copyWithin source depth) ids).run before = (.ok (), after)) :
    Unblocked source before ids := by
  have entered := visit_known (copyWithin_remembers source depth) ids before after done
  have completes := visit_completes (copyWithin_completes depth) ids done
  have copied : ∀ id, Reached source (· ∈ before.copies) ids id → id ∈ after.copies := by
    intro id reached
    induction reached with
    | root member => exact entered _ member
    | next _ unknown looked found ih =>
      have absent := Std.TreeMap.getElem?_eq_none unknown
      obtain ⟨_, object, -, resolved, inside, -⟩ := completes _ absent ih
      obtain rfl := Except.ok.inj (resolved.symm.trans looked)
      exact inside _ found
  intro id reached
  rcases known : before.copies[id]? with _ | copy
  · obtain ⟨_, object, -, resolved, -, -⟩ := completes id known (copied id reached)
    exact Or.inr ⟨object, resolved⟩
  · exact Or.inl (mem_copies.mpr ⟨copy, known⟩)

/-! ### A copy that meets nothing missing succeeds -/

/-- How many of the ids have no copy. -/
def uncopied (ids : List ObjectId) (state : Import) : Nat := ids.countP fun id => id ∉ state.copies

theorem uncopied_le {before after : Import} (keeps : Keeps before after) (ids : List ObjectId) :
    uncopied ids after ≤ uncopied ids before := by
  apply List.countP_mono_left
  intro id _ fresh
  simp only [decide_eq_true_eq] at fresh ⊢
  exact fun known => fresh (keeps.mem known)

theorem uncopied_lt {before after : Import} (keeps : Keeps before after) {id : ObjectId}
    (unknown : id ∉ before.copies) (known : id ∈ after.copies) {ids : List ObjectId}
    (member : id ∈ ids) : uncopied ids after < uncopied ids before := by
  induction ids with
  | nil => cases member
  | cons head rest ih =>
    have later := uncopied_le keeps rest
    simp only [uncopied, List.countP_cons, decide_eq_true_eq] at ih later ⊢
    rcases List.mem_cons.mp member with rfl | inRest
    · rw [if_neg (not_not_intro known), if_pos unknown]
      omega
    · have strict := ih inRest
      by_cases there : head ∈ before.copies
      · rw [if_neg (not_not_intro (keeps.mem there)), if_neg (not_not_intro there)]
        exact strict
      · rw [if_pos there]
        split <;> omega

theorem mem_keys_of_lookup {id : ObjectId} {object : Object} (looked : source.lookup id = .ok object) :
    id ∈ source.objects.keys := by
  rw [Std.TreeMap.mem_keys, Std.TreeMap.mem_iff_isSome_getElem?]
  rw [Document.lookup, Document.get?] at looked
  rcases held : source.objects[id]? with _ | _
  · simp [held] at looked
  · rfl

theorem uncopied_reserved_lt {state : Import} {id : ObjectId} {object : Object}
    (unknown : state.copies[id]? = none) (looked : source.lookup id = .ok object) :
    uncopied source.objects.keys (state.reserved id) < uncopied source.objects.keys state :=
  uncopied_lt (keeps_reserved unknown) ((getElem?_eq_none_iff _ _).mp unknown)
    (mem_copies.mpr ⟨_, copies_reserved_self state id⟩) (mem_keys_of_lookup looked)

theorem uncopied_keys_lt (source : Document) (state : Import) :
    uncopied source.objects.keys state < source.objects.size + 1 := by
  rw [← Std.TreeMap.length_keys]
  exact Nat.lt_succ_of_le List.countP_le_length

section Success
variable {depth : Nat}

theorem visit_succeeds
    (succeeds : ∀ id state, uncopied source.objects.keys state < depth → Unblocked source state [id] →
      ∃ copy after, (copyWithin source depth id).run state = (.ok copy, after))
    (ids : List ObjectId) (state : Import) (bound : uncopied source.objects.keys state < depth)
    (unblocked : Unblocked source state ids) :
    ∃ after, (visit (copyWithin source depth) ids).run state = (.ok (), after) := by
  induction ids generalizing state with
  | nil => exact ⟨state, rfl⟩
  | cons id rest ih =>
    have first : Unblocked source state [id] := unblocked.mono (Keeps.refl state) fun only member =>
      .root (List.mem_cons.mpr (Or.inl (List.mem_singleton.mp member)))
    obtain ⟨copy, middle, done⟩ := succeeds id state bound first
    have keeps := (copyWithin_remembers source depth id state).1
    rw [done] at keeps
    have others : Unblocked source middle rest := unblocked.mono keeps fun later member =>
      .root (List.mem_cons_of_mem id member)
    obtain ⟨after, finished⟩ := ih middle (Nat.lt_of_le_of_lt (uncopied_le keeps _) bound) others
    refine ⟨after, ?_⟩
    simp only [visit, bind_run, done]
    exact finished

/-- Copies that wait for others are of different objects of the source, so the bound on how many
there are at once is never met. -/
theorem copyWithin_succeeds (id : ObjectId) (state : Import) (bound : uncopied source.objects.keys state < depth)
    (unblocked : Unblocked source state [id]) :
    ∃ copy after, (copyWithin source depth id).run state = (.ok copy, after) := by
  induction depth generalizing id state with
  | zero => omega
  | succ depth ih =>
    rcases known : state.copies[id]? with _ | copy
    · have here : Reached source (· ∈ state.copies) [id] id := .root (List.mem_singleton_self id)
      have unknown := (getElem?_eq_none_iff _ _).mp known
      obtain ⟨object, looked⟩ := (unblocked id here).resolve_left unknown
      have fewer := uncopied_reserved_lt known looked
      have inside : Unblocked source (state.reserved id) object.references :=
        unblocked.mono (keeps_reserved known) fun reference found => .next here unknown looked found
      obtain ⟨after, done⟩ := visit_succeeds (fun id state => ih id state) object.references
        (state.reserved id) (by omega) inside
      rw [copyWithin_found source depth known looked, rename_run (copyWithin_remembers source depth),
        done]
      exact ⟨_, _, rfl⟩
    · exact ⟨copy, state, copyWithin_known source (depth + 1) known⟩

end Success

/-! ### What a failed copy leaves in the table -/

theorem copyWithin_fails {depth : Nat} {id : ObjectId} {before after : Import} {fault : LookupFault}
    (failed : (copyWithin source (depth + 1) id).run before = (.error fault, after)) :
    id ∉ before.copies ∧ id ∈ after.copies := by
  rcases known : before.copies[id]? with _ | copy
  · have unknown := (getElem?_eq_none_iff _ _).mp known
    have taken := mem_copies.mpr ⟨_, copies_reserved_self before id⟩
    constructor
    · exact unknown
    · rcases looked : source.lookup id with missing | object
      · rw [copyWithin_missing source depth known looked] at failed
        cases failed
        exact taken
      · have remembers := copyWithin_remembers source depth
        have keeps := visit_keeps remembers object.references (before.reserved id)
        rw [copyWithin_found source depth known looked, rename_run remembers] at failed
        rcases outcome : (visit (copyWithin source depth) object.references).run (before.reserved id)
          with ⟨_ | _, middle⟩ <;> rw [outcome] at failed keeps <;> cases failed
        exact keeps.mem taken
  · rw [copyWithin_known source (depth + 1) known] at failed
    cases failed

theorem visit_fails {depth : Nat} {ids : List ObjectId} {before after : Import} {fault : LookupFault}
    (failed : (visit (copyWithin source (depth + 1)) ids).run before = (.error fault, after)) :
    ∃ id ∈ ids, id ∉ before.copies ∧ id ∈ after.copies := by
  induction ids generalizing before with
  | nil => cases failed
  | cons id rest ih =>
    simp only [visit, bind_run] at failed
    have keeps := (copyWithin_remembers source (depth + 1) id before).1
    rcases outcome : (copyWithin source (depth + 1) id).run before with ⟨_ | _, middle⟩ <;>
      simp only [outcome] at failed keeps
    · cases failed
      obtain ⟨unknown, known⟩ := copyWithin_fails outcome
      exact ⟨id, List.mem_cons_self, unknown, known⟩
    · obtain ⟨later, member, unknown, known⟩ := ih failed
      exact ⟨later, List.mem_cons_of_mem id member, fun there => unknown (keeps.mem there), known⟩

end Import

namespace Template

variable {template : Template} {page : Nat} {id : ObjectId} {state : Import}

theorem visit_ok_iff (template : Template) (roots : List ObjectId) (state : Import) :
    (∃ after, (Import.visit template.copier roots).run state = (.ok (), after)) ↔
      Import.Unblocked template.document state roots := by
  constructor
  · rintro ⟨after, done⟩
    exact Import.unblocked_of_visit done
  · intro unblocked
    have enough := Import.uncopied_keys_lt template.document state
    apply Import.visit_succeeds _ roots state enough unblocked
    intro id state
    exact Import.copyWithin_succeeds id state

theorem importForm_ok_iff (template : Template) (page : Nat) (state : Import) :
    (∃ form, (template.importForm page state).1 = .ok form) ↔
      ∃ id, template.pageId? page = some id ∧
        Import.Unblocked template.document state (template.resources id).references := by
  rw [importForm_run]
  rcases template.pageId? page with _ | id
  · simp
  · simp only [← visit_ok_iff, Option.some.injEq, exists_eq_left']
    rcases (Import.visit template.copier (template.resources id).references).run state
      with ⟨fault | _, after⟩
    · exact ⟨fun ⟨_, same⟩ => (nomatch same), fun ⟨_, same⟩ => (nomatch same)⟩
    · exact ⟨fun _ => ⟨after, rfl⟩, fun _ => ⟨after.target.nextId, rfl⟩⟩

/-! ### What earlier imports change -/

/-- Whether a page can be imported after others, be these imported or not. -/
def ImportsAfter (template : Template) (target : Document) (earlier : List Nat) (page : Nat) : Prop :=
  ∃ form, (template.importForm page (template.importForms earlier ⟨target, {}⟩).2).1 = .ok form

instance (template : Template) (target : Document) (earlier : List Nat) (page : Nat) :
    Decidable (template.ImportsAfter target earlier page) :=
  match outcome : (template.importForm page (template.importForms earlier ⟨target, {}⟩).2).1 with
  | .ok form => .isTrue ⟨form, outcome⟩
  | .error _ => .isFalse fun ⟨_, same⟩ => nomatch outcome.symm.trans same

/-- All that the page draws with, directly or not, is in the template. -/
def Complete (template : Template) (page : ObjectId) : Prop :=
  ∀ id, Import.Reached template.document (fun _ => False) (template.resources page).references id →
    Import.Resolves template.document id

-- A failed import leaves one more of the page's own references in the table.
theorem failed_import_enters (named : template.pageId? page = some id)
    (failed : ¬ ∃ form, (template.importForm page state).1 = .ok form) :
    ∃ root ∈ (template.resources id).references,
      root ∉ state.copies ∧ root ∈ (template.importForm page state).2.copies := by
  rw [importForm_run, named] at failed ⊢
  rcases outcome : (Import.visit template.copier (template.resources id).references).run state
    with ⟨fault | _, after⟩ <;> simp only [outcome] at failed ⊢
  · exact Import.visit_fails outcome
  · exact absurd ⟨_, rfl⟩ failed

theorem importForms_append (template : Template) (first second : List Nat) (state : Import) :
    (template.importForms (first ++ second) state).2 =
      (template.importForms second (template.importForms first state).2).2 := by
  induction first generalizing state with
  | nil => rfl
  | cons page rest ih => exact ih _

-- Each attempt either succeeds or leaves fewer references that the next one has to copy.
theorem attempts_run_out (named : template.pageId? page = some id) (target : Document)
    (attempts : Nat) (failed : ∀ fewer, ¬ template.ImportsAfter target (.replicate fewer page) page) :
    Import.uncopied (template.resources id).references
        (template.importForms (.replicate attempts page) ⟨target, {}⟩).2 + attempts ≤
      (template.resources id).references.length := by
  induction attempts with
  | zero => exact List.countP_le_length
  | succ attempts ih =>
    obtain ⟨root, member, unknown, known⟩ := failed_import_enters named (failed attempts)
    have grows := importForm_grows template page
      (template.importForms (.replicate attempts page) ⟨target, {}⟩).2
    have fewer := Import.uncopied_lt grows.keeps unknown known member
    rw [List.replicate_succ', importForms_append]
    simp only [importForms]
    omega

theorem Complete.unblocked (complete : template.Complete id) (state : Import) :
    Import.Unblocked template.document state (template.resources id).references :=
  fun sought reached => Or.inr <| complete sought <|
    reached.mono (fun _ => False.elim) fun _ member => .root member

theorem complete_of_unblocked {target : Document}
    (unblocked : Import.Unblocked template.document ⟨target, {}⟩ (template.resources id).references) :
    template.Complete id := by
  intro sought reached
  have nothing : ∀ known : ObjectId, known ∉ (∅ : Std.TreeMap ObjectId ObjectId) :=
    fun _ => Std.TreeMap.not_mem_emptyc
  have here := reached.mono (fun known there => nothing known there) fun _ member => .root member
  exact (unblocked sought here).resolve_left (nothing sought)

theorem Complete.importsAfter (complete : template.Complete id)
    (named : template.pageId? page = some id) (target : Document) (earlier : List Nat) :
    template.ImportsAfter target earlier page :=
  (importForm_ok_iff template page _).mpr ⟨id, named, complete.unblocked _⟩

/-- A page can be imported after others when its references lead, past what those have left in the
table, only to objects of the template. What they were makes no difference exactly when the page is
complete: an incomplete one fails at first, and succeeds after enough failures. -/
theorem import_outcome_by_history (template : Template) (target : Document) (page : Nat) :
    (∀ earlier, template.ImportsAfter target earlier page ↔
      ∃ id, template.pageId? page = some id ∧ Import.Unblocked template.document
        (template.importForms earlier ⟨target, {}⟩).2 (template.resources id).references) ∧
    ((∀ earlier other, template.ImportsAfter target earlier page ↔
        template.ImportsAfter target other page) ↔
      ∀ id, template.pageId? page = some id → template.Complete id) := by
  refine ⟨fun earlier => importForm_ok_iff template page _, ?_⟩
  constructor
  · intro agree id named
    have first : template.ImportsAfter target [] page := by
      by_contra fails
      have bound := attempts_run_out named target
        ((template.resources id).references.length + 1) fun fewer done =>
          fails ((agree (.replicate fewer page) []).mp done)
      omega
    obtain ⟨found, same, unblocked⟩ := (importForm_ok_iff template page _).mp first
    obtain rfl := Option.some.inj (same.symm.trans named)
    exact complete_of_unblocked unblocked
  · intro complete earlier other
    rcases named : template.pageId? page with _ | id
    · have never : ∀ pages, ¬ template.ImportsAfter target pages page := by
        intro pages done
        obtain ⟨id, some, -⟩ := (importForm_ok_iff template page _).mp done
        simp [named] at some
      exact ⟨fun done => absurd done (never earlier), fun done => absurd done (never other)⟩
    · have always := (complete id named).importsAfter named target
      exact ⟨fun _ => always other, fun _ => always earlier⟩

/-- Two pages that draw with an object that is not there. -/
def lacking : Template := twoPages []

-- The first failure leaves the missing object in the table, and the placeholder passes for a copy.
theorem failed_import_unlocks_pages :
    ¬ lacking.ImportsAfter {} [] 1 ∧ lacking.ImportsAfter {} [1] 1 ∧
      ¬ lacking.ImportsAfter {} [] 2 ∧ lacking.ImportsAfter {} [1] 2 := by
  decide +kernel

end Template

end Letterhead
