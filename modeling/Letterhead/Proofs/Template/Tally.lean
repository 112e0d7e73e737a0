import Letterhead.Proofs.Pdf.Renumbering
import Letterhead.Proofs.Template.Forms

/-!
An importer that starts on an empty target puts there the forms and one copy of each object that it
reaches, and nothing else. Each of them has a number of its own, and the numbers leave no gap.
-/

namespace Letterhead

open Pdf (Object ObjectId Document)

namespace Import

variable {source : Document} {wanted : Set ObjectId}

/-- The target holds the forms and the copies, each under a number of its own, and nothing else.
Only objects of the set have been copied. -/
structure Tally (wanted : Set ObjectId) (base : Nat) (forms : List ObjectId) (state : Import) :
    Prop where
  consecutive : state.target.Consecutive base
  copied : ∀ id ∈ state.copies, id ∈ wanted
  mem_ids_iff : ∀ id, id ∈ state.target.ids ↔
    id ∈ forms ∨ ∃ source : ObjectId, state.copies[source]? = some id
  once : forms.Nodup
  separate : ∀ source copy : ObjectId, state.copies[source]? = some copy → copy ∉ forms

namespace Tally

variable {base : Nat} {forms : List ObjectId} {state : Import}

theorem start {target : Document} (empty : ∀ id, target.get? id = none) :
    Tally wanted target.lastNumber [] ⟨target, {}⟩ where
  consecutive := .of_empty empty
  copied id known := absurd known Std.TreeMap.not_mem_emptyc
  mem_ids_iff id := by simp [Document.ids, empty]
  once := List.nodup_nil
  separate _ _ _ := List.not_mem_nil

theorem nextId_fresh (tally : Tally wanted base forms state) : state.target.nextId ∉ forms :=
  fun member => tally.consecutive.nextId_not_mem ((tally.mem_ids_iff _).mpr (Or.inl member))

theorem reserved (tally : Tally wanted base forms state) {id : ObjectId} (member : id ∈ wanted)
    (unknown : state.copies[id]? = none) : Tally wanted base forms (state.reserved id) where
  consecutive := tally.consecutive.add .null
  copied entered known := by
    rw [Import.reserved, Std.TreeMap.mem_insert, Std.LawfulEqOrd.compare_eq_iff_eq] at known
    rcases known with rfl | known
    · exact member
    · exact tally.copied entered known
  mem_ids_iff sought := by
    have old : ∀ entered : ObjectId, state.copies[entered]? = some sought →
        (state.reserved id).copies[entered]? = some sought :=
      fun entered known => keeps_reserved unknown entered sought known
    rw [Import.reserved, Document.mem_ids_add, tally.mem_ids_iff]
    constructor
    · rintro (rfl | isForm | ⟨entered, known⟩)
      · exact Or.inr ⟨id, copies_reserved_self state id⟩
      · exact Or.inl isForm
      · exact Or.inr ⟨entered, old entered known⟩
    · rintro (isForm | ⟨entered, known⟩)
      · exact Or.inr (Or.inl isForm)
      · rcases before : state.copies[entered]? with _ | copy
        · exact Or.inl (reserved_entry before known).2
        · obtain rfl := Option.some.inj ((keeps_reserved unknown entered copy before).symm.trans known)
          exact Or.inr (Or.inr ⟨entered, before⟩)
  once := tally.once
  separate entered copy known := by
    rcases before : state.copies[entered]? with _ | earlier
    · rw [(reserved_entry before known).2]
      exact tally.nextId_fresh
    · obtain rfl := Option.some.inj ((keeps_reserved unknown entered earlier before).symm.trans known)
      exact tally.separate entered earlier before

theorem installed (tally : Tally wanted base forms state) {id copy : ObjectId}
    (known : state.copies[id]? = some copy) (object : Object) :
    Tally wanted base forms (state.installed copy object) := by
  have there : copy ∈ state.target.ids := (tally.mem_ids_iff copy).mpr (Or.inr ⟨id, known⟩)
  refine ⟨tally.consecutive.insert there object, tally.copied, fun sought => ?_, tally.once,
    tally.separate⟩
  change sought ∈ (state.target.insert copy object).ids ↔ _
  rw [Document.mem_ids_insert, or_iff_right_of_imp fun same => same ▸ there]
  exact tally.mem_ids_iff sought

theorem added (tally : Tally wanted base forms state) (form : Object) :
    Tally wanted base (forms ++ [state.target.nextId]) (state.added form) where
  consecutive := tally.consecutive.add form
  copied := tally.copied
  mem_ids_iff sought := by
    rw [Import.added, Document.mem_ids_add, tally.mem_ids_iff, List.mem_append, List.mem_singleton,
      or_right_comm, or_comm]
  once := by
    rw [List.nodup_append]
    refine ⟨tally.once, List.nodup_singleton _, ?_⟩
    intro form isForm other same clash
    obtain rfl := List.mem_singleton.mp same
    exact tally.nextId_fresh (clash ▸ isForm)
  separate entered copy known := by
    have there : copy ∈ state.target.ids := (tally.mem_ids_iff copy).mpr (Or.inr ⟨entered, known⟩)
    rw [List.mem_append, List.mem_singleton]
    rintro (isForm | rfl)
    · exact tally.separate entered copy known isForm
    · exact tally.consecutive.nextId_not_mem there

theorem visited (tally : Tally wanted base forms state) (closed : ClosedUnder source wanted)
    (depth : Nat) {ids : List ObjectId} (inside : ∀ id ∈ ids, id ∈ wanted) :
    Tally wanted base forms ((visit (copyWithin source depth) ids).run state).2 :=
  visit_preserves (fun id member _ => copyWithin_preserves closed
    (fun _ _ isWanted unknown tally => tally.reserved isWanted unknown)
    (fun _ _ _ _ known _ tally => tally.installed known _) depth (inside id member)) tally

end Tally

end Import

namespace Template

variable {template : Template} {wanted : Set ObjectId} {base : Nat} {before after : Import}
  {forms : List ObjectId}

theorem importForm_tally {page : Nat} {form : ObjectId}
    (tally : Import.Tally wanted base forms before)
    (closed : Import.ClosedUnder template.document (· ∈ wanted))
    (inside : ∀ id, template.pageId? page = some id →
      ∀ reference ∈ (template.resources id).references, reference ∈ wanted)
    (done : template.importForm page before = (.ok form, after)) :
    Import.Tally wanted base (forms ++ [form]) after := by
  rw [importForm_run] at done
  rcases named : template.pageId? page with _ | id <;> simp only [named] at done
  · cases done
  · have visited := tally.visited closed (template.document.objects.size + 1) (inside id named)
    rcases outcome : (Import.visit template.copier (template.resources id).references).run before
      with ⟨_ | _, middle⟩ <;> simp only [outcome] at done visited <;> cases done
    exact visited.added _

theorem importForms_tally {pages : List Nat} {made : List ObjectId}
    (tally : Import.Tally wanted base forms before)
    (closed : Import.ClosedUnder template.document (· ∈ wanted))
    (inside : ∀ page ∈ pages, ∀ id, template.pageId? page = some id →
      ∀ reference ∈ (template.resources id).references, reference ∈ wanted)
    (done : template.importForms pages before = (made.map .ok, after)) :
    Import.Tally wanted base (forms ++ made) after := by
  induction pages generalizing before forms made with
  | nil =>
    obtain ⟨none, rfl⟩ := Prod.mk.inj done
    obtain rfl := List.map_eq_nil_iff.mp none.symm
    rw [List.append_nil]
    exact tally
  | cons page rest ih =>
    simp only [importForms, Prod.mk.injEq] at done
    obtain ⟨outcomes, final⟩ := done
    obtain ⟨form, later, rfl, first, others⟩ := List.map_eq_cons_iff.mp outcomes.symm
    rcases step : template.importForm page before with ⟨outcome, middle⟩
    rw [step] at first others final
    have here := importForm_tally tally closed (inside page List.mem_cons_self)
      (step.trans (congrArg (·, middle) first.symm))
    have all := ih here (fun later member => inside later (List.mem_cons_of_mem page member))
      (Prod.ext others.symm final)
    rwa [List.append_assoc, List.singleton_append] at all

end Template

end Letterhead
