import Letterhead.Proofs.Template.Growth

/-!
What a successful copy leaves behind. While copies are under way the table has numbers that hold
nothing yet; once the outermost copy is done, every object that it entered into the table is there,
with all references replaced by what the table says.
-/

namespace Letterhead.Import

open Pdf (Object ObjectId Document)

variable (source : Document)

def Finished (state : Import) (id : ObjectId) : Prop :=
  ∃ copy object, state.copies[id]? = some copy ∧ source.lookup id = .ok object ∧
    (∀ reference ∈ object.references, reference ∈ state.copies) ∧
    state.target.get? copy = some (object.mapReferences state.copyOf)

/-- All that is in the table of `after` and not in that of `before` is finished. -/
def Completes (before after : Import) : Prop :=
  ∀ id, before.copies[id]? = none → id ∈ after.copies → Finished source after id

variable {source} {first second third before after : Import}

theorem mem_copies {state : Import} {id : ObjectId} :
    id ∈ state.copies ↔ ∃ copy, state.copies[id]? = some copy := by
  rw [Std.TreeMap.mem_iff_isSome_getElem?, Option.isSome_iff_exists]

theorem Finished.grows {id : ObjectId} (finished : Finished source before id)
    (grows : Grows before after)
    (low : ∀ copy : ObjectId, before.copies[id]? = some copy →
      copy.number ≤ before.target.lastNumber) :
    Finished source after id := by
  obtain ⟨copy, object, known, looked, inside, there⟩ := finished
  refine ⟨copy, object, grows.keeps id copy known, looked,
    fun reference found => grows.keeps.mem (inside reference found), ?_⟩
  rw [grows.target.get?_eq copy (low copy known), there]
  exact congrArg some (Object.mapReferences_congr object fun reference found =>
    grows.keeps.copyOf_eq (inside reference found))

-- Where nothing enters the table there is nothing to finish.
theorem Completes.of_copies_eq (same : after.copies = before.copies) :
    Completes source before after := by
  intro id unknown known
  obtain ⟨copy, found⟩ := mem_copies.mp (same ▸ known)
  simp [unknown] at found

theorem Completes.refl (state : Import) : Completes source state state := .of_copies_eq rfl

theorem Completes.trans (one : Completes source first second) (two : Completes source second third)
    (grown : Grows first second) (grows : Grows second third) : Completes source first third := by
  intro id unknown known
  rcases between : second.copies[id]? with _ | earlier
  · exact two id between known
  · apply (one id unknown (mem_copies.mpr ⟨earlier, between⟩)).grows grows
    intro copy entry
    exact (grown.fresh id copy unknown entry).2

theorem visit_completes {depth : Nat}
    (completes : ∀ id before found after,
      (copyWithin source depth id).run before = (.ok found, after) → Completes source before after)
    (ids : List ObjectId) (done : (visit (copyWithin source depth) ids).run before = (.ok (), after)) :
    Completes source before after := by
  induction ids generalizing before with
  | nil =>
    cases done
    exact Completes.refl _
  | cons id rest ih =>
    simp only [visit, bind_run] at done
    have grown := copyWithin_grows source depth id before
    rcases outcome : (copyWithin source depth id).run before with ⟨_ | found, middle⟩ <;>
      simp only [outcome] at done grown
    · cases done
    · have grows := visit_grows source depth rest middle
      rw [done] at grows
      exact (completes id before found middle outcome).trans (ih done) grown grows

theorem copyWithin_completes (depth : Nat) (id : ObjectId) (before : Import) (found : ObjectId)
    (after : Import) (done : (copyWithin source depth id).run before = (.ok found, after)) :
    Completes source before after := by
  induction depth generalizing id before found after with
  | zero =>
    rcases known : before.copies[id]? with _ | copy
    · rw [copyWithin_zero source known] at done
      cases done
    · rw [copyWithin_known source 0 known] at done
      cases done
      exact Completes.refl before
  | succ depth ih =>
    rcases known : before.copies[id]? with _ | copy
    · rcases looked : source.lookup id with fault | object
      · rw [copyWithin_missing source depth known looked] at done
        cases done
      · have remembers := copyWithin_remembers source depth
        rw [copyWithin_found source depth known looked, rename_run remembers] at done
        rcases outcome : (visit (copyWithin source depth) object.references).run (before.reserved id)
          with ⟨_ | _, middle⟩ <;> rw [outcome] at done
        · cases done
        · cases done
          have visited := visit_completes ih object.references outcome
          have grows := visit_grows source depth object.references (before.reserved id)
          have entered := visit_known remembers object.references _ middle outcome
          rw [outcome] at grows
          intro new unknown isNew
          by_cases same : new = id
          · -- The object itself: its number has just been filled in.
            subst same
            refine ⟨before.target.nextId, object, ?_, looked, entered, ?_⟩
            · exact grows.keeps new _ (copies_reserved_self before new)
            · rw [installed_get?, if_pos rfl, installed_copyOf]
          · -- Anything else was finished on the way and has a higher number.
            have absent : (before.reserved id).copies[new]? = none := by
              simpa [reserved, Std.TreeMap.getElem?_insert, Ne.symm same] using unknown
            obtain ⟨copy, held, entry, resolved, inside, there⟩ := visited new absent isNew
            refine ⟨copy, held, entry, resolved, inside, ?_⟩
            have high := (grows.fresh new copy absent entry).1
            have differ : before.target.nextId ≠ copy := by
              rintro rfl
              exact Nat.lt_irrefl _ high
            rw [installed_get?, if_neg differ, installed_copyOf, there]
    · rw [copyWithin_known source (depth + 1) known] at done
      cases done
      exact Completes.refl before

end Letterhead.Import
