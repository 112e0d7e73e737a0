import Letterhead.Proofs.Pdf.Extension
import Letterhead.Proofs.Template.Renaming

/-!
What copying does to the target and to the table of copies, whether or not it succeeds: the target
is extended, and every new copy has a number of its own above the old ones.
-/

namespace Letterhead.Import

open Pdf (Object ObjectId Document)

structure Grows (before after : Import) : Prop where
  keeps : Keeps before after
  target : before.target.Extends after.target
  fresh : ∀ id copy : ObjectId, before.copies[id]? = none → after.copies[id]? = some copy →
    before.target.lastNumber < copy.number ∧ copy.number ≤ after.target.lastNumber
  apart : ∀ left right copy : ObjectId, before.copies[left]? = none → before.copies[right]? = none →
    after.copies[left]? = some copy → after.copies[right]? = some copy → left = right

variable {first second third before after : Import}

theorem Grows.refl (state : Import) : Grows state state where
  keeps := Keeps.refl state
  target := Document.Extends.refl state.target
  fresh id copy unknown known := by simp [unknown] at known
  apart left right copy unknown _ known _ := by simp [unknown] at known

theorem Grows.trans (one : Grows first second) (two : Grows second third) : Grows first third where
  keeps := one.keeps.trans two.keeps
  target := one.target.trans two.target
  fresh id copy unknown known := by
    have low := one.target.lastNumber_le
    have high := two.target.lastNumber_le
    rcases between : second.copies[id]? with _ | earlier
    · have bounds := two.fresh id copy between known
      omega
    · obtain rfl : earlier = copy := by simpa [two.keeps id earlier between] using known
      have bounds := one.fresh id earlier unknown between
      omega
  apart left right copy leftNew rightNew leftKnown rightKnown := by
    -- Copies made before `second` have lower numbers than those made after it.
    rcases leftBetween : second.copies[left]? with _ | leftCopy
    · have high := (two.fresh left copy leftBetween leftKnown).1
      rcases rightBetween : second.copies[right]? with _ | rightCopy
      · exact two.apart left right copy leftBetween rightBetween leftKnown rightKnown
      · obtain rfl : rightCopy = copy := by
          simpa [two.keeps right rightCopy rightBetween] using rightKnown
        have low := (one.fresh right rightCopy rightNew rightBetween).2
        omega
    · obtain rfl : leftCopy = copy := by simpa [two.keeps left leftCopy leftBetween] using leftKnown
      have low := (one.fresh left leftCopy leftNew leftBetween).2
      rcases rightBetween : second.copies[right]? with _ | rightCopy
      · have high := (two.fresh right leftCopy rightBetween rightKnown).1
        omega
      · obtain rfl : rightCopy = leftCopy := by
          simpa [two.keeps right rightCopy rightBetween] using rightKnown
        exact one.apart left right rightCopy leftNew rightNew leftBetween rightBetween

theorem reserved_entry {state : Import} {source id copy : ObjectId}
    (unknown : state.copies[id]? = none) (known : (state.reserved source).copies[id]? = some copy) :
    id = source ∧ copy = state.target.nextId := by
  simp only [reserved, Std.TreeMap.getElem?_insert, Std.LawfulEqOrd.compare_eq_iff_eq] at known
  split at known
  · rename_i same
    exact ⟨same.symm, (Option.some.inj known).symm⟩
  · simp [unknown] at known

theorem grows_reserved {state : Import} {source : ObjectId}
    (unknown : state.copies[source]? = none) : Grows state (state.reserved source) where
  keeps := keeps_reserved unknown
  target := state.target.extends_add .null
  fresh id copy new known := by
    obtain ⟨-, rfl⟩ := reserved_entry new known
    exact ⟨Nat.lt_succ_self _, Nat.le_refl _⟩
  apart left right copy leftNew rightNew leftKnown rightKnown :=
    (reserved_entry leftNew leftKnown).1.trans (reserved_entry rightNew rightKnown).1.symm

theorem Grows.install (grows : Grows before after) {copy : ObjectId}
    (fresh : before.target.lastNumber < copy.number)
    (given : copy.number ≤ after.target.lastNumber) (object : Object) :
    Grows before (after.installed copy object) :=
  ⟨grows.keeps, grows.target.insert fresh given object, grows.fresh, grows.apart⟩

def added (state : Import) (object : Object) : Import :=
  { state with target := state.target.add object }

theorem Grows.add (grows : Grows before after) (object : Object) :
    Grows before (after.added object) where
  keeps := grows.keeps
  target := grows.target.trans (after.target.extends_add object)
  fresh id copy unknown known := by
    have bounds := grows.fresh id copy unknown known
    exact ⟨bounds.1, Nat.le_succ_of_le bounds.2⟩
  apart := grows.apart

variable (source : Document)

theorem copyWithin_grows (depth : Nat) (id : ObjectId) (before : Import) :
    Grows before ((copyWithin source depth id).run before).2 := by
  induction depth generalizing id before with
  | zero =>
    rcases known : before.copies[id]? with _ | copy
    · rw [copyWithin_zero source known]
      exact Grows.refl before
    · rw [copyWithin_known source 0 known]
      exact Grows.refl before
  | succ depth ih =>
    rcases known : before.copies[id]? with _ | copy
    · have taken := grows_reserved known
      rcases looked : source.lookup id with fault | object
      · rw [copyWithin_missing source depth known looked]
        exact taken
      · rw [copyWithin_found source depth known looked, rename_run (copyWithin_remembers source depth)]
        have visited := visit_steps Grows.refl Grows.trans ih object.references (before.reserved id)
        rcases outcome : (visit (copyWithin source depth) object.references).run (before.reserved id)
          with ⟨_ | _, after⟩ <;> rw [outcome] at visited
        · exact taken.trans visited
        · -- The reserved number is new to `before`, so filling it in is no change to an old object.
          exact (taken.trans visited).install (Nat.lt_succ_self _) visited.target.lastNumber_le _
    · rw [copyWithin_known source (depth + 1) known]
      exact Grows.refl before

theorem visit_grows (depth : Nat) (ids : List ObjectId) (before : Import) :
    Grows before ((visit (copyWithin source depth) ids).run before).2 :=
  visit_steps Grows.refl Grows.trans (copyWithin_grows source depth) ids before

/-- A copy that is complete is put where nothing has happened to the null that was put there when
the copy was begun, and until then nothing that was there before has changed. -/
theorem copyWithin_fills_placeholder {depth : Nat} {id : ObjectId} {before after : Import}
    {object copied : Object} (unknown : before.copies[id]? = none)
    (found : source.lookup id = .ok object)
    (done : (rename (copyWithin source depth) object).run (before.reserved id) = (.ok copied, after)) :
    (copyWithin source (depth + 1) id).run before =
        (.ok before.target.nextId, after.installed before.target.nextId copied) ∧
      after.target.get? before.target.nextId = some .null ∧
      before.target.Extends after.target := by
  have remembers := copyWithin_remembers source depth
  have run := rename_run remembers object (before.reserved id)
  have grows := visit_grows source depth object.references (before.reserved id)
  rw [done] at run
  rcases outcome : (visit (copyWithin source depth) object.references).run (before.reserved id)
    with ⟨_ | _, visited⟩ <;> rw [outcome] at run grows
  · cases run
  · cases run
    refine ⟨?_, ?_, ?_⟩
    · rw [copyWithin_found source depth unknown found, done]
    · rw [grows.target.get?_eq before.target.nextId (Nat.le_refl _)]
      exact Document.get?_add_self _ _
    · exact (grows_reserved unknown).target.trans grows.target

end Letterhead.Import
