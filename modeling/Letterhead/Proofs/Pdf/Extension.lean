import Letterhead.Pdf.Document

/-!
Documents that only grow. An extension gives out new numbers above the old ones and leaves alone
what had a number before, so an object put in at a new number disturbs nothing.
-/

namespace Letterhead.Pdf.Document

/-- No object has a number that was not given out. -/
def Bounded (document : Document) : Prop :=
  ∀ id, document.get? id ≠ none → id.number ≤ document.lastNumber

structure Extends (before after : Document) : Prop where
  lastNumber_le : before.lastNumber ≤ after.lastNumber
  get?_eq : ∀ id, id.number ≤ before.lastNumber → after.get? id = before.get? id
  bounded : before.Bounded → after.Bounded
  trailer_eq : after.trailer = before.trailer

variable {first second third : Document}

theorem Extends.refl (document : Document) : Extends document document :=
  ⟨Nat.le_refl _, fun _ _ => rfl, id, rfl⟩

theorem Extends.trans (one : Extends first second) (two : Extends second third) :
    Extends first third where
  lastNumber_le := Nat.le_trans one.lastNumber_le two.lastNumber_le
  get?_eq id old := by
    rw [two.get?_eq id (Nat.le_trans old one.lastNumber_le), one.get?_eq id old]
  bounded start := two.bounded (one.bounded start)
  trailer_eq := two.trailer_eq.trans one.trailer_eq

-- The number may be one that an earlier step gave out, as long as `first` did not have it yet.
theorem Extends.insert (grown : Extends first second) {id : ObjectId}
    (fresh : first.lastNumber < id.number) (given : id.number ≤ second.lastNumber)
    (object : Object) : Extends first (second.insert id object) where
  lastNumber_le := grown.lastNumber_le
  get?_eq sought old := by
    have differ : id ≠ sought := by
      rintro rfl
      omega
    rw [get?_insert, if_neg differ, grown.get?_eq sought old]
  bounded start sought present := by
    rw [get?_insert] at present
    by_cases same : id = sought
    · exact same ▸ given
    · rw [if_neg same] at present
      exact grown.bounded start sought present
  trailer_eq := grown.trailer_eq

theorem extends_reserve (document : Document) : Extends document document.reserve where
  lastNumber_le := Nat.le_succ _
  get?_eq _ _ := rfl
  bounded start id present := Nat.le_succ_of_le (start id present)
  trailer_eq := rfl

theorem extends_add (document : Document) (object : Object) :
    Extends document (document.add object) :=
  (extends_reserve document).insert (Nat.lt_succ_self _) (Nat.le_refl _) object

theorem get?_add_self (document : Document) (object : Object) :
    (document.add object).get? document.nextId = some object := by
  rw [add, get?_insert, if_pos rfl]

theorem bounded_empty : ({} : Document).Bounded := by
  intro id present
  exact absurd Std.TreeMap.getElem?_emptyc present

end Letterhead.Pdf.Document
