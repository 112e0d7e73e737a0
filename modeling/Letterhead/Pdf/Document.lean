import Std.Data.TreeMap.Lemmas
import Letterhead.Pdf.Object

/-!
A PDF document in memory: numbered objects and a trailer. New objects take the next number above
all that were given out. Looking up an object follows references to the end.
-/

namespace Letterhead.Pdf

/-- By number, then by generation. -/
instance : Ord ObjectId where
  compare := compareLex (compareOn ObjectId.number) (compareOn ObjectId.generation)

instance : Std.TransOrd ObjectId :=
  inferInstanceAs
    (Std.TransCmp (compareLex (compareOn ObjectId.number) (compareOn ObjectId.generation)))

instance : Std.LawfulEqOrd ObjectId where
  eq_of_compare {left right} same := by
    obtain ⟨n, g⟩ := left
    obtain ⟨m, k⟩ := right
    have both : (compare n m).then (compare g k) = .eq := same
    simp only [Ordering.then_eq_eq, Nat.compare_eq_eq] at both
    rw [both.1, both.2]

structure Document where
  objects : Std.TreeMap ObjectId Object := {}
  /-- The highest object number given out. -/
  lastNumber : Nat := 0
  trailer : Dictionary := []

inductive LookupFault where
  | missing (id : ObjectId)
  | referenceLimit
deriving DecidableEq, Repr

def LookupFault.message : LookupFault → String
  | .missing id => "object ID " ++ toString id.number ++ " " ++ toString id.generation ++ " not found"
  | .referenceLimit => "dereferencing object reached limit, may indicate a reference cycle"

namespace Document

def get? (document : Document) (id : ObjectId) : Option Object := document.objects[id]?

def insert (document : Document) (id : ObjectId) (object : Object) : Document :=
  { document with objects := document.objects.insert id object }

def nextId (document : Document) : ObjectId := ⟨document.lastNumber + 1, 0⟩

def reserve (document : Document) : Document :=
  { document with lastNumber := document.lastNumber + 1 }

/-- The new object is `document.nextId`. -/
def add (document : Document) (object : Object) : Document :=
  document.reserve.insert document.nextId object

/-- How many references in a row are followed. -/
def referenceLimit : Nat := 128

def follow (document : Document) : Nat → Object → Except LookupFault Object
  | steps, .reference id =>
    match document.get? id with
    | none => .error (.missing id)
    | some object =>
      match steps with
      | 0 => .error .referenceLimit
      | steps + 1 => document.follow steps object
  | _, object => .ok object

def resolve (document : Document) (object : Object) : Except LookupFault Object :=
  document.follow referenceLimit object

def lookup (document : Document) (id : ObjectId) : Except LookupFault Object :=
  match document.get? id with
  | none => .error (.missing id)
  | some object => document.resolve object

def dictionary? (document : Document) (id : ObjectId) : Option Dictionary :=
  (document.lookup id).toOption.bind Object.asDictionary?

theorem get?_insert (document : Document) (id sought : ObjectId) (object : Object) :
    (document.insert id object).get? sought =
      if id = sought then some object else document.get? sought := by
  simp [insert, get?, Std.TreeMap.getElem?_insert]

end Document

end Letterhead.Pdf
