import Letterhead.Pdf.Object

/-!
The references inside an object, at any depth and from left to right, and the object with each of
them replaced. Streams keep their data.
-/

namespace Letterhead.Pdf.Object

mutual

def references : Object → List ObjectId
  | .reference id => [id]
  | .array items => itemReferences items
  | .dictionary entries | .stream entries _ => entryReferences entries
  | _ => []

def itemReferences : List Object → List ObjectId
  | [] => []
  | item :: rest => item.references ++ itemReferences rest

def entryReferences : List (Bytes × Object) → List ObjectId
  | [] => []
  | (_, value) :: rest => value.references ++ entryReferences rest

end

variable (f : ObjectId → ObjectId)

mutual

def mapReferences : Object → Object
  | .reference id => .reference (f id)
  | .array items => .array (mapItems items)
  | .dictionary entries => .dictionary (mapEntries entries)
  | .stream entries data => .stream (mapEntries entries) data
  | object => object

def mapItems : List Object → List Object
  | [] => []
  | item :: rest => item.mapReferences :: mapItems rest

def mapEntries : List (Bytes × Object) → List (Bytes × Object)
  | [] => []
  | (key, value) :: rest => (key, value.mapReferences) :: mapEntries rest

end

variable {f} {g : ObjectId → ObjectId}

mutual

-- Only what happens to the references of an object matters to the object.
theorem mapReferences_congr (object : Object) (agree : ∀ id ∈ object.references, f id = g id) :
    object.mapReferences f = object.mapReferences g := by
  match object with
  | .reference id => simpa [references, mapReferences] using agree
  | .array items =>
    rw [mapReferences, mapReferences, mapItems_congr items agree]
  | .dictionary entries =>
    rw [mapReferences, mapReferences, mapEntries_congr entries agree]
  | .stream entries data =>
    rw [mapReferences, mapReferences, mapEntries_congr entries agree]
  | .null | .boolean _ | .integer _ | .real _ | .name _ | .literal _ | .hexadecimal _ => rfl

theorem mapItems_congr (items : List Object) (agree : ∀ id ∈ itemReferences items, f id = g id) :
    mapItems f items = mapItems g items := by
  match items with
  | [] => rfl
  | item :: rest =>
    simp only [itemReferences, List.mem_append] at agree
    have here := mapReferences_congr item fun id found => agree id (Or.inl found)
    have later := mapItems_congr rest fun id found => agree id (Or.inr found)
    rw [mapItems, mapItems, here, later]

theorem mapEntries_congr (entries : List (Bytes × Object))
    (agree : ∀ id ∈ entryReferences entries, f id = g id) :
    mapEntries f entries = mapEntries g entries := by
  match entries with
  | [] => rfl
  | (key, value) :: rest =>
    simp only [entryReferences, List.mem_append] at agree
    have here := mapReferences_congr value fun id found => agree id (Or.inl found)
    have later := mapEntries_congr rest fun id found => agree id (Or.inr found)
    rw [mapEntries, mapEntries, here, later]

end

end Letterhead.Pdf.Object
