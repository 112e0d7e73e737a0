import Letterhead.Pdf.Object

/-!
What a dictionary holds under a key after an entry has been set.
-/

namespace Letterhead.Pdf.Dictionary

theorem get?_cons (key sought : Bytes) (value : Object) (rest : Dictionary) :
    get? ((key, value) :: rest) sought = if sought = key then some value else get? rest sought := by
  by_cases same : sought = key
  · simp [get?, same]
  · have differ : (sought == key) = false := by simpa using same
    simp [get?, List.lookup_cons, differ, same]

theorem get?_set (dictionary : Dictionary) (key sought : Bytes) (value : Object) :
    (dictionary.set key value).get? sought =
      if sought = key then some value else dictionary.get? sought := by
  induction dictionary with
  | nil => exact get?_cons key sought value []
  | cons entry rest ih =>
    obtain ⟨held, old⟩ := entry
    by_cases here : held = key
    · subst here
      by_cases same : sought = held <;> simp [set, get?_cons, same]
    · by_cases same : sought = held
      · subst same
        simp [set, get?_cons, here]
      · simp [set, get?_cons, here, same, ih]

-- Where no key stands twice, look-ups find all entries.
theorem get?_eq_some_iff {dictionary : Dictionary} (once : (dictionary.map Prod.fst).Nodup) (key : Bytes)
    (value : Object) : dictionary.get? key = some value ↔ (key, value) ∈ dictionary := by
  induction dictionary with
  | nil => simp [get?]
  | cons entry rest ih =>
    obtain ⟨held, old⟩ := entry
    rw [List.map_cons, List.nodup_cons] at once
    rw [get?_cons, List.mem_cons, Prod.mk.injEq]
    split
    · rename_i same
      subst same
      have absent : (key, value) ∉ rest := by
        intro member
        exact once.1 (List.mem_map.mpr ⟨_, member, rfl⟩)
      simp [absent, eq_comm]
    · rename_i differ
      simp [differ, ih once.2]

end Letterhead.Pdf.Dictionary
