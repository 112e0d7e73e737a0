import Letterhead.Proofs.Pdf.Extension
import Letterhead.Proofs.Pdf.Reference
import Mathlib.Data.Set.Card
import Mathlib.Data.Set.Finite.Range
import Mathlib.Logic.Equiv.Fintype
import Mathlib.Order.Interval.Finset.Nat

/-!
Documents that differ only in how their objects are numbered. Two ways to number the same finitely
many things are related by a renumbering of all ids.
-/

namespace Letterhead.Pdf

namespace Object

variable (f g : ObjectId → ObjectId)

mutual

theorem mapReferences_mapReferences (object : Object) :
    (object.mapReferences f).mapReferences g = object.mapReferences (g ∘ f) := by
  match object with
  | .reference id => rfl
  | .array items => simp only [mapReferences, mapItems_mapItems items]
  | .dictionary entries => simp only [mapReferences, mapEntries_mapEntries entries]
  | .stream entries data => simp only [mapReferences, mapEntries_mapEntries entries]
  | .null | .boolean _ | .integer _ | .real _ | .name _ | .literal _ | .hexadecimal _ => rfl

theorem mapItems_mapItems (items : List Object) :
    mapItems g (mapItems f items) = mapItems (g ∘ f) items := by
  match items with
  | [] => rfl
  | item :: rest => simp only [mapItems, mapReferences_mapReferences item, mapItems_mapItems rest]

theorem mapEntries_mapEntries (entries : List (Bytes × Object)) :
    mapEntries g (mapEntries f entries) = mapEntries (g ∘ f) entries := by
  match entries with
  | [] => rfl
  | (key, value) :: rest =>
    simp only [mapEntries, mapReferences_mapReferences value, mapEntries_mapEntries rest]

end

theorem mapItems_reals (values : List Float32) : mapItems f (values.map .real) = values.map .real := by
  induction values with
  | nil => rfl
  | cons value rest ih => simp only [List.map_cons, mapItems, mapReferences, ih]

end Object

namespace Document

def ids (document : Document) : Set ObjectId := {id | document.get? id ≠ none}

theorem ids_eq_keys (document : Document) : document.ids = ↑document.objects.keys.toFinset := by
  ext id
  simp only [ids, get?, Set.mem_ofPred_eq, List.coe_toFinset, Std.TreeMap.mem_keys,
    Std.TreeMap.mem_iff_isSome_getElem?, Option.isSome_iff_ne_none]

theorem finite_ids (document : Document) : document.ids.Finite := by
  rw [ids_eq_keys]
  exact Finset.finite_toSet _

theorem size_eq_ncard (document : Document) : document.objects.size = document.ids.ncard := by
  rw [ids_eq_keys, Set.ncard_coe_finset, List.toFinset_card_of_nodup Std.TreeMap.nodup_keys,
    Std.TreeMap.length_keys]

theorem mem_ids_insert {document : Document} {held id : ObjectId} {object : Object} :
    id ∈ (document.insert held object).ids ↔ id = held ∨ id ∈ document.ids := by
  simp only [ids, Set.mem_ofPred_eq, get?_insert]
  by_cases same : held = id
  · simp [same]
  · simp [same, Ne.symm same]

theorem mem_ids_add {document : Document} {id : ObjectId} {object : Object} :
    id ∈ (document.add object).ids ↔ id = document.nextId ∨ id ∈ document.ids :=
  @mem_ids_insert document.reserve document.nextId id object

/-- The objects have the numbers from `base` to the last, without a gap. -/
structure Consecutive (base : Nat) (document : Document) : Prop where
  base_le : base ≤ document.lastNumber
  mem_ids_iff : ∀ id, id ∈ document.ids ↔
    id.generation = 0 ∧ base < id.number ∧ id.number ≤ document.lastNumber

namespace Consecutive

variable {base : Nat} {document : Document}

theorem of_empty (empty : ∀ id, document.get? id = none) :
    document.Consecutive document.lastNumber where
  base_le := Nat.le_refl _
  mem_ids_iff id := by
    simp only [ids, Set.mem_ofPred_eq, empty, ne_eq, not_true_eq_false, false_iff]
    omega

theorem nextId_not_mem (consecutive : document.Consecutive base) : document.nextId ∉ document.ids := by
  intro there
  exact Nat.not_succ_le_self _ ((consecutive.mem_ids_iff _).mp there).2.2

theorem add (consecutive : document.Consecutive base) (object : Object) :
    (document.add object).Consecutive base where
  base_le := Nat.le_succ_of_le consecutive.base_le
  mem_ids_iff id := by
    have low := consecutive.base_le
    obtain ⟨number, generation⟩ := id
    have last : (document.add object).lastNumber = document.lastNumber + 1 := rfl
    rw [mem_ids_add, consecutive.mem_ids_iff, nextId, ObjectId.mk.injEq, last]
    dsimp only
    omega

theorem insert (consecutive : document.Consecutive base) {id : ObjectId} (there : id ∈ document.ids)
    (object : Object) : (document.insert id object).Consecutive base where
  base_le := consecutive.base_le
  mem_ids_iff sought := by
    rw [mem_ids_insert, or_iff_right_of_imp fun same => same ▸ there]
    exact consecutive.mem_ids_iff sought

theorem lastNumber_eq (consecutive : document.Consecutive base) :
    document.lastNumber = base + document.ids.ncard := by
  have numbered : document.ids =
      (fun number => ⟨number, 0⟩) '' (Finset.Ioc base document.lastNumber : Set Nat) := by
    ext id
    obtain ⟨number, generation⟩ := id
    simp [consecutive.mem_ids_iff, and_comm, eq_comm]
  have apart : Function.Injective fun number => (⟨number, 0⟩ : ObjectId) :=
    fun _ _ same => congrArg ObjectId.number same
  have low := consecutive.base_le
  rw [numbered, Set.ncard_image_of_injective _ apart, Set.ncard_coe_finset, Nat.card_Ioc]
  omega

end Consecutive

/-- Equal but for the ids of the objects, wherever these stand. The trailers are the same. -/
structure Renumbered (renumbering : Equiv.Perm ObjectId) (before after : Document) : Prop where
  get?_eq : ∀ id, after.get? (renumbering id) = (before.get? id).map (Object.mapReferences renumbering)
  lastNumber_eq : after.lastNumber = before.lastNumber
  trailer_eq : after.trailer = before.trailer

end Document

/-- Two ways to number the same things. -/
theorem exists_renumbering {Thing : Type} [Finite Thing] {first second : Thing → ObjectId}
    (apart : Function.Injective first) (alsoApart : Function.Injective second) :
    ∃ renumbering : Equiv.Perm ObjectId, ∀ thing, renumbering (first thing) = second thing := by
  classical
  have : Finite ↑{id | id ∈ Set.range first} := Set.finite_range first
  let matched := (Equiv.ofInjective first apart).symm.trans (Equiv.ofInjective second alsoApart)
  refine ⟨matched.extendSubtype, fun thing => ?_⟩
  have here : (⟨first thing, Set.mem_range_self thing⟩ : Set.range first) =
      Equiv.ofInjective first apart thing := rfl
  rw [Equiv.extendSubtype_apply_of_mem matched _ (Set.mem_range_self thing), here,
    Equiv.trans_apply, Equiv.symm_apply_apply, Equiv.ofInjective_apply]

end Letterhead.Pdf
