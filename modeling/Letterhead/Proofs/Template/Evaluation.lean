import Letterhead.Proofs.Template.Reach

/-!
Copying as tasks that hand on tasks, with no bound on how many are under way at once. A task ends in
one way only, and the bounded copier ends in that way whenever its bound is above the number of
objects of the source that have no copy.
-/

namespace Letterhead

open Pdf (Object ObjectId Document LookupFault)

/-- Whether there is no other object inside the object. -/
def Pdf.Object.isAtomic : Object → Bool
  | .reference _ | .array _ | .dictionary _ | .stream _ _ => false
  | _ => true

namespace Import

/-- An object to be copied, or something in which references are to be replaced by those to copies. -/
inductive Task where
  | copy (id : ObjectId)
  | rename (object : Object)
  | renameItems (items : List Object)
  | renameEntries (entries : List (Pdf.Bytes × Object))

namespace Task

abbrev Answer : Task → Type
  | .copy _ => ObjectId
  | .rename _ => Object
  | .renameItems _ => List Object
  | .renameEntries _ => List (Pdf.Bytes × Object)

/-- The task as it is done with at most `depth` copies under way at once. -/
def perform (source : Document) (depth : Nat) : (task : Task) → Copying task.Answer
  | .copy id => copyWithin source depth id
  | .rename object => Import.rename (copyWithin source depth) object
  | .renameItems items => Import.renameItems (copyWithin source depth) items
  | .renameEntries entries => Import.renameEntries (copyWithin source depth) entries

-- What importing calls.
example (source : Document) (object : Object) :
    perform source (source.objects.size + 1) (.rename object) = copyReferences source object := rfl

end Task

/-- How a task ends that is begun in the first of the two states, and all tasks that are begun on the
way, itself the first, with the states that they are begun in. -/
inductive Returns (source : Document) : (task : Task) → Import → List (Task × Import) →
    Except LookupFault task.Answer → Import → Prop
  | known {id copy : ObjectId} {state : Import} : state.copies[id]? = some copy →
      Returns source (.copy id) state [(.copy id, state)] (.ok copy) state
  | missing {id : ObjectId} {state : Import} {fault : LookupFault} : state.copies[id]? = none →
      source.lookup id = .error fault →
      Returns source (.copy id) state [(.copy id, state)] (.error fault) (state.reserved id)
  | broken {id : ObjectId} {object : Object} {state after : Import} {trace : List (Task × Import)}
      {fault : LookupFault} : state.copies[id]? = none → source.lookup id = .ok object →
      Returns source (.rename object) (state.reserved id) trace (.error fault) after →
      Returns source (.copy id) state ((.copy id, state) :: trace) (.error fault) after
  | copied {id : ObjectId} {object renamed : Object} {state after : Import}
      {trace : List (Task × Import)} :
      state.copies[id]? = none → source.lookup id = .ok object →
      Returns source (.rename object) (state.reserved id) trace (.ok renamed) after →
      Returns source (.copy id) state ((.copy id, state) :: trace) (.ok state.target.nextId)
        (after.installed state.target.nextId renamed)
  | reference {id : ObjectId} {state after : Import} {trace : List (Task × Import)}
      {outcome : Except LookupFault ObjectId} :
      Returns source (.copy id) state trace outcome after →
      Returns source (.rename (.reference id)) state ((.rename (.reference id), state) :: trace)
        (outcome.map Object.reference) after
  | array {items : List Object} {state after : Import} {trace : List (Task × Import)}
      {outcome : Except LookupFault (List Object)} :
      Returns source (.renameItems items) state trace outcome after →
      Returns source (.rename (.array items)) state ((.rename (.array items), state) :: trace)
        (outcome.map Object.array) after
  | dictionary {entries : List (Pdf.Bytes × Object)} {state after : Import}
      {trace : List (Task × Import)} {outcome : Except LookupFault (List (Pdf.Bytes × Object))} :
      Returns source (.renameEntries entries) state trace outcome after →
      Returns source (.rename (.dictionary entries)) state
        ((.rename (.dictionary entries), state) :: trace) (outcome.map Object.dictionary) after
  | stream {entries : List (Pdf.Bytes × Object)} {data : Pdf.Bytes} {state after : Import}
      {trace : List (Task × Import)} {outcome : Except LookupFault (List (Pdf.Bytes × Object))} :
      Returns source (.renameEntries entries) state trace outcome after →
      Returns source (.rename (.stream entries data)) state
        ((.rename (.stream entries data), state) :: trace)
        (outcome.map fun renamed => Object.stream renamed data) after
  | atomic {object : Object} {state : Import} : object.isAtomic →
      Returns source (.rename object) state [(.rename object, state)] (.ok object) state
  | noItems {state : Import} :
      Returns source (.renameItems []) state [(.renameItems [], state)] (.ok []) state
  | brokenItem {item : Object} {rest : List Object} {state after : Import}
      {trace : List (Task × Import)} {fault : LookupFault} :
      Returns source (.rename item) state trace (.error fault) after →
      Returns source (.renameItems (item :: rest)) state ((.renameItems (item :: rest), state) :: trace)
        (.error fault) after
  | item {item renamed : Object} {rest : List Object} {state middle after : Import}
      {first later : List (Task × Import)} {outcome : Except LookupFault (List Object)} :
      Returns source (.rename item) state first (.ok renamed) middle →
      Returns source (.renameItems rest) middle later outcome after →
      Returns source (.renameItems (item :: rest)) state
        ((.renameItems (item :: rest), state) :: (first ++ later)) (outcome.map (renamed :: ·)) after
  | noEntries {state : Import} :
      Returns source (.renameEntries []) state [(.renameEntries [], state)] (.ok []) state
  | brokenEntry {key : Pdf.Bytes} {value : Object} {rest : List (Pdf.Bytes × Object)}
      {state after : Import} {trace : List (Task × Import)} {fault : LookupFault} :
      Returns source (.rename value) state trace (.error fault) after →
      Returns source (.renameEntries ((key, value) :: rest)) state
        ((.renameEntries ((key, value) :: rest), state) :: trace) (.error fault) after
  | entry {key : Pdf.Bytes} {value renamed : Object} {rest : List (Pdf.Bytes × Object)}
      {state middle after : Import} {first later : List (Task × Import)}
      {outcome : Except LookupFault (List (Pdf.Bytes × Object))} :
      Returns source (.rename value) state first (.ok renamed) middle →
      Returns source (.renameEntries rest) middle later outcome after →
      Returns source (.renameEntries ((key, value) :: rest)) state
        ((.renameEntries ((key, value) :: rest), state) :: (first ++ later))
        (outcome.map ((key, renamed) :: ·)) after

variable {source : Document} {task : Task} {before after : Import} {trace : List (Task × Import)}
  {outcome : Except LookupFault task.Answer}

theorem Returns.keeps (returns : Returns source task before trace outcome after) :
    Keeps before after := by
  induction returns with
  | known | atomic | noItems | noEntries => exact Keeps.refl _
  | missing unknown => exact keeps_reserved unknown
  | broken unknown _ _ ih | copied unknown _ _ ih => exact (keeps_reserved unknown).trans ih
  | reference _ ih | array _ ih | dictionary _ ih | stream _ ih => exact ih
  | brokenItem _ ih | brokenEntry _ ih => exact ih
  | item _ _ first later | entry _ _ first later => exact first.trans later

theorem map_run {α β : Type} (f : α → β) (action : Copying α) (state : Import) :
    (do return f (← action) : Copying β).run state =
      ((action.run state).1.map f, (action.run state).2) := by
  rw [bind_run]
  rcases action.run state with ⟨_ | _, after⟩ <;> rfl

theorem Returns.performed {depth : Nat} (returns : Returns source task before trace outcome after)
    (bound : uncopied source.objects.keys before < depth) :
    (task.perform source depth).run before = (outcome, after) := by
  induction returns generalizing depth with
  | known known => exact copyWithin_known source depth known
  | missing unknown looked =>
    obtain ⟨depth, rfl⟩ := Nat.exists_eq_add_one_of_ne_zero (Nat.ne_zero_of_lt bound)
    exact copyWithin_missing source depth unknown looked
  | broken unknown looked _ ih | copied unknown looked _ ih =>
    obtain ⟨depth, rfl⟩ := Nat.exists_eq_add_one_of_ne_zero (Nat.ne_zero_of_lt bound)
    -- The object has just been given a number, so one copy less can be under way inside it.
    have fewer := uncopied_reserved_lt unknown looked
    have inner := ih (Nat.lt_of_lt_of_le fewer (Nat.le_of_lt_succ bound))
    simp only [Task.perform] at inner ⊢
    rw [copyWithin_found source depth unknown looked, inner]
  | reference _ ih | array _ ih | dictionary _ ih | stream _ ih =>
    have inner := ih bound
    simp only [Task.perform] at inner ⊢
    rw [rename, map_run, inner]
  | @atomic object state atomic =>
    cases object with
    | reference | array | dictionary | stream => cases atomic
    | _ => rfl
  | noItems | noEntries => rfl
  | brokenItem _ ih =>
    have inner := ih bound
    simp only [Task.perform] at inner ⊢
    rw [renameItems, bind_run, inner]
  | item first _ ih others =>
    have inner := ih bound
    have later := others (Nat.lt_of_le_of_lt (uncopied_le first.keeps _) bound)
    simp only [Task.perform] at inner later ⊢
    rw [renameItems, bind_run, inner]
    dsimp only
    rw [map_run, later]
  | brokenEntry _ ih =>
    have inner := ih bound
    simp only [Task.perform] at inner ⊢
    rw [renameEntries, bind_run, inner]
  | entry first _ ih others =>
    have inner := ih bound
    have later := others (Nat.lt_of_le_of_lt (uncopied_le first.keeps _) bound)
    simp only [Task.perform] at inner later ⊢
    rw [renameEntries, bind_run, inner]
    dsimp only
    rw [map_run, later]

end Import

end Letterhead
