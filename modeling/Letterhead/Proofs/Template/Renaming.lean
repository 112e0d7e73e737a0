import Letterhead.Proofs.Pdf.Reference
import Letterhead.Template.Import

/-!
Copying step by step. Renaming an object comes down to copying the objects that it refers to, one
after the other: the nesting of arrays, dictionaries and streams does not matter. The table of
copies only grows, so what the table says in the end is what each reference was replaced with.
-/

namespace Letterhead.Import

open Pdf (Object ObjectId Document LookupFault)

theorem pure_run {α : Type} (value : α) (state : Import) :
    (pure value : Copying α).run state = (.ok value, state) := rfl

theorem bind_run {α β : Type} (action : Copying α) (next : α → Copying β) (state : Import) :
    (action >>= next).run state =
      match action.run state with
      | (.ok value, after) => (next value).run after
      | (.error fault, after) => (.error fault, after) := by
  simp only [bind, ExceptT.bind, ExceptT.mk, ExceptT.run, StateT.bind, ExceptT.bindCont]
  rcases action state with ⟨_ | _, after⟩ <;> rfl

/-- The copy of an object, or its own id while it has none. -/
def copyOf (state : Import) (id : ObjectId) : ObjectId := (state.copies[id]?).getD id

/-- Objects that have a copy keep that copy. -/
def Keeps (before after : Import) : Prop :=
  ∀ id copy : ObjectId, before.copies[id]? = some copy → after.copies[id]? = some copy

theorem Keeps.refl (state : Import) : Keeps state state := fun _ _ known => known

theorem Keeps.trans {first second third : Import} (one : Keeps first second)
    (two : Keeps second third) : Keeps first third :=
  fun id copy known => two id copy (one id copy known)

theorem Keeps.mem {before after : Import} (keeps : Keeps before after) {id : ObjectId}
    (known : id ∈ before.copies) : id ∈ after.copies := by
  rw [Std.TreeMap.mem_iff_isSome_getElem?] at known ⊢
  obtain ⟨copy, found⟩ := Option.isSome_iff_exists.mp known
  rw [keeps id copy found]
  rfl

theorem Keeps.copyOf_eq {before after : Import} (keeps : Keeps before after) {id : ObjectId}
    (known : id ∈ before.copies) : before.copyOf id = after.copyOf id := by
  rw [Std.TreeMap.mem_iff_isSome_getElem?] at known
  obtain ⟨copy, found⟩ := Option.isSome_iff_exists.mp known
  simp [copyOf, found, keeps id copy found]

/-- What a copier has to do with the table of copies: enter its results and change no entry. -/
def Remembers (copy : ObjectId → Copying ObjectId) : Prop :=
  ∀ id before, Keeps before ((copy id).run before).2 ∧
    ∀ found, ((copy id).run before).1 = .ok found →
      ((copy id).run before).2.copies[id]? = some found

/-- Copies one object after the other. -/
def visit (copy : ObjectId → Copying ObjectId) : List ObjectId → Copying Unit
  | [] => return ()
  | id :: rest => do
    let _ ← copy id
    visit copy rest

section Renaming
variable {copy : ObjectId → Copying ObjectId}

theorem visit_append (first second : List ObjectId) (state : Import) :
    (visit copy (first ++ second)).run state =
      match (visit copy first).run state with
      | (.ok (), after) => (visit copy second).run after
      | (.error fault, after) => (.error fault, after) := by
  induction first generalizing state with
  | nil => rfl
  | cons id rest ih =>
    simp only [List.cons_append, visit, bind_run]
    rcases (copy id).run state with ⟨_ | _, after⟩
    · rfl
    · exact ih after

-- Whatever one copy does to the state, if it can be repeated, is what a visit does to it.
theorem visit_steps {Step : Import → Import → Prop} (refl : ∀ state, Step state state)
    (trans : ∀ {first second third}, Step first second → Step second third → Step first third)
    (step : ∀ id before, Step before ((copy id).run before).2) (ids : List ObjectId)
    (before : Import) : Step before ((visit copy ids).run before).2 := by
  induction ids generalizing before with
  | nil => exact refl before
  | cons id rest ih =>
    have here := step id before
    simp only [visit, bind_run]
    rcases outcome : (copy id).run before with ⟨_ | _, after⟩ <;> rw [outcome] at here
    · exact here
    · exact trans here (ih after)

theorem visit_keeps (remembers : Remembers copy) (ids : List ObjectId) (before : Import) :
    Keeps before ((visit copy ids).run before).2 :=
  visit_steps Keeps.refl Keeps.trans (fun id state => (remembers id state).1) ids before

theorem visit_known (remembers : Remembers copy) (ids : List ObjectId) (before after : Import)
    (done : (visit copy ids).run before = (.ok (), after)) : ∀ id ∈ ids, id ∈ after.copies := by
  induction ids generalizing before with
  | nil => simp
  | cons id rest ih =>
    simp only [visit, bind_run] at done
    have entered := (remembers id before).2
    rcases outcome : (copy id).run before with ⟨_ | found, middle⟩
    · simp only [outcome] at done
      cases done
    · simp only [outcome] at done entered
      have known : id ∈ middle.copies := by
        rw [Std.TreeMap.mem_iff_isSome_getElem?, entered found rfl]
        rfl
      have keeps := visit_keeps remembers rest middle
      rw [done] at keeps
      intro sought member
      rcases List.mem_cons.mp member with rfl | later
      · exact keeps.mem known
      · exact ih middle done sought later

mutual

/-- Renaming an object is copying what it refers to and then replacing the references by what the
table of copies says in the end. -/
theorem rename_run (remembers : Remembers copy) (object : Object) (before : Import) :
    (rename copy object).run before =
      match (visit copy object.references).run before with
      | (.ok (), after) => (.ok (object.mapReferences after.copyOf), after)
      | (.error fault, after) => (.error fault, after) := by
  match object with
  | .reference id =>
    simp only [rename, Object.references, visit, bind_run, pure_run]
    have entered := (remembers id before).2
    rcases outcome : (copy id).run before with ⟨_ | found, after⟩
    · rfl
    · simp only [outcome] at entered
      simp [Object.mapReferences, copyOf, entered found rfl]
  | .array items =>
    simp only [rename, Object.references, bind_run, pure_run, renameItems_run remembers items before]
    rcases (visit copy (Object.itemReferences items)).run before with ⟨_ | _, after⟩ <;> rfl
  | .dictionary entries =>
    simp only [rename, Object.references, bind_run, pure_run, renameEntries_run remembers entries before]
    rcases (visit copy (Object.entryReferences entries)).run before with ⟨_ | _, after⟩ <;> rfl
  | .stream entries data =>
    simp only [rename, Object.references, bind_run, pure_run, renameEntries_run remembers entries before]
    rcases (visit copy (Object.entryReferences entries)).run before with ⟨_ | _, after⟩ <;> rfl
  | .null | .boolean _ | .integer _ | .real _ | .name _ | .literal _ | .hexadecimal _ => rfl

theorem renameItems_run (remembers : Remembers copy) (items : List Object) (before : Import) :
    (renameItems copy items).run before =
      match (visit copy (Object.itemReferences items)).run before with
      | (.ok (), after) => (.ok (Object.mapItems after.copyOf items), after)
      | (.error fault, after) => (.error fault, after) := by
  match items with
  | [] => rfl
  | item :: rest =>
    simp only [renameItems, Object.itemReferences, bind_run, pure_run, visit_append,
      rename_run remembers item before]
    rcases first : (visit copy item.references).run before with ⟨_ | _, middle⟩
    · rfl
    · simp only [renameItems_run remembers rest middle]
      have keeps := visit_keeps remembers (Object.itemReferences rest) middle
      rcases second : (visit copy (Object.itemReferences rest)).run middle with ⟨_ | _, after⟩
      · rfl
      · rw [second] at keeps
        have known := visit_known remembers item.references before middle first
        simp only [Object.mapItems, Object.mapReferences_congr item fun id found =>
          keeps.copyOf_eq (known id found)]

theorem renameEntries_run (remembers : Remembers copy) (entries : List (Pdf.Bytes × Object))
    (before : Import) :
    (renameEntries copy entries).run before =
      match (visit copy (Object.entryReferences entries)).run before with
      | (.ok (), after) => (.ok (Object.mapEntries after.copyOf entries), after)
      | (.error fault, after) => (.error fault, after) := by
  match entries with
  | [] => rfl
  | (key, value) :: rest =>
    simp only [renameEntries, Object.entryReferences, bind_run, pure_run, visit_append,
      rename_run remembers value before]
    rcases first : (visit copy value.references).run before with ⟨_ | _, middle⟩
    · rfl
    · simp only [renameEntries_run remembers rest middle]
      have keeps := visit_keeps remembers (Object.entryReferences rest) middle
      rcases second : (visit copy (Object.entryReferences rest)).run middle with ⟨_ | _, after⟩
      · rfl
      · rw [second] at keeps
        have known := visit_known remembers value.references before middle first
        simp only [Object.mapEntries, Object.mapReferences_congr value fun id found =>
          keeps.copyOf_eq (known id found)]

end

end Renaming


/-! ### One copy -/

/-- A number taken for a copy that is not there yet. -/
def reserved (state : Import) (source : ObjectId) : Import where
  target := state.target.add .null
  copies := state.copies.insert source state.target.nextId

def installed (state : Import) (copy : ObjectId) (object : Object) : Import :=
  { state with target := state.target.insert copy object }

theorem installed_copyOf (state : Import) (copy : ObjectId) (object : Object) :
    (state.installed copy object).copyOf = state.copyOf := rfl

theorem installed_get? (state : Import) (copy sought : ObjectId) (object : Object) :
    (state.installed copy object).target.get? sought =
      if copy = sought then some object else state.target.get? sought :=
  Document.get?_insert state.target copy sought object

theorem keeps_reserved {state : Import} {source : ObjectId}
    (unknown : state.copies[source]? = none) : Keeps state (state.reserved source) := by
  intro id copy known
  have differ : source ≠ id := by
    rintro rfl
    simp [known] at unknown
  simpa [reserved, Std.TreeMap.getElem?_insert, differ] using known

theorem copies_reserved_self (state : Import) (source : ObjectId) :
    (state.reserved source).copies[source]? = some state.target.nextId := by
  simp [reserved]

variable (source : Document)

theorem get_run (state : Import) : (get : Copying Import).run state = (.ok state, state) := rfl

theorem reserve_run (state : Import) (id : ObjectId) :
    (reserve id).run state = (.ok state.target.nextId, state.reserved id) := rfl

theorem liftExcept_run {α : Type} (result : Except LookupFault α) (state : Import) :
    @ExceptT.run LookupFault (StateM Import) α (copyWithin.liftExcept result) state =
      (result, state) := rfl

theorem copyWithin_known {state : Import} {id copy : ObjectId} (depth : Nat)
    (known : state.copies[id]? = some copy) :
    (copyWithin source depth id).run state = (.ok copy, state) := by
  cases depth <;> simp only [copyWithin, bind_run, get_run, known, pure_run]

theorem copyWithin_zero {state : Import} {id : ObjectId} (unknown : state.copies[id]? = none) :
    (copyWithin source 0 id).run state = (.error .referenceLimit, state) := by
  simp only [copyWithin, bind_run, get_run, unknown]
  rfl

theorem copyWithin_missing {state : Import} {id : ObjectId} (depth : Nat)
    (unknown : state.copies[id]? = none) {fault : LookupFault}
    (missing : source.lookup id = .error fault) :
    (copyWithin source (depth + 1) id).run state = (.error fault, state.reserved id) := by
  simp only [copyWithin, bind_run, get_run, unknown, missing, reserve_run, liftExcept_run]

theorem copyWithin_found {state : Import} {id : ObjectId} (depth : Nat)
    (unknown : state.copies[id]? = none) {object : Object} (found : source.lookup id = .ok object) :
    (copyWithin source (depth + 1) id).run state =
      match (rename (copyWithin source depth) object).run (state.reserved id) with
      | (.ok copied, after) => (.ok state.target.nextId, after.installed state.target.nextId copied)
      | (.error fault, after) => (.error fault, after) := by
  simp only [copyWithin, bind_run, get_run, unknown, found, reserve_run, liftExcept_run]
  rcases (rename (copyWithin source depth) object).run (state.reserved id) with ⟨_ | _, after⟩ <;> rfl

theorem copyWithin_remembers (depth : Nat) : Remembers (copyWithin source depth) := by
  induction depth with
  | zero =>
    intro id before
    rcases known : before.copies[id]? with _ | copy
    · rw [copyWithin_zero source known]
      exact ⟨Keeps.refl before, nofun⟩
    · rw [copyWithin_known source 0 known]
      exact ⟨Keeps.refl before, by rintro _ ⟨⟩; exact known⟩
  | succ depth ih =>
    intro id before
    rcases known : before.copies[id]? with _ | copy
    · have taken := keeps_reserved known
      rcases looked : source.lookup id with fault | object
      · rw [copyWithin_missing source depth known looked]
        exact ⟨taken, nofun⟩
      · rw [copyWithin_found source depth known looked, rename_run ih]
        have visited := visit_keeps ih object.references (before.reserved id)
        rcases outcome : (visit (copyWithin source depth) object.references).run (before.reserved id)
          with ⟨_ | _, after⟩
        · rw [outcome] at visited
          exact ⟨taken.trans visited, nofun⟩
        · rw [outcome] at visited
          constructor
          · exact taken.trans visited
          · rintro _ ⟨⟩
            exact visited id _ (copies_reserved_self before id)
    · rw [copyWithin_known source (depth + 1) known]
      constructor
      · exact Keeps.refl before
      · rintro _ ⟨⟩
        exact known

/-! ### What copying leaves true -/

section Preserved
variable {source : Document} {wanted : ObjectId → Prop} {P : Import → Prop}

theorem visit_preserves {copy : ObjectId → Copying ObjectId} {ids : List ObjectId}
    (each : ∀ id ∈ ids, ∀ before, P before → P ((copy id).run before).2) {before : Import}
    (start : P before) : P ((visit copy ids).run before).2 := by
  induction ids generalizing before with
  | nil => exact start
  | cons id rest ih =>
    have here := each id List.mem_cons_self before start
    simp only [visit, bind_run]
    rcases outcome : (copy id).run before with ⟨_ | _, after⟩ <;> rw [outcome] at here
    · exact here
    · exact ih (fun later member => each later (List.mem_cons_of_mem id member)) here

variable (source wanted) in
/-- What is wanted resolves to objects that refer only to what is wanted. -/
def ClosedUnder : Prop :=
  ∀ id object, wanted id → source.lookup id = .ok object →
    ∀ reference ∈ object.references, wanted reference

/-- What is true before something wanted is copied is true after it, if no number that is taken and
no copy that is put in its place makes it false. -/
theorem copyWithin_preserves (closed : ClosedUnder source wanted)
    (reserves : ∀ state id, wanted id → state.copies[id]? = none → P state → P (state.reserved id))
    (installs : ∀ state, ∀ id copy : ObjectId, ∀ object : Object, state.copies[id]? = some copy →
      (∀ reference ∈ object.references, reference ∈ state.copies) → P state →
      P (state.installed copy (object.mapReferences state.copyOf)))
    (depth : Nat) {id : ObjectId} (isWanted : wanted id) {before : Import} (start : P before) :
    P ((copyWithin source depth id).run before).2 := by
  induction depth generalizing id before with
  | zero =>
    rcases known : before.copies[id]? with _ | copy
    · rw [copyWithin_zero source known]
      exact start
    · rw [copyWithin_known source 0 known]
      exact start
  | succ depth ih =>
    rcases known : before.copies[id]? with _ | copy
    · have taken := reserves before id isWanted known start
      rcases looked : source.lookup id with fault | object
      · rw [copyWithin_missing source depth known looked]
        exact taken
      · have remembers := copyWithin_remembers source depth
        have inside := closed id object isWanted looked
        have visited : P ((visit (copyWithin source depth) object.references).run
            (before.reserved id)).2 :=
          visit_preserves (fun reference found _ => ih (inside reference found)) taken
        have keeps := visit_keeps remembers object.references (before.reserved id)
        rw [copyWithin_found source depth known looked, rename_run remembers]
        rcases outcome : (visit (copyWithin source depth) object.references).run (before.reserved id)
          with ⟨_ | _, after⟩ <;> rw [outcome] at visited keeps
        · exact visited
        · exact installs after id _ object (keeps id _ (copies_reserved_self before id))
            (visit_known remembers object.references _ after outcome) visited
    · rw [copyWithin_known source (depth + 1) known]
      exact start

end Preserved

end Letterhead.Import
