import Letterhead.Proofs.Template.Evaluation
import Mathlib.Logic.Relation

/-!
Copying comes to an end, whatever the source refers to. A task hands on parts of what it works on, and
only to copy an object it goes on to something else. Then the object has been entered into the table
of copies, where it was not before, and there are only so many objects in the source.
-/

namespace Letterhead

open Pdf (Object ObjectId Document LookupFault)

namespace Pdf.Document

variable {document : Document}

/-- Some object of the document refers to the id. -/
def Mentions (document : Document) (id : ObjectId) : Prop :=
  ∃ holder object, document.get? holder = some object ∧ id ∈ object.references

theorem exists_get?_of_follow {steps : Nat} {holder : ObjectId} {held object : Object}
    (there : document.get? holder = some held) (leads : document.follow steps held = .ok object) :
    ∃ id, document.get? id = some object := by
  fun_induction document.follow steps held generalizing holder with
  | case1 | case2 => cases leads
  | case3 id next found steps ih => exact ih found leads
  | case4 => exact ⟨holder, there.trans (congrArg some (Except.ok.inj leads))⟩

theorem mentions_of_lookup {id reference : ObjectId} {object : Object}
    (looked : document.lookup id = .ok object) (inside : reference ∈ object.references) :
    document.Mentions reference := by
  rw [lookup] at looked
  split at looked
  · cases looked
  · rename_i held there
    obtain ⟨holder, found⟩ := exists_get?_of_follow there looked
    exact ⟨holder, object, found, inside⟩

end Pdf.Document

namespace Import

namespace Task

/-- The tasks that work on pieces of what a task works on. -/
def parts : Task → List Task
  | .rename (.reference id) => [.copy id]
  | .rename (.array items) => [.renameItems items]
  | .rename (.dictionary entries) | .rename (.stream entries _) => [.renameEntries entries]
  | .renameItems (item :: rest) => [.rename item, .renameItems rest]
  | .renameEntries ((_, value) :: rest) => [.rename value, .renameEntries rest]
  | _ => []

/-- The ids that what the task works on refers to. -/
def references : Task → List ObjectId
  | .copy id => [id]
  | .rename object => object.references
  | .renameItems items => Object.itemReferences items
  | .renameEntries entries => Object.entryReferences entries

theorem sizeOf_lt_of_mem_parts {part task : Task} (inside : part ∈ task.parts) :
    sizeOf part < sizeOf task := by
  unfold parts at inside
  split at inside <;> simp at inside
  all_goals rcases inside with rfl | rfl <;> simp <;> omega

end Task

/-- A task that is begun in a state, and one that is handed on, with the state that it is begun in. -/
inductive Calls (source : Document) : Task × Import → Task × Import → Prop
  | object {id : ObjectId} {object : Object} {state : Import} : state.copies[id]? = none →
      source.lookup id = .ok object →
      Calls source (.copy id, state) (.rename object, state.reserved id)
  | reference {id : ObjectId} {state : Import} :
      Calls source (.rename (.reference id), state) (.copy id, state)
  | array {items : List Object} {state : Import} :
      Calls source (.rename (.array items), state) (.renameItems items, state)
  | dictionary {entries : List (Pdf.Bytes × Object)} {state : Import} :
      Calls source (.rename (.dictionary entries), state) (.renameEntries entries, state)
  | stream {entries : List (Pdf.Bytes × Object)} {data : Pdf.Bytes} {state : Import} :
      Calls source (.rename (.stream entries data), state) (.renameEntries entries, state)
  | item {item : Object} {rest : List Object} {state : Import} :
      Calls source (.renameItems (item :: rest), state) (.rename item, state)
  | items {item renamed : Object} {rest : List Object} {state middle : Import}
      {trace : List (Task × Import)} :
      Returns source (.rename item) state trace (.ok renamed) middle →
      Calls source (.renameItems (item :: rest), state) (.renameItems rest, middle)
  | entry {key : Pdf.Bytes} {value : Object} {rest : List (Pdf.Bytes × Object)} {state : Import} :
      Calls source (.renameEntries ((key, value) :: rest), state) (.rename value, state)
  | entries {key : Pdf.Bytes} {value renamed : Object} {rest : List (Pdf.Bytes × Object)}
      {state middle : Import} {trace : List (Task × Import)} :
      Returns source (.rename value) state trace (.ok renamed) middle →
      Calls source (.renameEntries ((key, value) :: rest), state) (.renameEntries rest, middle)

variable {source : Document}

theorem Calls.descends {caller callee : Task × Import} (calls : Calls source caller callee) :
    (callee.1 ∈ caller.1.parts ∧ Keeps caller.2 callee.2) ∨
      ∃ id object, caller.1 = .copy id ∧ caller.2.copies[id]? = none ∧
        source.lookup id = .ok object ∧ callee.2 = caller.2.reserved id := by
  cases calls with
  | object unknown looked => exact Or.inr ⟨_, _, rfl, unknown, looked, rfl⟩
  | reference | array | dictionary | stream | item | entry =>
    exact Or.inl ⟨List.mem_cons_self, Keeps.refl _⟩
  | items returns | entries returns =>
    exact Or.inl ⟨List.mem_cons_of_mem _ List.mem_cons_self, returns.keeps⟩

-- With each call fewer objects are left without a copy, or no more, and the task is smaller.
theorem wellFounded_calls (source : Document) :
    WellFounded fun callee caller => Calls source caller callee := by
  let uncopiedThenSize (call : Task × Import) : Nat × Nat :=
    (uncopied source.objects.keys call.2, sizeOf call.1)
  apply Subrelation.wf _ (invImage uncopiedThenSize (Prod.lex Nat.lt_wfRel Nat.lt_wfRel)).wf
  intro callee caller calls
  rcases calls.descends with ⟨inside, keeps⟩ | ⟨id, object, -, unknown, looked, entered⟩
  · exact Prod.Lex.right' _ (uncopied_le keeps _) (Task.sizeOf_lt_of_mem_parts inside)
  · apply Prod.Lex.left
    rw [entered]
    exact uncopied_reserved_lt unknown looked

-- All that a task waits for are tasks that it calls.
theorem returns_of_calls (call : Task × Import)
    (ends : ∀ callee, Calls source call callee →
      ∃ trace outcome after, Returns source callee.1 callee.2 trace outcome after) :
    ∃ trace outcome after, Returns source call.1 call.2 trace outcome after := by
  obtain ⟨task, state⟩ := call
  match task with
  | .copy id =>
    rcases known : state.copies[id]? with _ | copy
    · rcases looked : source.lookup id with fault | object
      · exact ⟨_, _, _, .missing known looked⟩
      · obtain ⟨trace, _ | renamed, after, returns⟩ := ends _ (.object known looked)
        · exact ⟨_, _, _, .broken known looked returns⟩
        · exact ⟨_, _, _, .copied known looked returns⟩
    · exact ⟨_, _, _, .known known⟩
  | .rename (.reference id) =>
    obtain ⟨trace, outcome, after, returns⟩ := ends _ .reference
    exact ⟨_, _, _, .reference returns⟩
  | .rename (.array items) =>
    obtain ⟨trace, outcome, after, returns⟩ := ends _ .array
    exact ⟨_, _, _, .array returns⟩
  | .rename (.dictionary entries) =>
    obtain ⟨trace, outcome, after, returns⟩ := ends _ .dictionary
    exact ⟨_, _, _, .dictionary returns⟩
  | .rename (.stream entries data) =>
    obtain ⟨trace, outcome, after, returns⟩ := ends _ .stream
    exact ⟨_, _, _, .stream returns⟩
  | .rename .null | .rename (.boolean _) | .rename (.integer _) | .rename (.real _)
  | .rename (.name _) | .rename (.literal _) | .rename (.hexadecimal _) =>
    exact ⟨_, _, _, .atomic rfl⟩
  | .renameItems [] => exact ⟨_, _, _, .noItems⟩
  | .renameItems (item :: rest) =>
    obtain ⟨trace, _ | renamed, middle, first⟩ := ends _ .item
    · exact ⟨_, _, _, .brokenItem first⟩
    · obtain ⟨more, outcome, after, others⟩ := ends _ (.items first)
      exact ⟨_, _, _, .item first others⟩
  | .renameEntries [] => exact ⟨_, _, _, .noEntries⟩
  | .renameEntries ((key, value) :: rest) =>
    obtain ⟨trace, _ | renamed, middle, first⟩ := ends _ .entry
    · exact ⟨_, _, _, .brokenEntry first⟩
    · obtain ⟨more, outcome, after, others⟩ := ends _ (.entries first)
      exact ⟨_, _, _, .entry first others⟩

theorem exists_returns (source : Document) (call : Task × Import) :
    ∃ trace outcome after, Returns source call.1 call.2 trace outcome after := by
  induction call using (wellFounded_calls source).induction with
  | _ call ih => exact returns_of_calls call ih

section Trace
variable {task : Task} {before after : Import} {trace : List (Task × Import)}
  {outcome : Except LookupFault task.Answer}

theorem below_of_calls {call callee : Task × Import} (calls : Calls source call callee)
    (below : ∀ later ∈ trace, Relation.ReflTransGen (Calls source) callee later) :
    ∀ later ∈ trace, Relation.ReflTransGen (Calls source) call later :=
  fun later member => (below later member).head calls

-- And nothing is begun on the way but what is called.
theorem Returns.called (returns : Returns source task before trace outcome after) :
    ∀ call ∈ trace, Relation.ReflTransGen (Calls source) (task, before) call := by
  induction returns with
  | known | missing | atomic | noItems | noEntries =>
    exact List.forall_mem_singleton.mpr .refl
  | broken unknown looked _ ih | copied unknown looked _ ih =>
    exact List.forall_mem_cons.mpr ⟨.refl, below_of_calls (.object unknown looked) ih⟩
  | reference _ ih => exact List.forall_mem_cons.mpr ⟨.refl, below_of_calls .reference ih⟩
  | array _ ih => exact List.forall_mem_cons.mpr ⟨.refl, below_of_calls .array ih⟩
  | dictionary _ ih => exact List.forall_mem_cons.mpr ⟨.refl, below_of_calls .dictionary ih⟩
  | stream _ ih => exact List.forall_mem_cons.mpr ⟨.refl, below_of_calls .stream ih⟩
  | brokenItem _ ih => exact List.forall_mem_cons.mpr ⟨.refl, below_of_calls .item ih⟩
  | brokenEntry _ ih => exact List.forall_mem_cons.mpr ⟨.refl, below_of_calls .entry ih⟩
  | item returns _ first later =>
    refine List.forall_mem_cons.mpr ⟨.refl, List.forall_mem_append.mpr ⟨?_, ?_⟩⟩
    · exact below_of_calls .item first
    · exact below_of_calls (.items returns) later
  | entry returns _ first later =>
    refine List.forall_mem_cons.mpr ⟨.refl, List.forall_mem_append.mpr ⟨?_, ?_⟩⟩
    · exact below_of_calls .entry first
    · exact below_of_calls (.entries returns) later

/-! ### Reservations -/

/-- The ids of the log have been entered into a table, each once, and nothing else has. -/
structure Enters (before : Std.TreeMap ObjectId ObjectId) (log : List ObjectId)
    (after : Std.TreeMap ObjectId ObjectId) : Prop where
  once : log.Nodup
  fresh : ∀ id ∈ log, id ∉ before
  mem_iff : ∀ id, id ∈ after ↔ id ∈ before ∨ id ∈ log

namespace Enters

variable {first second third : Std.TreeMap ObjectId ObjectId} {log more : List ObjectId}

theorem nil (table : Std.TreeMap ObjectId ObjectId) : Enters table [] table where
  once := List.nodup_nil
  fresh _ := nofun
  mem_iff _ := by simp

theorem append (one : Enters first log second) (two : Enters second more third) :
    Enters first (log ++ more) third where
  once := by
    refine List.nodup_append.mpr ⟨one.once, two.once, fun id early other late same => ?_⟩
    subst same
    exact two.fresh id late ((one.mem_iff id).mpr (Or.inr early))
  fresh id member := by
    rcases List.mem_append.mp member with early | late
    · exact one.fresh id early
    · exact fun known => two.fresh id late ((one.mem_iff id).mpr (Or.inl known))
  mem_iff id := by rw [two.mem_iff, one.mem_iff, List.mem_append, or_assoc]

end Enters

/-- The ids of the log have been given the next numbers of the target. -/
structure Reserves (before : Import) (log : List ObjectId) (after : Import) : Prop where
  enters : Enters before.copies log after.copies
  lastNumber_eq : after.target.lastNumber = before.target.lastNumber + log.length

namespace Reserves

variable {first second third before after : Import} {log more : List ObjectId}

theorem nil (state : Import) : Reserves state [] state := ⟨.nil state.copies, rfl⟩

theorem append (one : Reserves first log second) (two : Reserves second more third) :
    Reserves first (log ++ more) third where
  enters := one.enters.append two.enters
  lastNumber_eq := by rw [two.lastNumber_eq, one.lastNumber_eq, List.length_append, Nat.add_assoc]

theorem reserved {state : Import} {id : ObjectId} (unknown : state.copies[id]? = none) :
    Reserves state [id] (state.reserved id) where
  enters.once := by simp
  enters.fresh := List.forall_mem_singleton.mpr ((getElem?_eq_none_iff _ _).mp unknown)
  enters.mem_iff sought := by
    rw [Import.reserved, Std.TreeMap.mem_insert, Std.LawfulEqOrd.compare_eq_iff_eq,
      List.mem_singleton, or_comm, eq_comm]
  lastNumber_eq := rfl

end Reserves

/-- The id that is given a number as soon as the task is begun in the state. -/
def entered? : Task × Import → Option ObjectId
  | (.copy id, state) => if id ∈ state.copies then none else some id
  | _ => none

theorem entered?_known {id copy : ObjectId} {state : Import} (known : state.copies[id]? = some copy) :
    entered? (.copy id, state) = none :=
  if_pos (mem_copies.mpr ⟨copy, known⟩)

theorem entered?_unknown {id : ObjectId} {state : Import} (unknown : state.copies[id]? = none) :
    entered? (.copy id, state) = some id :=
  if_neg ((getElem?_eq_none_iff _ _).mp unknown)

theorem Returns.reserves (returns : Returns source task before trace outcome after) :
    Reserves before (trace.filterMap entered?) after := by
  induction returns with
  | known known =>
    rw [List.filterMap_cons_none (entered?_known known)]
    exact .nil _
  | atomic | noItems | noEntries => exact .nil _
  | missing unknown =>
    rw [List.filterMap_cons_some (entered?_unknown unknown)]
    exact .reserved unknown
  | broken unknown _ _ ih =>
    rw [List.filterMap_cons_some (entered?_unknown unknown)]
    exact (Reserves.reserved unknown).append ih
  | copied unknown _ _ ih =>
    -- Putting the copy in its place takes no number.
    rw [List.filterMap_cons_some (entered?_unknown unknown)]
    have taken := (Reserves.reserved unknown).append ih
    exact ⟨taken.enters, taken.lastNumber_eq⟩
  | reference _ ih | array _ ih | dictionary _ ih | stream _ ih => exact ih
  | brokenItem _ ih | brokenEntry _ ih => exact ih
  | item _ _ first later | entry _ _ first later =>
    rw [List.filterMap_cons_none rfl, List.filterMap_append]
    exact first.append later

theorem Returns.mentioned (returns : Returns source task before trace outcome after) :
    ∀ id ∈ trace.filterMap entered?, id ∈ task.references ∨ source.Mentions id := by
  induction returns with
  | known known =>
    rw [List.filterMap_cons_none (entered?_known known)]
    exact nofun
  | atomic | noItems | noEntries => exact nofun
  | missing unknown =>
    rw [List.filterMap_cons_some (entered?_unknown unknown)]
    exact fun id member => Or.inl member
  | broken unknown looked _ ih | copied unknown looked _ ih =>
    rw [List.filterMap_cons_some (entered?_unknown unknown)]
    refine List.forall_mem_cons.mpr ⟨Or.inl List.mem_cons_self, fun id member => Or.inr ?_⟩
    rcases ih id member with inside | mentioned
    · exact Document.mentions_of_lookup looked inside
    · exact mentioned
  | reference _ ih | array _ ih | dictionary _ ih | stream _ ih => exact ih
  | brokenItem _ ih | brokenEntry _ ih =>
    exact fun id member => (ih id member).imp_left (List.mem_append_left _)
  | item _ _ first later | entry _ _ first later =>
    rw [List.filterMap_cons_none rfl, List.filterMap_append]
    intro id member
    rcases List.mem_append.mp member with early | late
    · exact (first id early).imp_left (List.mem_append_left _)
    · exact (later id late).imp_left (List.mem_append_right _)

end Trace

/-- The bound on copies under way, which is above the number of objects, never shows. -/
theorem returns_iff (source : Document) (task : Task) (before : Import)
    (outcome : Except LookupFault task.Answer) (after : Import) :
    (∃ trace, Returns source task before trace outcome after) ↔
      (task.perform source (source.objects.size + 1)).run before = (outcome, after) := by
  have bound := uncopied_keys_lt source before
  constructor
  · rintro ⟨trace, returns⟩
    exact returns.performed bound
  · intro done
    obtain ⟨trace, result, final, returns⟩ := exists_returns source (task, before)
    obtain ⟨rfl, rfl⟩ := Prod.mk.inj ((returns.performed bound).symm.trans done)
    exact ⟨trace, returns⟩

end Import

/-! ### One importer -/

namespace Template

open Import (Task Returns Calls Reserves Enters Keeps)

variable {template : Template} {orders : List (Document × Nat)}
  {copies : Std.TreeMap ObjectId ObjectId} {log : List ObjectId}

/-- The table of an importer after it has imported pages, each into a target that is given. -/
def tableAfter (template : Template) (orders : List (Document × Nat))
    (copies : Std.TreeMap ObjectId ObjectId) : Std.TreeMap ObjectId ObjectId :=
  orders.foldl (fun copies order => (template.importForm order.2 ⟨order.1, copies⟩).2.copies) copies

/-- The ids that are given numbers on the way, one after the other. -/
inductive Serves (template : Template) : List (Document × Nat) → Std.TreeMap ObjectId ObjectId →
    List ObjectId → Prop
  | nil {copies : Std.TreeMap ObjectId ObjectId} : Serves template [] copies []
  | outOfRange {target : Document} {page : Nat} {rest : List (Document × Nat)}
      {copies : Std.TreeMap ObjectId ObjectId} {log : List ObjectId} :
      template.pageId? page = none → Serves template rest copies log →
      Serves template ((target, page) :: rest) copies log
  | page {target : Document} {page : Nat} {id : ObjectId} {rest : List (Document × Nat)}
      {copies : Std.TreeMap ObjectId ObjectId} {trace : List (Task × Import)} {log : List ObjectId}
      {after : Import} {outcome : Except LookupFault Object} : template.pageId? page = some id →
      Returns template.document (.rename (template.resources id)) ⟨target, copies⟩ trace outcome after →
      Serves template rest after.copies log →
      Serves template ((target, page) :: rest) copies (trace.filterMap Import.entered? ++ log)

theorem importForm_copies {page : Nat} {id : ObjectId} {before after : Import}
    {trace : List (Task × Import)} {outcome : Except LookupFault Object}
    (named : template.pageId? page = some id)
    (returns : Returns template.document (.rename (template.resources id)) before trace outcome after) :
    (template.importForm page before).2.copies = after.copies := by
  have done := (Import.returns_iff template.document (.rename (template.resources id)) before outcome
    after).mp ⟨trace, returns⟩
  have renamed : (template.importResources id).run before = (outcome, after) := by
    rw [importResources_run]
    exact (Import.rename_run (Import.copyWithin_remembers template.document _) _ before).symm.trans done
  rw [importForm, named]
  simp only [renamed]
  rcases outcome with _ | _ <;> rfl

theorem Serves.enters (serves : template.Serves orders copies log) :
    Enters copies log (template.tableAfter orders copies) := by
  induction serves with
  | nil => exact .nil _
  | @outOfRange target page rest copies log absent _ ih =>
    have unchanged : (template.importForm page ⟨target, copies⟩).2.copies = copies := by
      rw [importForm, absent]
    rwa [tableAfter, List.foldl_cons, unchanged]
  | page named returns _ ih =>
    rw [tableAfter, List.foldl_cons, importForm_copies named returns]
    exact returns.reserves.enters.append ih

theorem exists_serves (template : Template) (orders : List (Document × Nat))
    (copies : Std.TreeMap ObjectId ObjectId) : ∃ log, template.Serves orders copies log := by
  induction orders generalizing copies with
  | nil => exact ⟨[], .nil⟩
  | cons order rest ih =>
    obtain ⟨target, page⟩ := order
    rcases named : template.pageId? page with _ | id
    · obtain ⟨log, serves⟩ := ih copies
      exact ⟨log, .outOfRange named serves⟩
    · obtain ⟨trace, outcome, after, returns⟩ :=
        Import.exists_returns template.document (.rename (template.resources id), ⟨target, copies⟩)
      obtain ⟨log, serves⟩ := ih after.copies
      exact ⟨_, .page named returns serves⟩

/-- Copying ends in every template, target and table. No chain of calls goes on for ever: each call is
either for a part of what its caller works on or comes after an object of the template has been entered
into the table, where it was not before. So every task ends, in the one way in which importing does
it. On the way it gives numbers only to ids that what it works on or an object of the template refers
to, to each of them once and to none that had one; and an importer, whatever it imports into whatever
targets, gives a number to each id at most once. -/
theorem copying_ends_on_every_graph (template : Template) :
    let source := template.document
    (WellFounded fun callee caller => Calls source caller callee) ∧
    (∀ caller callee, Calls source caller callee →
      (callee.1 ∈ caller.1.parts ∧ sizeOf callee.1 < sizeOf caller.1 ∧ Keeps caller.2 callee.2) ∨
      ∃ id ∈ source.objects, caller.1 = .copy id ∧ id ∉ caller.2.copies ∧
        callee.2 = caller.2.reserved id) ∧
    (∀ task before outcome after, (∃ trace, Returns source task before trace outcome after) ↔
      (task.perform source (source.objects.size + 1)).run before = (outcome, after)) ∧
    (∀ task before trace outcome after, Returns source task before trace outcome after →
      (∀ call ∈ trace, Relation.ReflTransGen (Calls source) (task, before) call) ∧
      let log := trace.filterMap Import.entered?
      Reserves before log after ∧ ∀ id ∈ log, id ∈ task.references ∨ source.Mentions id) ∧
    ∀ orders, (∃ log, template.Serves orders {} log) ∧
      ∀ log, template.Serves orders {} log →
        log.Nodup ∧ ∀ id, id ∈ template.tableAfter orders {} ↔ id ∈ log := by
  intro source
  refine ⟨Import.wellFounded_calls source, fun caller callee calls => ?_, Import.returns_iff source,
    fun task before trace outcome after returns =>
      ⟨returns.called, returns.reserves, returns.mentioned⟩,
    fun orders => ⟨template.exists_serves orders {}, fun log serves => ?_⟩⟩
  · rcases calls.descends with ⟨inside, keeps⟩ | ⟨id, object, same, unknown, looked, entered⟩
    · exact Or.inl ⟨inside, Task.sizeOf_lt_of_mem_parts inside, keeps⟩
    · have there := Std.TreeMap.mem_keys.mp (Import.mem_keys_of_lookup looked)
      have absent := (getElem?_eq_none_iff _ _).mp unknown
      exact Or.inr ⟨id, there, same, absent, entered⟩
  · refine ⟨serves.enters.once, fun id => ?_⟩
    rw [serves.enters.mem_iff]
    exact or_iff_right Std.TreeMap.not_mem_emptyc

-- Both pages draw with the two objects, which refer to each other and to themselves.
theorem ring_gives_each_number_once :
    ∃ log, ring.Serves [({}, 2), ({}, 1)] {} log ∧ log.Perm [⟨5, 0⟩, ⟨6, 0⟩] := by
  obtain ⟨-, -, -, -, served⟩ := copying_ends_on_every_graph ring
  obtain ⟨⟨log, serves⟩, once⟩ := served [({}, 2), ({}, 1)]
  obtain ⟨nodup, entered⟩ := once log serves
  have keys : (ring.tableAfter [({}, 2), ({}, 1)] {}).keys = [⟨5, 0⟩, ⟨6, 0⟩] := by decide +kernel
  refine ⟨log, serves, (List.perm_ext_iff_of_nodup nodup (by decide)).mpr fun id => ?_⟩
  rw [← entered, ← keys, Std.TreeMap.mem_keys]

end Template

end Letterhead
