import Letterhead.Proofs.Template.Forms

/-!
Targets without dangling references. An import may stop half way, with numbers taken for copies
that never came. They hold null and can be referred to, so a target stays closed under references
whatever becomes of an import, and a later import fills none of them: it only adds objects.
-/

namespace Letterhead

open Pdf (Object ObjectId Dictionary Document)
open Import (visit copyWithin)

namespace Pdf.Object

variable (f : ObjectId → ObjectId)

mutual

theorem references_mapReferences (object : Object) :
    (object.mapReferences f).references = object.references.map f := by
  match object with
  | .reference id => simp [mapReferences, references]
  | .array items => simp only [mapReferences, references, itemReferences_mapItems items]
  | .dictionary entries => simp only [mapReferences, references, entryReferences_mapEntries entries]
  | .stream entries data => simp only [mapReferences, references, entryReferences_mapEntries entries]
  | .null | .boolean _ | .integer _ | .real _ | .name _ | .literal _ | .hexadecimal _ => rfl

theorem itemReferences_mapItems (items : List Object) :
    itemReferences (mapItems f items) = (itemReferences items).map f := by
  match items with
  | [] => rfl
  | item :: rest =>
    simp only [mapItems, itemReferences, List.map_append, references_mapReferences item,
      itemReferences_mapItems rest]

theorem entryReferences_mapEntries (entries : List (Bytes × Object)) :
    entryReferences (mapEntries f entries) = (entryReferences entries).map f := by
  match entries with
  | [] => rfl
  | (key, value) :: rest =>
    simp only [mapEntries, entryReferences, List.map_append, references_mapReferences value,
      entryReferences_mapEntries rest]

end

theorem itemReferences_reals (values : List Float32) : itemReferences (values.map .real) = [] := by
  induction values with
  | nil => rfl
  | cons value rest ih => simpa [itemReferences, references] using ih

end Pdf.Object

namespace Pdf.Document

/-- Every reference inside an object names an object. -/
def Closed (document : Document) : Prop :=
  ∀ id object, document.get? id = some object →
    ∀ reference ∈ object.references, document.get? reference ≠ none

variable {document : Document} {id sought : ObjectId} {object : Object}

theorem get?_insert_ne_none (there : document.get? sought ≠ none) :
    (document.insert id object).get? sought ≠ none := by
  rw [get?_insert]
  split
  · exact Option.some_ne_none object
  · exact there

theorem Closed.insert (closed : document.Closed)
    (inside : ∀ reference ∈ object.references, document.get? reference ≠ none) :
    (document.insert id object).Closed := by
  intro holder held found reference member
  apply get?_insert_ne_none
  rw [get?_insert] at found
  split at found
  · obtain rfl := Option.some.inj found
    exact inside reference member
  · exact closed holder held found reference member

theorem Closed.add (closed : document.Closed)
    (inside : ∀ reference ∈ object.references, document.get? reference ≠ none) :
    (document.add object).Closed :=
  closed.insert inside

end Pdf.Document

namespace Import

/-- No reference in the target dangles, and neither does an entry of the table. -/
structure Intact (state : Import) : Prop where
  closed : state.target.Closed
  present : ∀ source copy : ObjectId, state.copies[source]? = some copy →
    state.target.get? copy ≠ none

variable {state : Import}

theorem Intact.reserved (intact : Intact state) (source : ObjectId) :
    Intact (state.reserved source) where
  closed := intact.closed.add nofun
  present entered copy known := by
    simp only [Import.reserved, Std.TreeMap.getElem?_insert, Std.LawfulEqOrd.compare_eq_iff_eq] at known
    split at known
    · obtain rfl := Option.some.inj known
      rw [Import.reserved, Document.get?_add_self]
      exact Option.some_ne_none _
    · exact Document.get?_insert_ne_none (intact.present entered copy known)

-- Renamed references are entries of the table.
theorem Intact.inside (intact : Intact state) {object : Object}
    (known : ∀ reference ∈ object.references, reference ∈ state.copies) :
    ∀ reference ∈ (object.mapReferences state.copyOf).references,
      state.target.get? reference ≠ none := by
  intro reference member
  rw [Object.references_mapReferences] at member
  obtain ⟨source, found, rfl⟩ := List.mem_map.mp member
  obtain ⟨copy, entry⟩ := mem_copies.mp (known source found)
  rw [copyOf, entry, Option.getD_some]
  exact intact.present source copy entry

theorem Intact.installed (intact : Intact state) (copy : ObjectId) {object : Object}
    (known : ∀ reference ∈ object.references, reference ∈ state.copies) :
    Intact (state.installed copy (object.mapReferences state.copyOf)) where
  closed := intact.closed.insert (intact.inside known)
  present source held entry := Document.get?_insert_ne_none (intact.present source held entry)

theorem Intact.visited {copy : ObjectId → Copying ObjectId}
    (each : ∀ id before, Intact before → Intact ((copy id).run before).2) (intact : Intact state)
    (ids : List ObjectId) : Intact ((visit copy ids).run state).2 :=
  @visit_steps copy (fun before after => Intact before → Intact after) (fun _ start => start)
    (fun one two start => two (one start)) each ids state intact

-- Each copy leaves the state intact, also where it breaks off.
theorem copyWithin_intact (source : Document) (depth : Nat) (id : ObjectId) (before : Import)
    (intact : Intact before) : Intact ((copyWithin source depth id).run before).2 :=
  @copyWithin_preserves source (fun _ => True) Intact (fun _ _ _ _ _ _ => trivial)
    (fun _ id _ _ intact => intact.reserved id)
    (fun _ _ copy _ _ known intact => intact.installed copy known) depth id trivial before intact

end Import

namespace Template

open Pdf (ascii)

variable (template : Template)

-- All references of a form are in its resources.
theorem references_form (page : ObjectId) (resources : Object) :
    (template.form page resources).references = resources.references := by
  have box := Object.itemReferences_reals (template.mediaBox page)
  simp [form, Object.ofStream, formEntries, Dictionary.ofList, Dictionary.set, ascii,
    Object.references, Object.entryReferences, Object.ofName, box]

theorem importForm_intact (page : Nat) (before : Import) (intact : before.Intact) :
    (template.importForm page before).2.Intact := by
  rw [importForm_run]
  rcases template.pageId? page with _ | id
  · exact intact
  · have remembers := Import.copyWithin_remembers template.document
      (template.document.objects.size + 1)
    have visited := intact.visited (Import.copyWithin_intact template.document
      (template.document.objects.size + 1)) (template.resources id).references
    rcases outcome : (visit template.copier (template.resources id).references).run before
      with ⟨_ | _, after⟩ <;> simp only [copier] at outcome <;> simp only [outcome] at visited ⊢
    · exact visited
    · have known := Import.visit_known remembers (template.resources id).references before after outcome
      have inside := visited.inside known
      rw [← template.references_form id] at inside
      exact ⟨visited.closed.add inside,
        fun source copy entry => Document.get?_insert_ne_none (visited.present source copy entry)⟩

/-! ### Several importers -/

/-- Importers of one template at work on one target, each with its own table of copies. -/
structure Importers where
  target : Document
  tables : Nat → Std.TreeMap ObjectId ObjectId

namespace Importers

def ofTarget (target : Document) : Importers := ⟨target, fun _ => {}⟩

/-- The target as one of the importers knows it. -/
def state (importers : Importers) (importer : Nat) : Import :=
  ⟨importers.target, importers.tables importer⟩

/-- An order names the importer and the page. -/
def serve (template : Template) (importers : Importers) (order : Nat × Nat) :
    Except ImportFault ObjectId × Importers :=
  let (outcome, after) := template.importForm order.2 (importers.state order.1)
  (outcome, ⟨after.target, Function.update importers.tables order.1 after.copies⟩)

def serveAll (template : Template) (importers : Importers) (orders : List (Nat × Nat)) : Importers :=
  orders.foldl (fun importers order => (importers.serve template order).2) importers

variable {template} {importers : Importers}

theorem target_extends (order : Nat × Nat) :
    importers.target.Extends (importers.serve template order).2.target :=
  (template.importForm_grows order.2 (importers.state order.1)).target

/-- Nothing is missing for any of the importers. -/
structure Intact (importers : Importers) : Prop where
  bounded : importers.target.Bounded
  state : ∀ importer, (importers.state importer).Intact

theorem Intact.serve (intact : importers.Intact) (order : Nat × Nat) :
    (importers.serve template order).2.Intact := by
  have grows : importers.target.Extends (importers.serve template order).2.target :=
    target_extends order
  have imported := template.importForm_intact order.2 _ (intact.state order.1)
  refine ⟨grows.bounded intact.bounded, fun importer => ⟨imported.closed, ?_⟩⟩
  intro source copy entry
  by_cases same : importer = order.1
  · subst same
    simp only [Importers.serve, Importers.state, Function.update_self] at entry
    exact imported.present source copy entry
  · -- The table of another importer is as before, and what it names has not gone away.
    simp only [Importers.serve, Importers.state, Function.update_of_ne same] at entry
    have there := (intact.state importer).present source copy entry
    have old := intact.bounded copy there
    rw [Importers.state, grows.get?_eq copy old]
    exact there

theorem Intact.serveAll (intact : importers.Intact) (orders : List (Nat × Nat)) :
    (importers.serveAll template orders).Intact := by
  induction orders generalizing importers with
  | nil => exact intact
  | cons order rest ih => exact ih (intact.serve order)

theorem intact_ofTarget {target : Document} (bounded : target.Bounded) (closed : target.Closed) :
    (ofTarget target).Intact where
  bounded := bounded
  state importer := by
    refine ⟨closed, fun source copy entry => ?_⟩
    simp [ofTarget, Importers.state] at entry

/-- However many importers have worked on a target before, in whatever order and with whatever
success: one more import leaves no reference in the target without its object, and changes no
object that was there. -/
theorem imports_never_dangle (template : Template) (target : Document) (bounded : target.Bounded)
    (closed : target.Closed) (orders : List (Nat × Nat)) (order : Nat × Nat) :
    let before := (ofTarget target).serveAll template orders
    let after := (before.serve template order).2
    after.target.Closed ∧
      ∀ id object, before.target.get? id = some object → after.target.get? id = some object := by
  intro before after
  have intact : before.Intact := (intact_ofTarget bounded closed).serveAll orders
  have served : after.Intact := intact.serve order
  refine ⟨(served.state order.1).closed, fun id object there => ?_⟩
  have old : id.number ≤ before.target.lastNumber := by
    apply intact.bounded
    rw [there]
    exact Option.some_ne_none object
  rw [(target_extends order).get?_eq id old, there]

/-- Both pages draw with an object of which one part is there and the other is missing. -/
def halfMissing : Template :=
  twoPages [(⟨5, 0⟩, .array [.reference ⟨6, 0⟩, .reference ⟨7, 0⟩]),
    (⟨6, 0⟩, .array [.reference ⟨5, 0⟩])]

def usedTarget : Document := (({} : Document).add (.integer 7)).add (.array [.reference ⟨1, 0⟩])

-- The first importer fails half way, and its second import leads into what that has left.
theorem broken_imports_never_dangle :
    usedTarget.Bounded ∧ usedTarget.Closed ∧
      ((ofTarget usedTarget).serve halfMissing (0, 1)).1 = .error (.lookup (.missing ⟨7, 0⟩)) ∧
      (((ofTarget usedTarget).serveAll halfMissing [(0, 1), (1, 3)]).serve halfMissing (0, 2)).1 =
        .ok ⟨6, 0⟩ ∧
      (((ofTarget usedTarget).serveAll halfMissing [(0, 1), (1, 3)]).serve halfMissing
        (0, 2)).2.target.Closed := by
  have bounded : usedTarget.Bounded :=
    (Document.extends_add _ _).bounded ((Document.extends_add _ _).bounded Document.bounded_empty)
  have empty : ({} : Document).Closed := by
    intro id object found
    exact absurd (Std.TreeMap.getElem?_emptyc.symm.trans found) (by simp)
  have one : (({} : Document).add (.integer 7)).Closed := empty.add nofun
  have closed : usedTarget.Closed := by
    apply one.add
    intro reference member
    obtain rfl : reference = ⟨1, 0⟩ := by simpa [Object.references, Object.itemReferences] using member
    decide +kernel
  exact ⟨bounded, closed, by decide +kernel, by decide +kernel,
    (imports_never_dangle halfMissing usedTarget bounded closed [(0, 1), (1, 3)] (0, 2)).1⟩

end Importers

end Template

end Letterhead
