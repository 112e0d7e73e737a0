import Letterhead.Pdf.Stream
import Letterhead.Template.Basic

/-!
Template pages brought into another document as forms. A page's resources are copied with all
that they refer to, under new numbers. An importer remembers what it has copied, also when a copy
failed half way, so that pages share what they have in common.

A copy gets its number before what it refers to is copied; cycles of references end there.
-/

namespace Letterhead

open Pdf (Object ObjectId Dictionary Document LookupFault ascii)

/-- The document that is copied into, and the copies so far by the id of their source. -/
structure Import where
  target : Document
  copies : Std.TreeMap ObjectId ObjectId := {}

/-- A failure keeps what was copied before it. -/
abbrev Copying := ExceptT LookupFault (StateM Import)

namespace Import

mutual

/-- Every reference in the object replaced by what `copy` makes of it, from left to right. -/
def rename (copy : ObjectId → Copying ObjectId) : Object → Copying Object
  | .reference id => do return .reference (← copy id)
  | .array items => do return .array (← renameItems copy items)
  | .dictionary entries => do return .dictionary (← renameEntries copy entries)
  | .stream entries data => do return .stream (← renameEntries copy entries) data
  | object => return object

def renameItems (copy : ObjectId → Copying ObjectId) : List Object → Copying (List Object)
  | [] => return []
  | item :: rest => do return (← rename copy item) :: (← renameItems copy rest)

def renameEntries (copy : ObjectId → Copying ObjectId) :
    List (Pdf.Bytes × Object) → Copying (List (Pdf.Bytes × Object))
  | [] => return []
  | (key, value) :: rest => do return (key, ← rename copy value) :: (← renameEntries copy rest)

end

/-- Takes a new number in the target, which holds null until the copy is there. -/
def reserve (source : ObjectId) : Copying ObjectId := do
  let state ← get
  set ({ target := state.target.add .null,
         copies := state.copies.insert source state.target.nextId } : Import)
  return state.target.nextId

def install (copy : ObjectId) (object : Object) : Copying Unit :=
  modify fun state => { state with target := state.target.insert copy object }

/-- `depth` bounds how many copies are under way at once. -/
def copyWithin (source : Document) : Nat → ObjectId → Copying ObjectId
  | depth, id => do
    match (← get).copies[id]? with
    | some copy => return copy
    | none =>
      match depth with
      | 0 => throw .referenceLimit
      | depth + 1 =>
        let copy ← reserve id
        let object ← liftExcept (source.lookup id)
        install copy (← rename (copyWithin source depth) object)
        return copy
where
  liftExcept {α : Type} (result : Except LookupFault α) : Copying α := fun state => (result, state)

/-- Copies under way are of different source objects, but for one that may be missing, so their
number never comes near the bound. -/
def copyReferences (source : Document) (object : Object) : Copying Object :=
  rename (copyWithin source (source.objects.size + 1)) object

end Import

inductive ImportFault where
  | pageOutOfRange (page count : Nat)
  | lookup (fault : LookupFault)
deriving DecidableEq, Repr

def ImportFault.message : ImportFault → String
  | .pageOutOfRange page count =>
    "Template page " ++ toString page ++ " is out of range (document has " ++ toString count ++ " pages)"
  | .lookup fault => "PDF error: " ++ fault.message

namespace Template

/-- The number of the page in the list of pages, which are counted from one. -/
def pageId? (template : Template) : Nat → Option ObjectId
  | 0 => none
  | index + 1 => template.pages[index]?

def formEntries (box : List Float32) (resources : Object) : Dictionary :=
  .ofList [("Type", .ofName "XObject"), ("Subtype", .ofName "Form"), ("FormType", .integer 1),
    ("BBox", .array (box.map .real)), ("Resources", resources)]

def importResources (template : Template) (page : ObjectId) : Copying Object :=
  match template.inherited? page "Resources" with
  | some resources => Import.copyReferences template.document resources
  | none => return .dictionary []

/-- The form is the object added last. -/
def importForm (template : Template) (page : Nat) (state : Import) :
    Except ImportFault ObjectId × Import :=
  match template.pageId? page with
  | none => (.error (.pageOutOfRange page template.size), state)
  | some id =>
    match (template.importResources id).run state with
    | (.error fault, state) => (.error (.lookup fault), state)
    | (.ok resources, state) =>
      let form := Object.ofStream (formEntries (template.mediaBox id) resources)
        (template.document.pageContent id)
      (.ok state.target.nextId, { state with target := state.target.add form })

end Template

end Letterhead
