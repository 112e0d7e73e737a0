import Letterhead.Pdf.PageTree

/-!
A template: a document whose pages are drawn behind generated ones. Attributes that a page lacks
are inherited from its ancestors in the page tree.
-/

namespace Letterhead

open Pdf (Object ObjectId Dictionary Document ascii)

structure Template where
  document : Document
  pages : List ObjectId

namespace Template

def ofDocument (document : Document) : Template := ⟨document, document.pageIds⟩

def size (template : Template) : Nat := template.pages.length

/-- How many nodes are looked at, so that a malformed tree does not trap the search. -/
def ancestorLimit : Nat := 64

def inheritedFrom? (document : Document) (key : Pdf.Bytes) : Nat → Dictionary → Option Object
  | 0, _ => none
  | steps + 1, node =>
    match node.get? key with
    | some value => some value
    | none => do
      let parent ← node.reference? "Parent"
      inheritedFrom? document key steps (← document.dictionary? parent)

/-- The value on the page or on the nearest ancestor that has one. -/
def inherited? (template : Template) (page : ObjectId) (key : String) : Option Object :=
  (template.document.dictionary? page).bind
    (inheritedFrom? template.document (ascii key) ancestorLimit)

def coordinate? : Object → Option Float32
  | .integer value => some (Float32.ofInt value)
  | .real value => some value
  | _ => none

/-- The rectangle may be an object of its own; its four numbers may not. -/
def rectangle? (template : Template) (object : Object) : Option (List Float32) := do
  let object ← match object with
    | .reference id => (template.document.lookup id).toOption
    | direct => some direct
  let items ← object.asArray?
  if items.length = 4 then items.mapM coordinate? else none

/-- For pages that state no size of their own: US Letter, in points. -/
def fallbackBox : List Float32 := [0, 0, 612, 792]

def mediaBox (template : Template) (page : ObjectId) : List Float32 :=
  ((template.inherited? page "MediaBox").bind template.rectangle?).getD fallbackBox

end Template

end Letterhead
