import Letterhead.Pdf.Document

/-!
The pages of a document. The tree below the catalog is walked depth first. Only references among
the kids count; an object of type `Page` is a page, one of type `Pages` is descended into, and all
else is passed over. The walk looks at no more kids than the document has objects, so it ends on
cyclic trees, and keeps at most 256 levels open that have kids left.
-/

namespace Letterhead.Pdf

def treeDepthLimit : Nat := 256

/-- The first kid on the innermost level that has any, the rest of that level, and those around it. -/
def nextKid? : List (List Object) → Option (Object × List Object × List (List Object))
  | [] => none
  | [] :: outer => nextKid? outer
  | (kid :: rest) :: outer => some (kid, rest, outer)

inductive TreeNode where
  | page (id : ObjectId)
  | branch (kids : List Object)
  | other

namespace Document

def kids (document : Document) (node : Dictionary) : List Object :=
  match (node.get? (ascii "Kids")).map document.resolve with
  | some (.ok (.array items)) => items
  | _ => []

def treeNode (document : Document) (kid : Object) : TreeNode :=
  match kid.asReference? with
  | none => .other
  | some id =>
    match document.dictionary? id with
    | none => .other
    | some node =>
      let type := node.name? "Type"
      if type = some (ascii "Page") then .page id
      else if type = some (ascii "Pages") then .branch (document.kids node)
      else .other

/-- A level without kids left is not kept. -/
def keepLevel (rest : List Object) (outer : List (List Object)) : List (List Object) :=
  if rest.isEmpty then outer else rest :: outer

def walkTree (document : Document) : Nat → List (List Object) → List ObjectId
  | 0, _ => []
  | limit + 1, levels =>
    match nextKid? levels with
    | none => []
    | some (kid, rest, outer) =>
      match document.treeNode kid with
      | .page id => id :: document.walkTree limit (rest :: outer)
      | .branch kids =>
        if outer.length < treeDepthLimit then
          document.walkTree limit (kids :: keepLevel rest outer)
        else document.walkTree limit (rest :: outer)
      | .other => document.walkTree limit (rest :: outer)

/-- The root of the page tree, by way of the trailer and the catalog. -/
def treeRoot? (document : Document) : Option Dictionary := do
  let root ← document.trailer.reference? "Root"
  let catalog ← document.dictionary? root
  let pages ← catalog.reference? "Pages"
  document.dictionary? pages

def pageIds (document : Document) : List ObjectId :=
  match document.treeRoot? with
  | none => []
  | some root => document.walkTree document.objects.size [document.kids root]

end Document

end Letterhead.Pdf
