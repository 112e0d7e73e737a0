import Letterhead.Pdf.Stream
import Letterhead.Proofs.Pdf.Extension
import Letterhead.Proofs.Pdf.Lookup
import Letterhead.Surface.Paper
import Mathlib.Data.List.Forall2
import Mathlib.Data.List.Perm.Subperm

/-!
The document that is made of a paper. A reader who goes from its root down the page tree finds the
pages of the paper in order, each with its content and with the resources that all pages share.
-/

namespace Letterhead

open Pdf (Object ObjectId Dictionary Document Bytes ascii)

namespace Pdf.Document

variable {document : Document} {id : ObjectId}

theorem lookup_of_get? {object : Object} (there : document.get? id = some object)
    (direct : object.asReference? = none) : document.lookup id = .ok object := by
  rw [lookup, there]
  cases object <;> first | rfl | cases direct

theorem dictionary?_of_get? {entries : Dictionary}
    (there : document.get? id = some (.dictionary entries)) :
    document.dictionary? id = some entries := by
  rw [dictionary?, lookup_of_get? there rfl]
  rfl

def pageResources? (document : Document) (page : ObjectId) : Option Dictionary := do
  let node ← document.dictionary? page
  let resources ← node.reference? "Resources"
  document.dictionary? resources

def mediaBox? (document : Document) (page : ObjectId) : Option Object :=
  (document.dictionary? page).bind (Dictionary.get? · (ascii "MediaBox"))

-- The forms that a page can paint.
def pageForms? (document : Document) (page : ObjectId) : Option Object :=
  (document.pageResources? page).bind (Dictionary.get? · (ascii "XObject"))

theorem walkTree_pages (ids : List ObjectId) (limit : Nat) (enough : ids.length ≤ limit)
    (pages : ∀ id ∈ ids, document.treeNode (.reference id) = .page id) :
    document.walkTree limit [ids.map .reference] = ids := by
  induction ids generalizing limit with
  | nil => cases limit <;> rfl
  | cons id rest ih =>
    rcases limit with _ | limit
    · cases enough
    · have here := pages id List.mem_cons_self
      have later := ih limit (Nat.le_of_succ_le_succ enough)
        fun next member => pages next (List.mem_cons_of_mem _ member)
      simp only [walkTree, List.map_cons, nextKid?, here, later]

theorem length_le_size (ids : List ObjectId) (apart : ids.Nodup)
    (there : ∀ id ∈ ids, document.get? id ≠ none) : ids.length ≤ document.objects.size := by
  rw [← Std.TreeMap.length_keys]
  apply List.Subperm.length_le
  apply apart.subperm
  intro id member
  rw [Std.TreeMap.mem_keys, Std.TreeMap.mem_iff_isSome_getElem?]
  exact Option.isSome_iff_ne_none.mpr (there id member)

end Pdf.Document

-- Nothing is decoded in a stream without filters.
theorem Pdf.contentOf_of_get? {document : Document} {id : ObjectId} {data : Bytes}
    (there : document.get? id = some (.ofStream [] data)) : document.contentOf id = data := by
  rw [Document.contentOf, Document.lookup_of_get? there rfl]
  rfl

namespace Paper

variable (paper : Paper) (shared tree : ObjectId)

def pageEntries (content : ObjectId) : Dictionary :=
  .ofList [("Type", .ofName "Page"), ("Parent", .reference tree), ("MediaBox", paper.mediaBox),
    ("Contents", .reference content), ("Resources", .reference shared)]

-- The page and its content are in the document, under numbers above `low`.
structure HasPage (low : Nat) (document : Document) (id : ObjectId) (page : Page) : Prop where
  node : ∃ content : ObjectId, low < content.number ∧ content.number ≤ document.lastNumber ∧
    document.get? id = some (.dictionary (paper.pageEntries shared tree content)) ∧
    document.get? content = some (.ofStream [] (Pdf.contentBytes page.content))
  above : low < id.number
  within : id.number ≤ document.lastNumber

variable {paper shared tree} {low : Nat} {before after document : Document} {id : ObjectId}
  {page : Page}

theorem HasPage.extends (has : paper.HasPage shared tree low before id page)
    (grows : before.Extends after) : paper.HasPage shared tree low after id page := by
  obtain ⟨⟨content, above, within, node, stream⟩, beyond, most⟩ := has
  refine ⟨⟨content, above, Nat.le_trans within grows.lastNumber_le, ?_, ?_⟩, beyond,
    Nat.le_trans most grows.lastNumber_le⟩
  · rw [grows.get?_eq id most, node]
  · rw [grows.get?_eq content within, stream]

theorem HasPage.insert (has : paper.HasPage shared tree low before id page) {other : ObjectId}
    (below : other.number ≤ low) (object : Object) :
    paper.HasPage shared tree low (before.insert other object) id page := by
  obtain ⟨⟨content, above, within, node, stream⟩, beyond, most⟩ := has
  have apart : ∀ sought : ObjectId, low < sought.number → other ≠ sought := by
    rintro sought higher rfl
    omega
  refine ⟨⟨content, above, within, ?_, ?_⟩, beyond, most⟩
  · rw [Document.get?_insert, if_neg (apart id beyond), node]
  · rw [Document.get?_insert, if_neg (apart content above), stream]

theorem HasPage.treeNode (has : paper.HasPage shared tree low document id page) :
    document.treeNode (.reference id) = .page id := by
  obtain ⟨⟨content, -, -, node, -⟩, -, -⟩ := has
  have entries := Document.dictionary?_of_get? node
  have type : (paper.pageEntries shared tree content).name? "Type" = some (ascii "Page") := rfl
  simp [Document.treeNode, Object.asReference?, entries, type]

theorem HasPage.content (has : paper.HasPage shared tree low document id page) :
    document.pageContent id = Pdf.contentBytes page.content := by
  obtain ⟨⟨content, -, -, node, stream⟩, -, -⟩ := has
  have entries := Document.dictionary?_of_get? node
  have contents : Dictionary.get? (paper.pageEntries shared tree content) (ascii "Contents") =
      some (.reference content) := by
    simp [pageEntries, Dictionary.get?_cons, Dictionary.ofList, ascii]
  have ids : document.contentIds (Document.referenceLimit - 1) (.reference content) = [content] := by
    simp [Document.contentIds, stream, Object.ofStream]
  simp [Document.pageContent, entries, contents, ids, Pdf.contentOf_of_get? stream]

theorem HasPage.pageResources (has : paper.HasPage shared tree low document id page)
    {entries : Dictionary} (there : document.get? shared = some (.dictionary entries)) :
    document.pageResources? id = some entries := by
  obtain ⟨⟨content, -, -, node, -⟩, -, -⟩ := has
  have named : (paper.pageEntries shared tree content).reference? "Resources" = some shared := by
    simp [pageEntries, Dictionary.reference?, Dictionary.get?_cons, Dictionary.ofList, ascii,
      Object.asReference?]
  simp [Document.pageResources?, Document.dictionary?_of_get? node, named,
    Document.dictionary?_of_get? there]

theorem HasPage.mediaBox (has : paper.HasPage shared tree low document id page) :
    document.mediaBox? id = some paper.mediaBox := by
  obtain ⟨⟨content, -, -, node, -⟩, -, -⟩ := has
  have box : Dictionary.get? (paper.pageEntries shared tree content) (ascii "MediaBox") =
      some paper.mediaBox := by
    simp [pageEntries, Dictionary.get?_cons, Dictionary.ofList, ascii]
  simp [Document.mediaBox?, Document.dictionary?_of_get? node, box]

/-! ### From the forms to the whole document -/

theorem addPage_hasPage (paper : Paper) (shared tree : ObjectId) (document : Document)
    (kids : List Object) (page : Page) (start : low ≤ document.lastNumber) :
    ∃ after id, paper.addPage shared tree (document, kids) page = (after, kids ++ [.reference id]) ∧
      document.Extends after ∧ document.lastNumber < id.number ∧
      paper.HasPage shared tree low after id page := by
  have stored := document.extends_add (.ofStream [] (Pdf.contentBytes page.content))
  have noded := (document.add (.ofStream [] (Pdf.contentBytes page.content))).extends_add
    (.dictionary (paper.pageEntries shared tree document.nextId))
  refine ⟨_, _, rfl, stored.trans noded, ?_, ⟨document.nextId, ?_, ?_, ?_, ?_⟩, ?_, ?_⟩
  · exact Nat.lt_succ_of_le (Nat.le_succ _)
  · exact Nat.lt_succ_of_le start
  · exact Nat.le_succ _
  · exact Document.get?_add_self _ _
  · exact (noded.get?_eq document.nextId (Nat.le_refl _)).trans (Document.get?_add_self _ _)
  · exact Nat.lt_succ_of_le (Nat.le_succ_of_le start)
  · exact Nat.le_refl _

theorem addPages_havePages (paper : Paper) (shared tree : ObjectId) (pages : List Page)
    (document : Document) (kids : List Object) (start : low ≤ document.lastNumber) :
    ∃ after ids, pages.foldl (paper.addPage shared tree) (document, kids) =
        (after, kids ++ ids.map .reference) ∧
      document.Extends after ∧ ids.Nodup ∧ (∀ id ∈ ids, document.lastNumber < id.number) ∧
      List.Forall₂ (paper.HasPage shared tree low after) ids pages := by
  induction pages generalizing document kids with
  | nil =>
    exact ⟨document, [], by simp, Document.Extends.refl document, List.nodup_nil, by simp, .nil⟩
  | cons page rest ih =>
    obtain ⟨middle, id, added, grows, above, has⟩ :=
      paper.addPage_hasPage shared tree document kids page start
    have higher := grows.lastNumber_le
    obtain ⟨after, ids, folded, grown, apart, beyond, others⟩ :=
      ih middle (kids ++ [.reference id]) (Nat.le_trans start higher)
    refine ⟨after, id :: ids, ?_, grows.trans grown, ?_, ?_, .cons (has.extends grown) others⟩
    · rw [List.foldl_cons, added, folded, List.append_assoc]
      rfl
    · rw [List.nodup_cons]
      constructor
      · intro member
        exact absurd has.within (Nat.not_le_of_lt (beyond id member))
      · exact apart
    · intro sought member
      rcases List.mem_cons.mp member with rfl | later
      · exact above
      · exact Nat.lt_of_le_of_lt higher (beyond sought later)

def treeEntries (ids : List ObjectId) : Dictionary :=
  .ofList [("Type", .ofName "Pages"), ("Kids", .array (ids.map .reference)),
    ("Count", .integer ids.length)]

def catalogEntries (tree : ObjectId) : Dictionary :=
  .ofList [("Type", .ofName "Catalog"), ("Pages", .reference tree)]

-- The document with the node above its pages and a catalog that leads there.
def rooted (document : Document) (tree : ObjectId) (ids : List ObjectId) : Document :=
  let noded := document.insert tree (.dictionary (treeEntries ids))
  let whole := noded.add (.dictionary (catalogEntries tree))
  { whole with trailer := whole.trailer.set (ascii "Root") (.reference noded.nextId) }

theorem rooted_get? (document : Document) (tree id : ObjectId) (ids : List ObjectId)
    (old : id.number ≤ document.lastNumber) :
    (rooted document tree ids).get? id =
      (document.insert tree (.dictionary (treeEntries ids))).get? id :=
  (Document.extends_add (document.insert tree (.dictionary (treeEntries ids))) _).get?_eq id old

theorem rooted_catalog (document : Document) (tree : ObjectId) (ids : List ObjectId) :
    ∃ catalog, (rooted document tree ids).trailer.get? (ascii "Root") = some (.reference catalog) ∧
      (rooted document tree ids).get? catalog = some (.dictionary (catalogEntries tree)) := by
  refine ⟨(document.insert tree (.dictionary (treeEntries ids))).nextId, ?_, ?_⟩
  · rw [rooted, Dictionary.get?_set, if_pos rfl]
  · exact Document.get?_add_self _ _

variable (paper) in
/-- How a reader finds the pages, whose ids these are, and what they have in common. -/
structure Assembled (document : Document) (shared tree : ObjectId) (ids : List ObjectId) :
    Prop where
  root : ∃ catalog, document.trailer.get? (ascii "Root") = some (.reference catalog) ∧
    document.get? catalog = some (.dictionary (catalogEntries tree))
  node : document.get? tree = some (.dictionary (treeEntries ids))
  pages : List.Forall₂ (paper.HasPage shared tree tree.number document) ids paper.pages
  apart : ids.Nodup
  resources : document.get? shared = some paper.resources
  keeps : ∀ id : ObjectId, id.number ≤ paper.imports.target.lastNumber →
    document.get? id = paper.imports.target.get? id

theorem HasPage.rooted (has : paper.HasPage shared tree tree.number document id page)
    (ids : List ObjectId) :
    paper.HasPage shared tree tree.number (rooted document tree ids) id page := by
  have noded := has.insert (Nat.le_refl _) (.dictionary (treeEntries ids))
  obtain ⟨node, above, within⟩ := noded.extends (Document.extends_add _ (.dictionary (catalogEntries tree)))
  exact ⟨node, above, within⟩

theorem assemble_assembled (paper : Paper) :
    ∃ shared tree ids, paper.Assembled paper.assemble shared tree ids := by
  let formed := paper.imports.target.add paper.resources
  have formedGrows : paper.imports.target.Extends formed := Document.extends_add _ _
  obtain ⟨document, ids, folded, grows, apart, -, pages⟩ :=
    paper.addPages_havePages paper.imports.target.nextId formed.nextId paper.pages formed.reserve []
      (Nat.le_refl _)
  have kept : formed.Extends document := formed.extends_reserve.trans grows
  -- The node above the pages takes the number that was set aside for it.
  have noded : formed.Extends (document.insert formed.nextId (.dictionary (treeEntries ids))) :=
    kept.insert (Nat.lt_succ_self _) grows.lastNumber_le _
  have whole : paper.assemble = rooted document formed.nextId ids := by
    simp only [assemble]
    rw [show paper.pages.foldl _ _ = _ from folded]
    simp [rooted, treeEntries, catalogEntries, formed]
  have known : ∀ id : ObjectId, id.number ≤ formed.lastNumber →
      paper.assemble.get? id = formed.get? id := by
    intro id old
    rw [whole, rooted_get? _ _ _ _ (Nat.le_trans old kept.lastNumber_le), noded.get?_eq id old]
  refine ⟨paper.imports.target.nextId, formed.nextId, ids, ?_, ?_, ?_, apart, ?_, fun id old => ?_⟩
  · rw [whole]
    exact rooted_catalog _ _ _
  · rw [whole, rooted_get? _ _ _ _ grows.lastNumber_le, Document.get?_insert, if_pos rfl]
  · rw [whole]
    exact pages.imp fun _ _ has => has.rooted ids
  · exact (known _ (Nat.le_refl _)).trans (Document.get?_add_self _ _)
  · exact (known id (Nat.le_trans old formedGrows.lastNumber_le)).trans (formedGrows.get?_eq id old)

namespace Assembled

variable {document : Document} {shared tree : ObjectId} {ids : List ObjectId}

theorem hasPage (assembled : paper.Assembled document shared tree ids) (id : ObjectId)
    (member : id ∈ ids) : ∃ page, paper.HasPage shared tree tree.number document id page := by
  obtain ⟨same, each⟩ := List.forall₂_iff_get.mp assembled.pages
  obtain ⟨index, rfl⟩ := List.get_of_mem member
  exact ⟨_, each index index.isLt (same ▸ index.isLt)⟩

theorem treeRoot (assembled : paper.Assembled document shared tree ids) :
    document.treeRoot? = some (treeEntries ids) := by
  obtain ⟨catalog, led, cataloged⟩ := assembled.root
  have root : document.trailer.reference? "Root" = some catalog := by
    rw [Dictionary.reference?, led]
    rfl
  have pages : (catalogEntries tree).reference? "Pages" = some tree := by
    simp [catalogEntries, Dictionary.reference?, Dictionary.get?_cons, Dictionary.ofList, ascii,
      Object.asReference?]
  simp [Document.treeRoot?, root, Document.dictionary?_of_get? cataloged, pages,
    Document.dictionary?_of_get? assembled.node]

theorem pageIds (assembled : paper.Assembled document shared tree ids) : document.pageIds = ids := by
  have kids : document.kids (treeEntries ids) = ids.map .reference := by
    have found : (treeEntries ids).get? (ascii "Kids") = some (.array (ids.map .reference)) := by
      simp [treeEntries, Dictionary.get?_cons, Dictionary.ofList, ascii]
    rw [Document.kids, found]
    rfl
  simp only [Document.pageIds, assembled.treeRoot, kids]
  apply Document.walkTree_pages
  · apply Document.length_le_size ids assembled.apart
    intro id member
    obtain ⟨page, ⟨content, -, -, node, -⟩, -, -⟩ := assembled.hasPage id member
    simp [node]
  · intro id member
    obtain ⟨page, found⟩ := assembled.hasPage id member
    exact found.treeNode

theorem contents (assembled : paper.Assembled document shared tree ids) :
    document.pageIds.map document.pageContent =
      paper.pages.map fun page => Pdf.contentBytes page.content := by
  rw [assembled.pageIds, ← List.forall₂_eq_eq_eq, List.forall₂_map_left_iff,
    List.forall₂_map_right_iff]
  exact assembled.pages.imp fun _ _ has => has.content

theorem mediaBoxes (assembled : paper.Assembled document shared tree ids) (id : ObjectId)
    (member : id ∈ document.pageIds) : document.mediaBox? id = some paper.mediaBox := by
  rw [assembled.pageIds] at member
  obtain ⟨page, has⟩ := assembled.hasPage id member
  exact has.mediaBox

theorem pageForms (assembled : paper.Assembled document shared tree ids) (id : ObjectId)
    (member : id ∈ document.pageIds) :
    document.pageForms? id =
      some (.dictionary (paper.forms.map fun form => (formKey form.1, .reference form.2))) := by
  rw [assembled.pageIds] at member
  obtain ⟨page, has⟩ := assembled.hasPage id member
  rw [Document.pageForms?, has.pageResources assembled.resources]
  simp [Dictionary.get?_cons, Dictionary.ofList, ascii]

end Assembled

end Paper

end Letterhead
