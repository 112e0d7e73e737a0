import Letterhead.Pdf.PageTree
import Mathlib.Data.List.Chain

/-!
The page tree, down and up. A page that the walk lists hangs from the root by a line of nodes, each
among the kids of the next. In a well-formed tree every node names the one that lists it as its parent,
so the way up from the page is this line.
-/

namespace Letterhead.Pdf.Document

variable {document : Document}

/-! ### Down -/

/-- A node whose kids the walk looks at, and the nodes above it, the nearest first. -/
inductive Branch (document : Document) : Dictionary → List Dictionary → Prop
  | root {node : Dictionary} (top : document.treeRoot? = some node) : Branch document node []
  | kid {parent node : Dictionary} {above : List Dictionary} {id : ObjectId}
      (branch : Branch document parent above) (listed : .reference id ∈ document.kids parent)
      (found : document.dictionary? id = some node) (type : node.name? "Type" = some (ascii "Pages")) :
      Branch document node (parent :: above)

/-- A page and the nodes above it, from the page itself to the root. -/
inductive Line (document : Document) (page : ObjectId) : List Dictionary → Prop
  | intro {parent node : Dictionary} {above : List Dictionary} (branch : Branch document parent above)
      (listed : .reference page ∈ document.kids parent) (found : document.dictionary? page = some node)
      (type : node.name? "Type" = some (ascii "Page")) : Line document page (node :: parent :: above)

theorem Branch.getLast? {node : Dictionary} {above : List Dictionary} (branch : document.Branch node above) :
    (node :: above).getLast? = document.treeRoot? := by
  induction branch with
  | root top => exact top.symm
  | kid _ _ _ _ ih => rwa [List.getLast?_cons_cons]

theorem Line.getLast? {page : ObjectId} {line : List Dictionary} (hangs : document.Line page line) :
    line.getLast? = document.treeRoot? := by
  cases hangs with
  | intro branch => rw [List.getLast?_cons_cons, branch.getLast?]

/-! ### The walk -/

theorem treeNode_cases (document : Document) (kid : Object) :
    document.treeNode kid = .other ∨ ∃ id node, kid = .reference id ∧
      document.dictionary? id = some node ∧
      (document.treeNode kid = .page id ∧ node.name? "Type" = some (ascii "Page") ∨
        document.treeNode kid = .branch (document.kids node) ∧
          node.name? "Type" = some (ascii "Pages")) := by
  cases kid with
  | reference id =>
    simp only [treeNode, Object.asReference?]
    rcases found : document.dictionary? id with _ | node
    · exact .inl rfl
    · by_cases page : node.name? "Type" = some (ascii "Page")
      · exact .inr ⟨id, node, rfl, found, .inl ⟨if_pos page, page⟩⟩
      · by_cases pages : node.name? "Type" = some (ascii "Pages")
        · exact .inr ⟨id, node, rfl, found, .inr ⟨(if_neg page).trans (if_pos pages), pages⟩⟩
        · exact .inl ((if_neg page).trans (if_neg pages))
  | _ => exact .inl rfl

theorem nextKid?_mem {levels outer : List (List Object)} {kid : Object} {rest : List Object}
    (next : nextKid? levels = some (kid, rest, outer)) : kid :: rest ∈ levels ∧ outer ⊆ levels := by
  fun_induction nextKid? levels with
  | case1 => cases next
  | case2 _ ih =>
    obtain ⟨inside, outside⟩ := ih next
    exact ⟨List.mem_cons_of_mem _ inside, List.subset_cons_of_subset _ outside⟩
  | case3 =>
    cases next
    exact ⟨List.mem_cons_self, List.subset_cons_self _ _⟩

/-- What is left of the kids of one node. -/
def Offered (document : Document) (level : List Object) : Prop :=
  ∃ parent above, document.Branch parent above ∧ level ⊆ document.kids parent

-- The walk keeps only levels with kids of nodes that it has come to.
theorem exists_line_of_mem_walkTree {limit : Nat} {levels : List (List Object)}
    (offered : ∀ level ∈ levels, document.Offered level) {page : ObjectId}
    (listed : page ∈ document.walkTree limit levels) : ∃ line, document.Line page line := by
  induction limit generalizing levels with
  | zero => cases listed
  | succ limit ih =>
    rw [walkTree] at listed
    split at listed
    · cases listed
    · rename_i kid rest outer next
      obtain ⟨inside, outside⟩ := nextKid?_mem next
      obtain ⟨parent, above, branch, among⟩ := offered _ inside
      have around : ∀ level ∈ outer, document.Offered level := fun level later => offered level (outside later)
      have left : document.Offered rest :=
        ⟨parent, above, branch, fun _ later => among (List.mem_cons_of_mem kid later)⟩
      have passed : ∀ level ∈ rest :: outer, document.Offered level :=
        List.forall_mem_cons.mpr ⟨left, around⟩
      rcases document.treeNode_cases kid with
        seen | ⟨id, node, rfl, found, ⟨seen, type⟩ | ⟨seen, type⟩⟩ <;> simp only [seen] at listed
      · exact ih passed listed
      · rcases List.mem_cons.mp listed with rfl | later
        · exact ⟨_, .intro branch (among List.mem_cons_self) found type⟩
        · exact ih passed later
      · have below : document.Offered (document.kids node) :=
          ⟨node, _, .kid branch (among List.mem_cons_self) found type, List.Subset.refl _⟩
        split at listed
        · refine ih (List.forall_mem_cons.mpr ⟨below, ?_⟩) listed
          rw [keepLevel]
          split
          · exact around
          · exact passed
        · exact ih passed listed

theorem exists_line_of_mem_pageIds {page : ObjectId} (listed : page ∈ document.pageIds) :
    ∃ line, document.Line page line := by
  rw [pageIds] at listed
  split at listed
  · cases listed
  · rename_i root top
    have offered : document.Offered (document.kids root) := ⟨root, [], .root top, List.Subset.refl _⟩
    exact exists_line_of_mem_walkTree (List.forall_mem_singleton.mpr offered) listed

/-! ### Up -/

def parent? (document : Document) (node : Dictionary) : Option Dictionary :=
  (node.reference? "Parent").bind document.dictionary?

/-- Whatever the walk takes for a page or a node among the kids of a node names that node as its
parent. -/
def TreeFormed (document : Document) : Prop :=
  ∀ ⦃parent : Dictionary⦄ ⦃above : List Dictionary⦄ ⦃id : ObjectId⦄ ⦃node : Dictionary⦄,
    document.Branch parent above → .reference id ∈ document.kids parent →
    document.dictionary? id = some node →
    (node.name? "Type" = some (ascii "Page") ∨ node.name? "Type" = some (ascii "Pages")) →
    document.parent? node = some parent

theorem Branch.climbs (formed : document.TreeFormed) {node : Dictionary} {above : List Dictionary}
    (branch : document.Branch node above) :
    (node :: above).IsChain fun node parent => document.parent? node = some parent := by
  induction branch with
  | root => exact .singleton _
  | kid branch listed found type ih => exact .cons_cons (formed branch listed found (.inr type)) ih

theorem Line.climbs (formed : document.TreeFormed) {page : ObjectId} {line : List Dictionary}
    (hangs : document.Line page line) :
    line.IsChain fun node parent => document.parent? node = some parent := by
  cases hangs with
  | intro branch listed found type =>
    exact .cons_cons (formed branch listed found (.inl type)) (branch.climbs formed)

/-! ### Checking a tree -/

/-- All kids of the object, if it has any, name it as their parent. -/
def listsOwnKids (document : Document) (id : ObjectId) : Bool :=
  (document.dictionary? id).all fun node => (document.kids node).all fun kid =>
    kid.asReference?.all fun below => (document.dictionary? below).all fun entries =>
      entries.reference? "Parent" == some id

theorem Branch.exists_id {node : Dictionary} {above : List Dictionary} (branch : document.Branch node above) :
    ∃ id, document.dictionary? id = some node := by
  cases branch with
  | root top =>
    simp only [treeRoot?, Option.bind_eq_bind, Option.bind_eq_some_iff] at top
    obtain ⟨_, _, _, _, id, _, found⟩ := top
    exact ⟨id, found⟩
  | kid _ _ found _ => exact ⟨_, found⟩

theorem mem_keys_of_dictionary? {id : ObjectId} {node : Dictionary}
    (found : document.dictionary? id = some node) : id ∈ document.objects.keys := by
  rw [Std.TreeMap.mem_keys, Std.TreeMap.mem_iff_isSome_getElem?, Option.isSome_iff_ne_none]
  intro missing
  rw [dictionary?, lookup, get?, missing] at found
  cases found

theorem treeFormed_of_all (each : document.objects.keys.all document.listsOwnKids = true) :
    document.TreeFormed := by
  intro parent above id node branch listed found _
  obtain ⟨up, named⟩ := branch.exists_id
  have own := List.all_eq_true.mp each up (mem_keys_of_dictionary? named)
  rw [listsOwnKids, named, Option.all_some, List.all_eq_true] at own
  have back := own _ listed
  simp only [Object.asReference?, Option.all_some, found, beq_iff_eq] at back
  rw [parent?, back, Option.bind_some, named]

end Letterhead.Pdf.Document
