import Letterhead.Proofs.Pdf.Ancestry
import Letterhead.Template.Basic

/-!
Attributes that pages inherit. A page has the value of the nearest node on its line up to the root, as
far as that line is followed: the search looks at 64 nodes, the page among them, whereas the walk that
lists the pages goes down four times as far.
-/

namespace Letterhead

open Pdf (Object ObjectId Dictionary Document ascii)

namespace Template

/-- What the first node that has the key has under it. -/
def nearest? (key : Pdf.Bytes) (line : List Dictionary) : Option Object := line.findSome? (·.get? key)

-- Where the line ends before the search does, the search goes on with a parent of its last node.
theorem inheritedFrom?_eq (document : Document) (key : Pdf.Bytes) (steps : Nat) {node : Dictionary}
    {above : List Dictionary}
    (climbs : (node :: above).IsChain fun node parent => document.parent? node = some parent) :
    inheritedFrom? document key steps node =
      (nearest? key ((node :: above).take steps)).or
        ((document.parent? ((node :: above).getLast (List.cons_ne_nil node above))).bind
          (inheritedFrom? document key (steps - (node :: above).length))) := by
  induction steps generalizing node above with
  | zero =>
    have nowhere (up : Option Dictionary) : up.bind (inheritedFrom? document key 0) = none := by
      rcases up with _ | up <;> rfl
    rw [Nat.zero_sub, nowhere]
    rfl
  | succ steps ih =>
    have unfolded : inheritedFrom? document key (steps + 1) node =
        (node.get? key).or ((document.parent? node).bind (inheritedFrom? document key steps)) := by
      rw [inheritedFrom?, Document.parent?, Option.bind_assoc]
      rcases node.get? key <;> rfl
    rw [unfolded, List.take_succ_cons, nearest?, List.findSome?_cons]
    rcases node.get? key with _ | value
    · rcases above with _ | ⟨parent, above⟩
      · simp
      · obtain ⟨up, climbs⟩ := List.isChain_cons_cons.mp climbs
        rw [up, Option.bind_some, ih climbs, List.getLast_cons_cons]
        simp [nearest?]
    · rfl

variable {document : Document} {page : ObjectId} {line : List Dictionary}

theorem exists_line (listed : page ∈ (ofDocument document).pages) : ∃ line, document.Line page line :=
  Document.exists_line_of_mem_pageIds listed

theorem inherited?_eq_of_line (formed : document.TreeFormed) (hangs : document.Line page line)
    (key : String) : (ofDocument document).inherited? page key =
      (nearest? (ascii key) (line.take ancestorLimit)).or
        ((document.treeRoot?.bind document.parent?).bind
          (inheritedFrom? document (ascii key) (ancestorLimit - line.length))) := by
  have climbs := hangs.climbs formed
  rw [← hangs.getLast?, inherited?]
  cases hangs with
  | intro branch listed found type =>
    rw [ofDocument, found, Option.bind_some, inheritedFrom?_eq document _ _ climbs,
      List.getLast?_eq_some_getLast (List.cons_ne_nil _ _), Option.bind_some]

theorem nearest?_take {key : Pdf.Bytes} {value : Object} {limit : Nat}
    (found : nearest? key (line.take limit) = some value) : nearest? key line = some value := by
  rw [← List.take_append_drop limit line, nearest?, List.findSome?_append]
  exact congrArg (Option.or · _) found

/-- In a well-formed tree, a listed page has from its line up to the root what the nearest node with the
key has, if that is one of the first 64 nodes, the page included. If none of these has the key, then
under a root without a parent the page has nothing, even if a node above them has the key. -/
theorem inherits_within_limit (document : Document) (formed : document.TreeFormed) (page : ObjectId)
    (listed : page ∈ (ofDocument document).pages) :
    (∃ line, document.Line page line) ∧
    ∀ line, document.Line page line → ∀ key : String,
      let inherited := (ofDocument document).inherited? page key
      let nearest := nearest? (ascii key) line
      let within := nearest? (ascii key) (line.take ancestorLimit)
      (within ≠ none → inherited = nearest) ∧
      (document.treeRoot?.bind document.parent? = none →
        inherited = within ∧ (inherited = nearest ↔ (within = none → nearest = none))) := by
  refine ⟨exists_line listed, fun line hangs key => ?_⟩
  intro inherited nearest within
  have searched : inherited = within.or _ := inherited?_eq_of_line formed hangs key
  have reaches (found : within ≠ none) : inherited = within ∧ within = nearest := by
    obtain ⟨value, found⟩ := Option.ne_none_iff_exists'.mp found
    rw [searched, found]
    exact ⟨rfl, (nearest?_take found).symm⟩
  refine ⟨fun found => (reaches found).1.trans (reaches found).2, fun top => ?_⟩
  have ends : inherited = within := by rw [searched, top, Option.bind_none, Option.or_none]
  refine ⟨ends, ?_⟩
  rw [ends]
  constructor
  · intro same nothing
    rw [← same, nothing]
  · intro stays
    rcases eq_or_ne within none with nothing | found
    · rw [nothing, stays nothing]
    · exact (reaches found).2

/-! ### A deep tree -/

/-- A tree with one page, so many levels below the root, which alone states a size and resources. -/
def tower (height : Nat) : Document :=
  let up (level : Nat) : List (String × Object) :=
    if level = 0 then
      [("MediaBox", .array [.integer 0, .integer 0, .integer 200, .integer 100]),
        ("Resources", .dictionary (Dictionary.ofList [("ProcSet", .array [.ofName "PDF"])]))]
    else [("Parent", .reference ⟨level + 1, 0⟩)]
  let branch (level : Nat) : ObjectId × Object :=
    (⟨level + 2, 0⟩, .dictionary (Dictionary.ofList
      ([("Type", .ofName "Pages"), ("Kids", .array [.reference ⟨level + 3, 0⟩])] ++ up level)))
  let page := Object.dictionary (Dictionary.ofList ([("Type", .ofName "Page")] ++ up height))
  let catalog := Object.dictionary <| Dictionary.ofList
    [("Type", .ofName "Catalog"), ("Pages", .reference ⟨2, 0⟩)]
  let objects := (⟨1, 0⟩, catalog) :: (List.range height).map branch ++ [(⟨height + 2, 0⟩, page)]
  let trailer := Dictionary.ofList [("Root", .reference ⟨1, 0⟩)]
  objects.foldl (fun document entry => document.insert entry.1 entry.2) { trailer }

theorem nearest?_ne_none_of_root {key : Pdf.Bytes} (hangs : document.Line page line)
    (states : (document.treeRoot?.bind (Dictionary.get? · key)).isSome = true) :
    nearest? key line ≠ none := by
  rw [← hangs.getLast?] at states
  obtain ⟨value, found⟩ := Option.isSome_iff_exists.mp states
  obtain ⟨root, last, has⟩ := Option.bind_eq_some_iff.mp found
  rw [nearest?, Ne, List.findSome?_eq_none_iff]
  intro lacking
  cases (lacking root (List.mem_of_getLast? last)).symm.trans has

-- From the lowest level that the search reaches up from, the root is still within its limit.
theorem tower_page_inherits :
    (tower 63).TreeFormed ∧ ⟨65, 0⟩ ∈ (ofDocument (tower 63)).pages ∧
    ∃ line, (tower 63).Line ⟨65, 0⟩ line ∧ ∀ key ∈ ["MediaBox", "Resources"],
      nearest? (ascii key) line ≠ none ∧
      (ofDocument (tower 63)).inherited? ⟨65, 0⟩ key = nearest? (ascii key) line := by
  have formed : (tower 63).TreeFormed := Document.treeFormed_of_all (by decide +kernel)
  have listed : ⟨65, 0⟩ ∈ (ofDocument (tower 63)).pages := by decide +kernel
  have top : (tower 63).treeRoot?.bind (tower 63).parent? = none :=
    Option.isNone_iff_eq_none.mp (by decide +kernel)
  have found : ∀ key ∈ ["MediaBox", "Resources"],
      ((ofDocument (tower 63)).inherited? ⟨65, 0⟩ key).isSome = true := by decide +kernel
  obtain ⟨⟨line, hangs⟩, each⟩ := inherits_within_limit (tower 63) formed ⟨65, 0⟩ listed
  refine ⟨formed, listed, line, hangs, fun key among => ?_⟩
  obtain ⟨near, ends⟩ := each line hangs key
  have some := Option.isSome_iff_ne_none.mp (found key among)
  have same := near ((ends top).1 ▸ some)
  exact ⟨same ▸ some, same⟩

/-- One level further down, the page has nothing of what the root states. -/
theorem towering_root_is_out_of_reach :
    (tower 64).TreeFormed ∧ (tower 64).treeRoot?.bind (tower 64).parent? = none ∧
    ⟨66, 0⟩ ∈ (ofDocument (tower 64)).pages ∧
    ∃ line, (tower 64).Line ⟨66, 0⟩ line ∧ ∀ key ∈ ["MediaBox", "Resources"],
      nearest? (ascii key) line ≠ none ∧ (ofDocument (tower 64)).inherited? ⟨66, 0⟩ key = none := by
  have listed : ⟨66, 0⟩ ∈ (ofDocument (tower 64)).pages := by decide +kernel
  have top : (tower 64).treeRoot?.bind (tower 64).parent? = none :=
    Option.isNone_iff_eq_none.mp (by decide +kernel)
  have states : ∀ key ∈ ["MediaBox", "Resources"],
      ((tower 64).treeRoot?.bind (Dictionary.get? · (ascii key))).isSome = true := by decide +kernel
  have nothing : ∀ key ∈ ["MediaBox", "Resources"],
      ((ofDocument (tower 64)).inherited? ⟨66, 0⟩ key).isNone = true := by decide +kernel
  obtain ⟨line, hangs⟩ := exists_line listed
  refine ⟨Document.treeFormed_of_all (by decide +kernel), top, listed, line, hangs, ?_⟩
  intro key among
  exact ⟨nearest?_ne_none_of_root hangs (states key among),
    Option.isNone_iff_eq_none.mp (nothing key among)⟩

end Template

end Letterhead
