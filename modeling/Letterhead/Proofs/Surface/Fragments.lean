import Letterhead.Proofs.Surface.Stamping

/-!
The fragments that are drawn on a paper, one for each operator that shows text. With each fragment in
which a character has to be replaced comes one warning.
-/

namespace Letterhead

open Pdf (Bytes Operation)

/-! ### Fragments on a page -/

def Pdf.Operation.shown? : Operation → Option Bytes
  | .showText bytes => some bytes
  | _ => none

def Mark.shown? : Mark → Option Bytes
  | .text _ _ _ _ bytes => some bytes
  | _ => none

theorem Mark.shown?_eq_none {mark : Mark} (plain : mark.isText = false) : mark.shown? = none := by
  cases mark with
  | text => cases plain
  | rectangle => rfl
  | line => rfl

theorem Mark.shown_operations (mark : Mark) :
    mark.operations.filterMap Operation.shown? = mark.shown?.toList := by
  cases mark with
  | text => rfl
  | rectangle x y width height fill outline => cases fill <;> cases outline <;> rfl
  | line => rfl

namespace Page

-- What the operators show, in their order.
def shown (page : Page) : List Bytes := page.content.filterMap Operation.shown?

@[simp] theorem shown_draw (page : Page) (mark : Mark) :
    (page.draw mark).shown = page.shown ++ mark.shown?.toList := by
  rw [shown, content_draw, List.filterMap_append, mark.shown_operations, shown]

@[simp] theorem shown_backdrop (page : Page) (backdrop : Option Bytes) :
    { page with backdrop }.shown = page.shown := by
  cases backdrop <;> rcases page with ⟨drawn, _ | name⟩ <;> rfl

end Page

namespace Paper

def shown (paper : Paper) : List Bytes := paper.sheets.flatMap Page.shown

@[simp] theorem shown_draw (paper : Paper) (mark : Mark) :
    (paper.draw mark).shown = paper.shown ++ mark.shown?.toList := by
  simp [shown, sheets, draw]

@[simp] theorem shown_turnPage (paper : Paper) : paper.turnPage.shown = paper.shown := by
  simp only [shown, sheets, turnPage, List.flatMap_append, List.flatMap_singleton]
  exact List.append_nil _

@[simp] theorem shown_warnIfReplaced (paper : Paper) (text : List Char) :
    (paper.warnIfReplaced text).shown = paper.shown := by
  rw [warnIfReplaced]
  split <;> rfl

theorem shown_place (paper : Paper) (x height : Float32) {text : List Char} (some : text ≠ []) :
    (paper.place x height text).shown = paper.shown ++ [Text.WinAnsi.encode text] := by
  have filled : text.isEmpty = false := by simpa using some
  simp only [place, filled, Bool.false_eq_true, if_false]
  split <;> simp [Mark.shown?, underlineMark]

theorem shown_bare (paper : Paper) : paper.bare.shown = paper.shown := by
  have same : ∀ page : Page, page.bare.shown = page.shown := fun page => page.shown_backdrop none
  simp [shown, sheets, bare, same, List.flatMap_map]

/-! ### Warnings -/

def replacement (fragment : List Char) : String :=
  "Characters outside WinAnsi replaced with '?' in \"" ++ String.ofList fragment ++ "\""

-- One warning for each fragment that needs one.
def replacements (fragments : List (List Char)) : List String :=
  (fragments.filter Text.WinAnsi.replaces).map replacement

theorem replacements_append (first second : List (List Char)) :
    replacements (first ++ second) = replacements first ++ replacements second := by
  rw [replacements, List.filter_append, List.map_append, replacements, replacements]

theorem replacements_eq_nil_iff (fragments : List (List Char)) :
    replacements fragments = [] ↔ ∀ c ∈ fragments.flatten, (Text.WinAnsi.byte? c).isSome = true := by
  simp only [replacements, List.map_eq_nil_iff, List.filter_eq_nil_iff, Text.WinAnsi.replaces,
    List.any_eq_true, List.mem_flatten, not_exists, not_and, forall_exists_index, and_imp,
    Option.isNone_iff_eq_none, Option.isSome_iff_ne_none]
  exact ⟨fun each c fragment member inside => each fragment member c inside,
    fun each fragment member c inside => each c fragment member inside⟩

theorem warnIfReplaced_eq (paper : Paper) (text : List Char) :
    paper.warnIfReplaced text = { paper with warnings := paper.warnings ++ replacements [text] } := by
  rw [warnIfReplaced, replacements]
  split
  · rename_i replaces
    rw [List.filter_cons_of_pos replaces]
    rfl
  · rename_i encodable
    rw [List.filter_cons_of_neg encodable]
    simp

theorem warnings_place (paper : Paper) (x height : Float32) {text : List Char} (some : text ≠ []) :
    (paper.place x height text).warnings = paper.warnings ++ replacements [text] := by
  have filled : text.isEmpty = false := by simpa using some
  simp only [place, filled, Bool.false_eq_true, if_false, warnIfReplaced_eq]
  split <;> rfl

/-! ### Drawing -/

-- The second paper shows these fragments after those of the first one, and has warned of them.
structure Adds (paper : Paper) (fragments : List (List Char)) (after : Paper) : Prop where
  shown : after.shown = paper.shown ++ fragments.map Text.WinAnsi.encode
  warnings : after.warnings = paper.warnings ++ replacements fragments
  filled : [] ∉ fragments

variable {paper after : Paper}

theorem adds_nothing (shown : after.shown = paper.shown) (warnings : after.warnings = paper.warnings) :
    Adds paper [] after where
  shown := by rw [shown, List.map_nil, List.append_nil]
  warnings := by rw [warnings]; exact (List.append_nil _).symm
  filled := List.not_mem_nil

theorem Draws.adds {texts : List (List Char)} (draws : Draws paper texts after) :
    Adds paper texts after := by
  induction draws with
  | stay => exact adds_nothing rfl rfl
  | place x height some _ ih =>
    obtain ⟨shown, warnings, filled⟩ := ih
    refine ⟨?_, ?_, ?_⟩
    · rw [shown_place _ x height some, shown, List.map_append, List.append_assoc]
      rfl
    · rw [warnings_place _ x height some, warnings, replacements_append, List.append_assoc]
    · simpa [filled] using some
  | rule plain _ ih =>
    refine ⟨?_, ih.warnings, ih.filled⟩
    rw [shown_draw, Mark.shown?_eq_none plain, ih.shown]
    exact List.append_nil _
  | turn _ ih => exact ⟨(shown_turnPage _).trans ih.shown, ih.warnings, ih.filled⟩
  | move _ _ _ ih => exact ⟨ih.shown, ih.warnings, ih.filled⟩

end Paper

end Letterhead
