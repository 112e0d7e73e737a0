import Letterhead.Cell.Layout
import Letterhead.Proofs.Markup.Division
import Mathlib

/-!
Tags whose letters are written in another case. Only letters differ, so the text is divided at the
same places, names come out the same, and values differ in nothing that a cell makes of them.
-/

namespace Letterhead

/-! ### Letters -/

namespace Text

/-- The text with each ASCII letter as a capital. -/
def folded (text : List Char) : List Char := text.map Char.toUpper

@[simp] theorem folded_nil : folded [] = [] := rfl

@[simp] theorem folded_cons (c : Char) (rest : List Char) :
    folded (c :: rest) = c.toUpper :: folded rest := rfl

-- No mark becomes a letter, and no letter a mark.
theorem toUpper_eq_iff {mark : Char} (plain : mark.isAlpha = false) (c : Char) :
    c.toUpper = mark ↔ c = mark := by
  by_cases lower : c.isLower = true
  · have letter : c.isAlpha = true := by simp [Char.isAlpha, lower]
    constructor
    · rintro rfl
      rw [Char.isAlpha_toUpper_eq_isAlpha, letter] at plain
      cases plain
    · rintro rfl
      rw [letter] at plain
      cases plain
  · rw [Char.toUpper_eq_of_not_isLower lower]

theorem mem_folded_iff {mark : Char} (plain : mark.isAlpha = false) (text : List Char) :
    mark ∈ folded text ↔ mark ∈ text := by
  simp only [folded, List.mem_map, toUpper_eq_iff plain, exists_eq_right]

theorem upperChar_toUpper (c : Char) : upperChar c.toUpper = upperChar c := by
  by_cases lower : c.isLower = true
  · have upper : c.toUpper.isUpper = true := by simp [Char.isAlpha, lower]
    have low : c.toNat < 128 := by
      simp only [Char.isLower, Bool.and_eq_true, decide_eq_true_eq] at lower
      exact Nat.lt_of_le_of_lt (UInt32.le_iff_toNat_le.mp lower.2) (by decide)
    have high : c.toUpper.toNat < 128 := by
      simp only [Char.isUpper, decide_eq_true_eq] at upper
      exact Nat.lt_of_le_of_lt (UInt32.le_iff_toNat_le.mp upper.2) (by decide)
    rw [upperChar, upperChar, if_pos low, if_pos high, Char.toUpper_toUpper_eq_toUpper]
  · rw [Char.toUpper_eq_of_not_isLower lower]

theorem uppercase_folded (text : List Char) : uppercase (folded text) = uppercase text := by
  rw [uppercase, folded, List.flatMap_map]
  exact congrArg (text.flatMap ·) (funext upperChar_toUpper)

variable {separator : Char} (plain : separator.isAlpha = false)

include plain

theorem cut?_folded (text : List Char) :
    cut? separator (folded text) =
      (cut? separator text).map fun halves => (folded halves.1, folded halves.2) := by
  induction text with
  | nil => rfl
  | cons c rest ih =>
    rw [folded_cons, cut?, cut?, ih]
    by_cases here : c = separator
    · simp [here, (toUpper_eq_iff plain separator).mpr rfl]
    · have apart : c.toUpper ≠ separator := mt (toUpper_eq_iff plain c).mp here
      cases cut? separator rest <;> simp [here, apart]

theorem pieces_folded (text : List Char) :
    pieces separator (folded text) = (pieces separator text).map folded := by
  induction text with
  | nil => rfl
  | cons c rest ih =>
    rw [folded_cons, pieces, pieces, ih]
    by_cases here : c = separator
    · simp [here, (toUpper_eq_iff plain separator).mpr rfl]
    · have apart : c.toUpper ≠ separator := mt (toUpper_eq_iff plain c).mp here
      cases pieces separator rest <;> simp [here, apart]

end Text

namespace Markup

open Text (folded uppercase_folded toUpper_eq_iff mem_folded_iff)

/-! ### Attributes -/

theorem isQuote_toUpper (c : Char) : isQuote c.toUpper = isQuote c := by
  rw [Bool.eq_iff_iff]
  simp [isQuote, toUpper_eq_iff]

theorem dropQuote_folded (written : List Char) :
    dropQuote (folded written) = folded (dropQuote written) := by
  cases written with
  | nil => rfl
  | cons c rest =>
    rw [Text.folded_cons, dropQuote, dropQuote, isQuote_toUpper]
    split <;> rfl

theorem unquote?_folded (written : List Char) :
    unquote? (folded written) = (unquote? written).map folded := by
  have reversed (text : List Char) : (folded text).reverse = folded text.reverse := by
    rw [folded, folded, List.map_reverse]
  have spoiled (text : List Char) : (folded text).any isQuote = text.any isQuote := by
    rw [folded, List.any_map]
    exact congrArg text.any (funext isQuote_toUpper)
  simp only [unquote?, dropQuote_folded, reversed, spoiled]
  split <;> rfl

theorem expression?_folded (expression : List Char) :
    expression? (folded expression) =
      (expression? expression).map fun entry => (entry.1, folded entry.2) := by
  rw [expression?, expression?, Text.cut?_folded (by decide)]
  rcases Text.cut? '=' expression with _ | ⟨name, written⟩
  · rfl
  · simp only [Option.map_some, Option.bind_some, unquote?_folded, uppercase_folded]
    cases unquote? written <;> rfl

namespace Attributes

def folded (attributes : Attributes) : Attributes :=
  ⟨attributes.entries.map fun entry => (entry.1, Text.folded entry.2)⟩

theorem insertEntry_folded (name value : List Char) (entries : List (List Char × List Char)) :
    insertEntry name (Text.folded value) (entries.map fun entry => (entry.1, Text.folded entry.2)) =
      (insertEntry name value entries).map fun entry => (entry.1, Text.folded entry.2) := by
  induction entries with
  | nil => rfl
  | cons entry rest ih =>
    rw [List.map_cons, insertEntry, insertEntry, ih]
    split
    · rfl
    · split <;> rfl

theorem insert_folded (attributes : Attributes) (name value : List Char) :
    attributes.folded.insert name (Text.folded value) = (attributes.insert name value).folded :=
  congrArg Attributes.mk (insertEntry_folded name value attributes.entries)

theorem foldl_insert_folded (pairs : List (List Char × List Char)) (attributes : Attributes) :
    (pairs.map fun entry => (entry.1, Text.folded entry.2)).foldl
        (fun attributes pair => attributes.insert pair.1 pair.2) attributes.folded =
      (pairs.foldl (fun attributes pair => attributes.insert pair.1 pair.2) attributes).folded := by
  induction pairs generalizing attributes with
  | nil => rfl
  | cons pair rest ih => rw [List.map_cons, List.foldl_cons, insert_folded, ih, List.foldl_cons]

theorem parse_folded (raw : List Char) : parse (Text.folded raw) = (parse raw).folded := by
  have expressions : (Text.pieces ' ' (Text.folded raw)).filterMap expression? =
      ((Text.pieces ' ' raw).filterMap expression?).map fun entry => (entry.1, Text.folded entry.2) := by
    rw [Text.pieces_folded (by decide), List.filterMap_map, List.map_filterMap]
    exact congrArg (List.filterMap · _) (funext expression?_folded)
  rw [parse, parse, expressions]
  exact foldl_insert_folded _ empty

theorem get?_folded (attributes : Attributes) (name : List Char) :
    attributes.folded.get? name = (attributes.get? name).map Text.folded := by
  obtain ⟨entries⟩ := attributes
  induction entries with
  | nil => rfl
  | cons entry rest ih =>
    obtain ⟨key, held⟩ := entry
    simp only [get?, folded, List.map_cons, lookup_entry] at ih ⊢
    split
    · rfl
    · exact ih

end Attributes

/-! ### Tags -/

def Tag.folded (given : Tag) : Tag := { given with attributes := given.attributes.folded }

def Token.folded : Token → Token
  | .content text => .content text
  | .tag given => .tag given.folded

theorem Tag.parse_opening {interior : List Char} (opens : ∀ name, interior ≠ '/' :: name) :
    Tag.parse interior = (Text.cut? ' ' interior).elim ⟨Text.uppercase interior, .empty, false⟩
      fun cut => ⟨Text.uppercase cut.1, .parse cut.2, false⟩ := by
  rw [Tag.parse.eq_def]
  split
  · exact absurd rfl (opens _)
  · rcases Text.cut? ' ' interior with _ | cut <;> rfl

theorem Tag.parse_folded (interior : List Char) :
    Tag.parse (Text.folded interior) = (Tag.parse interior).folded := by
  by_cases closes : ∃ name, interior = '/' :: name
  · obtain ⟨name, rfl⟩ := closes
    show Tag.parse ('/' :: Text.folded name) = _
    rw [Tag.parse, Tag.parse, uppercase_folded]
    rfl
  · rw [not_exists] at closes
    have opens : ∀ name, Text.folded interior ≠ '/' :: name := by
      intro name same
      cases interior with
      | nil => cases same
      | cons c rest =>
        obtain rfl := (toUpper_eq_iff (by decide) c).mp (List.cons.inj same).1
        exact closes rest rfl
    rw [parse_opening closes, parse_opening opens, Text.cut?_folded (by decide)]
    rcases Text.cut? ' ' interior with _ | ⟨name, raw⟩
    · simp only [Option.map_none, Option.elim_none, uppercase_folded]
      rfl
    · simp only [Option.map_some, Option.elim_some, uppercase_folded, Attributes.parse_folded]
      rfl

/-! ### Texts -/

namespace Division

/-- The letters inside the tags as capitals. What stands outside remains as it is. -/
def folded (division : Division) : Division :=
  { division with tagged := division.tagged.map fun piece => (piece.1, Text.folded piece.2) }

theorem tokens_folded (division : Division) :
    division.folded.tokens = division.tokens.map Token.folded := by
  simp [tokens, folded, List.flatMap_map, List.map_flatMap, Tag.parse_folded, Token.folded]

variable {division changed : Division}

theorem Leftmost.tokenize_joined (leftmost : division.Leftmost) :
    tokenize division.joined = division.tokens := by
  obtain ⟨found, joined, rival, tokens⟩ := exists_division division.joined
  rw [tokens, rival.unique leftmost joined]

-- A bracket or a line feed inside a tag would be there in either case.
theorem Leftmost.recased (leftmost : division.Leftmost) (same : changed.folded = division.folded) :
    changed.Leftmost := by
  have kept (piece : List Char × List Char) (member : piece ∈ changed.tagged) :
      ∃ other ∈ division.tagged, other.1 = piece.1 ∧ Text.folded other.2 = Text.folded piece.2 := by
    have among : (piece.1, Text.folded piece.2) ∈ division.folded.tagged := by
      rw [← same]
      exact List.mem_map_of_mem member
    obtain ⟨other, given, equal⟩ := List.mem_map.mp among
    exact ⟨other, given, (Prod.mk.inj equal).1, (Prod.mk.inj equal).2⟩
  refine ⟨fun piece member => ?_, fun piece member => ?_, ?_⟩
  · obtain ⟨other, given, -, letters⟩ := kept piece member
    obtain ⟨unclosed, unbroken⟩ := leftmost.interiors other given
    rw [IsInterior, ← mem_folded_iff (by decide), ← mem_folded_iff (by decide) piece.2, ← letters,
      mem_folded_iff (by decide), mem_folded_iff (by decide)]
    exact ⟨unclosed, unbroken⟩
  · obtain ⟨other, given, content, -⟩ := kept piece member
    exact content ▸ leftmost.contents other given
  · have last : changed.last = division.last := (Division.mk.inj same).2
    exact last ▸ leftmost.last

end Division

/-- The second text is the first one with some ASCII letters inside its tags in the other case. -/
def Recased (text other : List Char) : Prop :=
  ∃ division changed : Division, division.Leftmost ∧ division.joined = text ∧
    changed.joined = other ∧ changed.folded = division.folded

theorem Recased.tokens {text other : List Char} (recased : Recased text other) :
    (tokenize other).map Token.folded = (tokenize text).map Token.folded := by
  obtain ⟨division, changed, leftmost, rfl, rfl, same⟩ := recased
  rw [leftmost.tokenize_joined, (leftmost.recased same).tokenize_joined, ← Division.tokens_folded,
    ← Division.tokens_folded, same]

end Markup

/-! ### Cells -/

namespace CellLayout

open Markup (Attributes)

theorem setting_folded {α : Type} (attributes : Attributes) (name : String)
    (read : List Char → Option α) (default : α) :
    setting attributes.folded name read default = setting attributes name read default := by
  rw [setting, setting, Attributes.get?_folded]
  cases attributes.get? name.toList with
  | none => rfl
  | some value =>
    rw [Option.map_some, Option.bind_some, Option.bind_some, Text.uppercase_folded]

theorem ofAttributes_folded (attributes : Attributes) :
    ofAttributes attributes.folded = ofAttributes attributes := by
  simp only [ofAttributes, setting_folded]

end CellLayout

end Letterhead
