import Letterhead.Proofs.Style.Counts
import Letterhead.Proofs.Surface.Glyphs

/-!
A walk over the tokens that spells out what a reader should see: every character of the content,
in the face and the size that the tags before it leave open. It knows no lines, words or pages.
-/

namespace Letterhead

open Markup (Tag Token)
open Pdf (ascii)

def Markup.Token.toggle? : Token → Option Toggle
  | .content _ => none
  | .tag given => some ⟨given.name, given.closing⟩

/-- What the tags among the tokens open and close. -/
def Markup.toggles (tokens : List Token) : List Toggle := tokens.filterMap Token.toggle?

theorem Markup.openings_toggles_append (style : Emphasis) (before later : List Token) :
    openings style (toggles (before ++ later)) =
      openings style (toggles before) + openings style (toggles later) := by
  rw [toggles, List.filterMap_append, openings_append]
  rfl

theorem Markup.openings_toggles_le (style : Emphasis) (before later : List Token) :
    openings style (toggles before) ≤ openings style (toggles (before ++ later)) :=
  (Nat.le_add_right _ _).trans_eq (openings_toggles_append style before later).symm

theorem Markup.openings_toggles_tag (style : Emphasis) (tag : Tag) :
    openings style (toggles [.tag tag]) = if tag.name = style.name then if tag.closing then 0 else 1 else 0 :=
  openings_singleton style ⟨tag.name, tag.closing⟩

/-- What the tags so far leave open. -/
structure Walk where
  bold : Nat := 0
  italic : Nat := 0
  underline : Nat := 0
  small : Bool := false
  inCell : Bool := false
  skips : Bool := false

namespace Walk

-- How often a tag is open after one more, never below zero.
def count (closing : Bool) (before : Nat) : Nat := if closing then before - 1 else before + 1

def tagged (walk : Walk) (tag : Tag) : Walk :=
  if tag.name = ['B'] then { walk with bold := count tag.closing walk.bold }
  else if tag.name = ['I'] then { walk with italic := count tag.closing walk.italic }
  else if tag.name = ['U'] then { walk with underline := count tag.closing walk.underline }
  else if tag.name = ['S', 'M', 'A', 'L', 'L'] then { walk with small := !tag.closing }
  else if tag.name = ['C', 'E', 'L', 'L'] then
    { walk with inCell := !tag.closing, skips := walk.skips || tag.closing }
  else walk

-- The content as a cell controller with this skip flag hands it on, and the flag after it.
def prepared (walk : Walk) (text : List Char) : List Char × Walk :=
  let (kept, cell) := ({ skipsBreak := walk.skips } : CellState).prepare text
  (kept, { walk with skips := cell.skipsBreak })

-- Line breaks are left out of flowing text, and are spaces in a cell.
def visible (walk : Walk) (text : List Char) : List Char :=
  if walk.inCell then text.map fun c => if c = '\r' ∨ c = '\n' then ' ' else c
  else text.filter fun c => c ≠ '\r' ∧ c ≠ '\n'

def font (walk : Walk) : String :=
  if 0 < walk.bold then if 0 < walk.italic then "F4" else "F2"
  else if 0 < walk.italic then "F3" else "F1"

variable (regular small : Float32)

def size (walk : Walk) : Float32 := if walk.small then small else regular

-- A character as the byte that stands for it, or as a question mark.
def glyph (walk : Walk) (c : Char) : Glyph :=
  ⟨(Text.WinAnsi.byte? c).getD 0x3F, some (ascii walk.font, walk.size regular small)⟩

def said (walk : Walk) : Token → List Glyph
  | .content text => (walk.visible (walk.prepared text).1).map (walk.glyph regular small)
  | .tag _ => []

def next (walk : Walk) : Token → Walk
  | .content text => (walk.prepared text).2
  | .tag tag => walk.tagged tag

def glyphs : Walk → List Token → List Glyph
  | _, [] => []
  | walk, token :: rest => walk.said regular small token ++ glyphs (walk.next token) rest

end Walk

def Paper.visible (layout : Option CellLayout) (kept : List Char) : List Char :=
  if layout.isSome then kept.map flattenBreak else kept.filter (!isBreak ·)

namespace TextState

variable (lineHeight : Float32)

-- What a surface that is set as the tags have left it shows of a token.
def said (text : TextState) : Token → List Glyph
  | .content content =>
    let prepared := text.cell.prepare content
    Paper.spell text.style.variant text.sizes.current (Paper.visible prepared.2.layout prepared.1)
  | .tag _ => []

def glyphs : TextState → List Token → List Glyph
  | _, [] => []
  | text, token :: rest => text.said token ++ glyphs (text.step lineHeight token).2 rest

end TextState

/-! ### The walk and the state of the text -/

theorem TagRole.ofName_eq (name : List Char) :
    TagRole.ofName name =
      if name = ['B'] then .style .bold
      else if name = ['I'] then .style .italic
      else if name = ['U'] then .style .underline
      else if name = ['S', 'M', 'A', 'L', 'L'] then .small
      else if name = ['C', 'E', 'L', 'L'] then .cell
      else .unknown := by
  unfold ofName Emphasis.ofName?
  split
  · rename_i tag found
    split at found <;> cases found <;> simp
  · rename_i unnamed
    split at unnamed <;> simp_all

namespace Walk

def depth (walk : Walk) : Emphasis → Nat
  | .bold => walk.bold
  | .italic => walk.italic
  | .underline => walk.underline

theorem depth_tagged (walk : Walk) (tag : Tag) (style : Emphasis) :
    (walk.tagged tag).depth style =
      if tag.name = style.name then count tag.closing (walk.depth style) else walk.depth style := by
  rw [tagged]
  by_cases bold : tag.name = ['B']
  · cases style <;> simp [bold, depth, Emphasis.name, Emphasis.letter]
  by_cases italic : tag.name = ['I']
  · cases style <;> simp [italic, depth, Emphasis.name, Emphasis.letter]
  by_cases underline : tag.name = ['U']
  · cases style <;> simp [underline, depth, Emphasis.name, Emphasis.letter]
  · have other : tag.name ≠ style.name := by
      cases style <;> assumption
    rw [if_neg bold, if_neg italic, if_neg underline, if_neg other]
    split
    · rfl
    · split <;> rfl

-- Counts of 32 bits do not wrap over these tokens.
def HasRoom (walk : Walk) (tokens : List Token) : Prop :=
  ∀ style, walk.depth style + openings style (Markup.toggles tokens) < 2 ^ 32

theorem HasRoom.next {walk : Walk} {token : Token} {rest : List Token} (room : walk.HasRoom (token :: rest)) :
    (walk.next token).HasRoom rest := by
  intro style
  have given := room style
  cases token with
  | content text => exact given
  | tag tag =>
    rw [← List.singleton_append, Markup.openings_toggles_append, Markup.openings_toggles_tag] at given
    rw [Walk.next, depth_tagged]
    by_cases named : tag.name = style.name
    · cases closes : tag.closing <;> simp [named, closes, count] at given ⊢ <;> omega
    · simp only [if_neg named] at given ⊢
      omega

end Walk

theorem TextState.count_stepTag (text : TextState) (tag : Tag) (style : Emphasis) :
    (text.stepTag tag).2.style.count style =
      if tag.name = style.name then
        if tag.closing then text.style.count style - 1 else (text.style.count style + 1) % UInt32.size
      else text.style.count style := by
  rw [(StyleCounts.stepTag_toggled text tag).1]
  by_cases named : ∃ given : Emphasis, tag.name = given.name
  · obtain ⟨given, named⟩ := named
    rw [(text.style.toggled_of_name named).2, named]
    simp only [Emphasis.name_inj, @eq_comm _ given]
    cases tag.closing
    · exact text.style.count_opened given style
    · exact text.style.count_closed given style
  · rw [not_exists] at named
    rw [StyleCounts.toggled_of_unknown _ named, if_neg (named style)]

-- The walk agrees with what decides on the calls.
structure TextState.Follows (text : TextState) (regular small : Float32) (walk : Walk) : Prop where
  style : ∀ style, text.style.count style = walk.depth style
  sizes : text.sizes = ⟨regular, small, walk.small⟩
  inCell : text.cell.layout.isSome = walk.inCell
  skips : text.cell.skipsBreak = walk.skips

namespace TextState.Follows

variable {text : TextState} {regular small : Float32} {walk : Walk}

theorem tagged (follows : text.Follows regular small walk) {tag : Tag} {rest : List Token}
    (room : walk.HasRoom (.tag tag :: rest)) : (text.stepTag tag).2.Follows regular small (walk.tagged tag) := by
  obtain ⟨same, sizes, inCell, skips⟩ := follows
  have counted (style : Emphasis) :
      (text.stepTag tag).2.style.count style = (walk.tagged tag).depth style := by
    rw [text.count_stepTag, walk.depth_tagged, same]
    by_cases named : tag.name = style.name
    · cases closes : tag.closing with
      | false =>
        have one_more := room.next style
        rw [Walk.next, walk.depth_tagged, if_pos named, closes] at one_more
        have least : walk.depth style + 1 < 2 ^ 32 := Nat.lt_of_le_of_lt (Nat.le_add_right _ _) one_more
        simp only [if_pos named, Bool.false_eq_true, if_false, Walk.count]
        exact Nat.mod_eq_of_lt least
      | true => rfl
    · rw [if_neg named, if_neg named]
  suffices settled : (text.stepTag tag).2.sizes = ⟨regular, small, (walk.tagged tag).small⟩ ∧
      (text.stepTag tag).2.cell.layout.isSome = (walk.tagged tag).inCell ∧
      (text.stepTag tag).2.cell.skipsBreak = (walk.tagged tag).skips from
    ⟨counted, settled.1, settled.2.1, settled.2.2⟩
  rw [stepTag, TagRole.ofName_eq, Walk.tagged]
  by_cases bold : tag.name = ['B']
  · simp only [if_pos bold]
    exact ⟨sizes, inCell, skips⟩
  by_cases italic : tag.name = ['I']
  · simp only [if_neg bold, if_pos italic]
    exact ⟨sizes, inCell, skips⟩
  by_cases underline : tag.name = ['U']
  · simp only [if_neg bold, if_neg italic, if_pos underline]
    exact ⟨sizes, inCell, skips⟩
  by_cases size : tag.name = ['S', 'M', 'A', 'L', 'L']
  · simp only [if_neg bold, if_neg italic, if_neg underline, if_pos size]
    exact ⟨by rw [sizes]; rfl, inCell, skips⟩
  by_cases cell : tag.name = ['C', 'E', 'L', 'L']
  · simp only [if_neg bold, if_neg italic, if_neg underline, if_neg size, if_pos cell]
    refine ⟨sizes, ?_, ?_⟩
    · cases tag.closing <;> rfl
    · cases tag.closing
      · exact skips.trans (Bool.or_false _).symm
      · exact (Bool.or_true _).symm
  · simp only [if_neg bold, if_neg italic, if_neg underline, if_neg size, if_neg cell]
    exact ⟨sizes, inCell, skips⟩

theorem prepared (follows : text.Follows regular small walk) (content : List Char) :
    (text.cell.prepare content).1 = (walk.prepared content).1 ∧
      { text with cell := (text.cell.prepare content).2 }.Follows regular small
        (walk.prepared content).2 := by
  obtain ⟨style, sizes, inCell, skips⟩ := follows
  simp only [CellState.prepare, Walk.prepared, skips]
  split
  · exact ⟨rfl, style, sizes, inCell, rfl⟩
  · exact ⟨rfl, style, sizes, inCell, skips⟩

theorem next (follows : text.Follows regular small walk) (lineHeight : Float32) {token : Token}
    {rest : List Token} (room : walk.HasRoom (token :: rest)) :
    (text.step lineHeight token).2.Follows regular small (walk.next token) := by
  cases token with
  | content content => exact (follows.prepared content).2
  | tag tag => exact follows.tagged room

theorem font (follows : text.Follows regular small walk) :
    Paper.faceKey text.style.variant = walk.font := by
  rw [Walk.font, StyleCounts.variant, Paper.faceKey]
  simp only [StyleCounts.isOn, follows.style, Walk.depth]
  by_cases bold : 0 < walk.bold <;> by_cases italic : 0 < walk.italic <;> simp [bold, italic]

theorem spell (follows : text.Follows regular small walk) (content : List Char) :
    Paper.spell text.style.variant text.sizes.current content =
      content.map (walk.glyph regular small) := by
  have size : text.sizes.current = walk.size regular small := by
    rw [follows.sizes]
    rfl
  rw [Paper.spell, follows.font, size, Text.WinAnsi.encode, List.map_map]
  rfl

theorem visible (follows : text.Follows regular small walk) (kept : List Char) :
    Paper.visible text.cell.layout kept = walk.visible kept := by
  rw [Paper.visible, follows.inCell, Walk.visible]
  split
  · rfl
  · apply List.filter_congr
    intro c _
    rw [Bool.eq_iff_iff]
    simp [Paper.isBreak]

theorem said (follows : text.Follows regular small walk) (token : Token) :
    text.said token = walk.said regular small token := by
  cases token with
  | content content =>
    obtain ⟨kept, after⟩ := follows.prepared content
    have visible := after.visible (text.cell.prepare content).1
    rw [kept] at visible
    rw [TextState.said, follows.spell, kept, visible]
    rfl
  | tag tag => rfl

theorem glyphs (follows : text.Follows regular small walk) (lineHeight : Float32) {tokens : List Token}
    (room : walk.HasRoom tokens) : text.glyphs lineHeight tokens = walk.glyphs regular small tokens := by
  induction tokens generalizing text walk with
  | nil => rfl
  | cons token rest ih =>
    rw [TextState.glyphs, Walk.glyphs, follows.said token, ih (follows.next lineHeight room) room.next]

end TextState.Follows

end Letterhead
