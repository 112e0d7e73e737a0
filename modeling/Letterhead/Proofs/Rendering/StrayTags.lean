import Letterhead.Proofs.Cell.History
import Letterhead.Proofs.Rendering.Calls
import Letterhead.Proofs.Rendering.Walk
import Letterhead.Surface.Script

/-!
Closing tags where nothing is open. A count stays at zero and a size stays what it is, so without such
a tag the same is drawn. Only a cell that closes without having been open leaves a trace: the line
break that follows it is swallowed, as it would be after a cell.
-/

namespace Letterhead

open Markup (Tag Token)
open Text (isBlank)

/-! ### What is drawn -/

/-- A text or a cell, and the style and the size selected last. -/
structure Drawing where
  call : Call
  style : Option FontStyle
  size : Option Float32

def drawings : Option FontStyle → Option Float32 → List Call → List Drawing
  | _, _, [] => []
  | style, size, call :: rest =>
    match call with
    | .selectStyle variant => drawings (some variant) size rest
    | .selectSize chosen => drawings style (some chosen) rest
    | .flowText _ _ | .boxText _ _ => ⟨call, style, size⟩ :: drawings style size rest
    | .stamp _ _ | .write => drawings style size rest

def Call.content : Call → List Char
  | .flowText _ content | .boxText content _ => content
  | _ => []

-- So many characters are handed to the surface.
def extent (drawn : List Drawing) : Nat := (drawn.flatMap (·.call.content)).length

-- Stamps and the writing of the pages neither draw nor select.
theorem drawings_filter (style : Option FontStyle) (size : Option Float32) (calls : List Call) :
    drawings style size (calls.filter Call.isDrawing) = drawings style size calls := by
  induction calls generalizing style size with
  | nil => rfl
  | cons call rest ih =>
    cases call with
    | selectStyle variant => exact ih (some variant) size
    | selectSize chosen => exact ih style (some chosen)
    | flowText | boxText => exact congrArg (List.cons _) (ih style size)
    | stamp | write => exact ih style size

namespace TextState

variable (lineHeight : Float32)

/-- The state after these tokens. -/
def reached (text : TextState) (tokens : List Token) : TextState :=
  tokens.foldl (fun text token => (text.step lineHeight token).2) text

def drawings (text : TextState) (tokens : List Token) : List Drawing :=
  Letterhead.drawings (some text.style.variant) (some text.sizes.current) (text.calls lineHeight tokens)

variable (text : TextState)

theorem drawings_content (content : List Char) (rest : List Token) :
    text.drawings lineHeight (.content content :: rest) =
      ((drawing lineHeight text.cell.layout (text.cell.prepare content).1).map
          (⟨·, some text.style.variant, some text.sizes.current⟩)).toList ++
        { text with cell := (text.cell.prepare content).2 }.drawings lineHeight rest := by
  have layout := text.cell.prepare_layout content
  rw [drawings, calls]
  simp only [step, drawing, layout]
  split
  · rfl
  · cases text.cell.layout <;> rfl

theorem drawings_tag (tag : Tag) (rest : List Token) :
    text.drawings lineHeight (.tag tag :: rest) = (text.stepTag tag).2.drawings lineHeight rest := by
  rw [drawings, calls]
  simp only [step, stepTag]
  split <;> rfl

theorem drawings_append (before rest : List Token) :
    text.drawings lineHeight (before ++ rest) =
      text.drawings lineHeight before ++ (text.reached lineHeight before).drawings lineHeight rest := by
  induction before generalizing text with
  | nil => rfl
  | cons token before ih =>
    cases token with
    | content content =>
      rw [List.cons_append, drawings_content, drawings_content, ih, List.append_assoc]
      rfl
    | tag tag =>
      rw [List.cons_append, drawings_tag, drawings_tag, ih]
      rfl

/-! ### States that draw alike -/

-- Where both sizes are the same, it makes no difference which of them is selected.
structure Alike (text other : TextState) : Prop where
  style : text.style = other.style
  regular : text.sizes.regular = other.sizes.regular
  small : text.sizes.small = other.sizes.small
  current : text.sizes.current = other.sizes.current
  cell : text.cell = other.cell

variable {text} {other : TextState}

theorem Alike.stepTag (alike : text.Alike other) (tag : Tag) :
    (text.stepTag tag).2.Alike (other.stepTag tag).2 := by
  obtain ⟨style, regular, small, current, cell⟩ := alike
  simp only [TextState.stepTag]
  split
  · exact ⟨by rw [style], regular, small, current, cell⟩
  · refine ⟨style, regular, small, ?_, cell⟩
    cases tag.closing
    · exact small
    · exact regular
  · exact ⟨style, regular, small, current, by rw [cell]⟩
  · exact ⟨style, regular, small, current, cell⟩

theorem Alike.drawings (alike : text.Alike other) (tokens : List Token) :
    text.drawings lineHeight tokens = other.drawings lineHeight tokens := by
  induction tokens generalizing text other with
  | nil => rfl
  | cons token rest ih =>
    cases token with
    | content content =>
      obtain ⟨style, regular, small, current, cell⟩ := alike
      rw [drawings_content, drawings_content, style, current, cell]
      exact congrArg _ (ih ⟨rfl, regular, small, current, rfl⟩)
    | tag tag =>
      rw [drawings_tag, drawings_tag]
      exact ih (alike.stepTag tag)

end TextState

/-! ### A line break that waits -/

namespace Markup

/-- No text comes here, and no cell closes. -/
def Token.Blank : Token → Prop
  | .content text => text.all isBlank = true
  | .tag given => ¬ (given.closing = true ∧ given.name = ['C', 'E', 'L', 'L'])

/-- Content that begins with a line break comes before any text and before a cell closes. -/
def BreakComes (tokens : List Token) : Prop :=
  ∃ before content after, tokens = before ++ .content content :: after ∧ (∀ token ∈ before, token.Blank) ∧
    ∃ lineBreak ∈ CellState.lineBreaks, lineBreak <+: content

theorem breakComes_cons (token : Token) (rest : List Token) :
    BreakComes (token :: rest) ↔
      (∃ content, token = .content content ∧ ∃ lineBreak ∈ CellState.lineBreaks, lineBreak <+: content) ∨
        (token.Blank ∧ BreakComes rest) := by
  constructor
  · rintro ⟨before, content, after, split, blank, broken⟩
    cases before with
    | nil =>
      obtain ⟨rfl, rfl⟩ := List.cons.inj split
      exact .inl ⟨content, rfl, broken⟩
    | cons first before =>
      obtain ⟨rfl, rfl⟩ := List.cons.inj split
      rw [List.forall_mem_cons] at blank
      exact .inr ⟨blank.1, before, content, after, rfl, blank.2, broken⟩
  · rintro (⟨content, rfl, broken⟩ | ⟨blank, before, content, after, rfl, blanks, broken⟩)
    · exact ⟨[], content, rest, rfl, nofun, broken⟩
    · exact ⟨token :: before, content, after, rfl, List.forall_mem_cons.mpr ⟨blank, blanks⟩, broken⟩

theorem breakComes_of_unbroken {content : List Char}
    (unbroken : ¬ ∃ lineBreak ∈ CellState.lineBreaks, lineBreak <+: content) (rest : List Token) :
    BreakComes (.content content :: rest) ↔ content.all isBlank = true ∧ BreakComes rest := by
  rw [breakComes_cons, or_iff_right fun ⟨_, same, broken⟩ => unbroken (Token.content.inj same ▸ broken)]
  rfl

theorem not_breakComes_nil : ¬ BreakComes [] := by
  rintro ⟨before, content, after, nothing, -⟩
  simp at nothing

end Markup

namespace TextState

open Markup (BreakComes breakComes_cons breakComes_of_unbroken not_breakComes_nil)

variable (lineHeight : Float32) (text : TextState)

-- The same state, with no line break to be swallowed.
def released : TextState := { text with cell := { text.cell with skipsBreak := false } }

variable {text}

theorem ofName_eq_cell_iff (name : List Char) :
    TagRole.ofName name = .cell ↔ name = ['C', 'E', 'L', 'L'] := by
  rw [TagRole.ofName_eq]
  constructor
  · intro role
    split_ifs at role with bold italic underline small cell
    exact cell
  · rintro rfl
    rfl

-- Another tag neither looks at the flag nor sets it.
theorem stepTag_released (waits : text.cell.skipsBreak = true) {tag : Tag} (blank : (Token.tag tag).Blank) :
    (text.stepTag tag).2.cell.skipsBreak = true ∧
      (text.released.stepTag tag).2 = (text.stepTag tag).2.released := by
  simp only [stepTag]
  split
  · exact ⟨waits, rfl⟩
  · exact ⟨waits, rfl⟩
  · rename_i role
    have opens : tag.closing = false := by
      rw [Bool.eq_false_iff]
      exact fun closes => blank ⟨closes, (ofName_eq_cell_iff tag.name).mp role⟩
    simp only [opens]
    exact ⟨waits, rfl⟩
  · exact ⟨waits, rfl⟩

theorem stepTag_closes {tag : Tag} (closes : tag.closing = true) (cell : tag.name = ['C', 'E', 'L', 'L']) :
    text.stepTag tag = (none, { text with cell := ⟨none, true⟩ }) := by
  rw [stepTag, (ofName_eq_cell_iff tag.name).mpr cell, closes]
  rfl

theorem drawings_content_of_waits (waits : text.cell.skipsBreak = true) (content : List Char)
    (rest : List Token) :
    text.drawings lineHeight (.content content :: rest) =
      ((drawing lineHeight text.cell.layout (CellState.dropBreak content)).map
          (⟨·, some text.style.variant, some text.sizes.current⟩)).toList ++
        (if content.all isBlank then text else text.released).drawings lineHeight rest := by
  obtain ⟨style, sizes, ⟨layout, skips⟩⟩ := text
  obtain rfl : skips = true := waits
  rw [drawings_content, CellState.prepare_eq]
  cases content.all isBlank <;> rfl

theorem drawings_content_released (content : List Char) (rest : List Token) :
    text.released.drawings lineHeight (.content content :: rest) =
      ((drawing lineHeight text.cell.layout content).map
          (⟨·, some text.style.variant, some text.sizes.current⟩)).toList ++
        text.released.drawings lineHeight rest := by
  rw [drawings_content, CellState.prepare_eq]
  rfl

theorem extent_append (first rest : List Drawing) : extent (first ++ rest) = extent first + extent rest := by
  simp [extent]

theorem extent_drawing (layout : Option CellLayout) (content : List Char) (style : Option FontStyle)
    (size : Option Float32) :
    extent ((drawing lineHeight layout content).map (⟨·, style, size⟩)).toList = content.length := by
  cases content with
  | nil => rfl
  | cons c rest => cases layout <;> simp [drawing, extent, Call.content]

-- By induction on the tokens: the flag makes no difference up to the content that decides. What it
-- takes from that content is not made up for later, where no more is drawn than without the flag.
theorem drawings_released (waits : text.cell.skipsBreak = true) (tokens : List Token) :
    (¬ BreakComes tokens ∧ text.drawings lineHeight tokens = text.released.drawings lineHeight tokens) ∨
      (BreakComes tokens ∧
        extent (text.drawings lineHeight tokens) < extent (text.released.drawings lineHeight tokens)) := by
  induction tokens generalizing text with
  | nil => exact .inl ⟨not_breakComes_nil, rfl⟩
  | cons token rest ih =>
    cases token with
    | content content =>
      have later : extent ((if content.all isBlank then text else text.released).drawings lineHeight rest) ≤
          extent (text.released.drawings lineHeight rest) := by
        split
        · rcases ih waits with ⟨-, same⟩ | ⟨-, fewer⟩
          · exact Nat.le_of_eq (congrArg extent same)
          · exact Nat.le_of_lt fewer
        · exact Nat.le_refl _
      rw [drawings_content_of_waits lineHeight waits, drawings_content_released]
      by_cases broken : ∃ lineBreak ∈ CellState.lineBreaks, lineBreak <+: content
      · have shorter := CellState.dropBreak_shorter broken
        refine .inr ⟨(breakComes_cons _ rest).mpr (.inl ⟨content, rfl, broken⟩), ?_⟩
        simp only [extent_append, extent_drawing]
        omega
      · have whole : CellState.dropBreak content = content :=
          CellState.dropBreak_of_none (by simpa using broken)
        rw [whole, breakComes_of_unbroken broken, extent_append, extent_append]
        cases blank : content.all isBlank with
        | false => exact .inl ⟨nofun, rfl⟩
        | true =>
          rcases ih waits with ⟨none_comes, same⟩ | ⟨later, fewer⟩
          · exact .inl ⟨fun found => none_comes found.2, congrArg _ same⟩
          · exact .inr ⟨⟨rfl, later⟩, Nat.add_lt_add_left fewer _⟩
    | tag tag =>
      rw [drawings_tag, drawings_tag, breakComes_cons]
      by_cases blank : (Token.tag tag).Blank
      · obtain ⟨still, same⟩ := stepTag_released waits blank
        rw [same]
        simpa [blank] using ih still
      · obtain ⟨closes, cell⟩ := not_not.mp blank
        refine .inl ⟨by simp [blank], ?_⟩
        rw [stepTag_closes closes cell, stepTag_closes closes cell]
        rfl

/-! ### Tags that close nothing -/

/-- A closing tag, of those that have any effect, where there is nothing for it to close. -/
def Stray (text : TextState) (tag : Tag) : Prop :=
  tag.closing = true ∧
    match TagRole.ofName tag.name with
    | .style style => text.style.count style = 0
    | .small => text.sizes.current = text.sizes.regular
    | .cell => text.cell.layout = none
    | .unknown => False

-- A count at zero stays there, and the size stays what it is.
theorem Stray.alike {tag : Tag} (stray : text.Stray tag) (other : tag.name ≠ ['C', 'E', 'L', 'L']) :
    (text.stepTag tag).2.Alike text := by
  obtain ⟨closes, nothing⟩ := stray
  rw [stepTag]
  cases role : TagRole.ofName tag.name with
  | style style =>
    rw [role] at nothing
    have none_open : text.style.count style = 0 := nothing
    have unchanged : text.style.closed style = text.style := by
      apply StyleCounts.ext_count
      intro sought
      rw [text.style.count_closed]
      split
      · rename_i here
        rw [here, none_open]
      · rfl
    simp only [closes, if_true, unchanged]
    exact ⟨rfl, rfl, rfl, rfl, rfl⟩
  | small =>
    rw [role] at nothing
    simp only [closes]
    exact ⟨rfl, rfl, rfl, nothing.symm, rfl⟩
  | cell => exact absurd ((ofName_eq_cell_iff tag.name).mp role) other
  | unknown =>
    rw [role] at nothing
    cases nothing

theorem Stray.drawings_iff {tag : Tag} (stray : text.Stray tag) (rest : List Token) :
    (text.stepTag tag).2.drawings lineHeight rest = text.drawings lineHeight rest ↔
      (tag.name = ['C', 'E', 'L', 'L'] → text.cell.skipsBreak = false → ¬ BreakComes rest) := by
  by_cases cell : tag.name = ['C', 'E', 'L', 'L']
  · obtain ⟨closes, nothing⟩ := stray
    rw [(ofName_eq_cell_iff tag.name).mpr cell] at nothing
    obtain ⟨style, sizes, ⟨layout, skips⟩⟩ := text
    obtain rfl : layout = none := nothing
    rw [stepTag_closes closes cell]
    cases skips with
    | true => exact iff_of_true rfl fun _ => nofun
    | false =>
      have waits : (⟨style, sizes, ⟨none, true⟩⟩ : TextState).cell.skipsBreak = true := rfl
      rcases drawings_released lineHeight waits rest with ⟨none_comes, same⟩ | ⟨comes, fewer⟩
      · exact iff_of_true same fun _ _ => none_comes
      · refine iff_of_false (fun same => ?_) fun never => never cell rfl comes
        exact absurd (congrArg extent same) (Nat.ne_of_lt fewer)
  · exact iff_of_true ((stray.alike cell).drawings lineHeight rest) fun same => absurd same cell

end TextState

namespace Pass

variable {σ : Type} (surface : Surface σ) (brief : Brief)

theorem run_drawings (text : TextState) (state : σ) (tokens : List Token) :
    drawings none none (run surface.tracing brief { surface := ⟨state, []⟩, text } tokens).surface.calls =
      text.drawings brief.lineHeight tokens := by
  obtain ⟨all, -, others, -⟩ := run_calls surface brief { surface := ⟨state, []⟩, text } rfl rfl tokens
  have drawn (calls : List Call) :
      (calls ++ [Call.write]).filter Call.isDrawing = (calls.filter (!·.isStamp)).filter Call.isDrawing := by
    rw [List.filter_append, List.filter_filter]
    refine (List.append_nil _).trans (List.filter_congr fun call _ => ?_)
    cases call <;> rfl
  rw [all, ← drawings_filter, drawn, drawings_filter]
  exact (congrArg (drawings none none) others).trans rfl

/-- Without a closing tag that has nothing to close, the same texts and cells are drawn, with the same
content and layout, in the same style and size, on any surface and whatever it answers. Only where it is
the tag of a cell, and no line break is to be swallowed already, it must not be followed by one: content
that begins with a line break, before any text and before a cell closes, loses it. -/
theorem stray_closings_matter_only_before_breaks (text : TextState) (state : σ) (before rest : List Token)
    {tag : Tag} (stray : (text.reached brief.lineHeight before).Stray tag) :
    let drawn tokens :=
      drawings none none (run surface.tracing brief { surface := ⟨state, []⟩, text } tokens).surface.calls
    drawn (before ++ .tag tag :: rest) = drawn (before ++ rest) ↔
      (tag.name = ['C', 'E', 'L', 'L'] →
        (text.reached brief.lineHeight before).cell.skipsBreak = false → ¬ Markup.BreakComes rest) := by
  intro drawn
  have each (tokens : List Token) : drawn tokens = text.drawings brief.lineHeight tokens :=
    run_drawings surface brief text state tokens
  rw [each, each, TextState.drawings_append, TextState.drawings_append, List.append_right_inj,
    TextState.drawings_tag]
  exact stray.drawings_iff brief.lineHeight rest

def cellTag (closing : Bool) : Tag := ⟨['C', 'E', 'L', 'L'], .empty, closing⟩

/-- A second tag closes the cell of which the first one has left a line break to be swallowed. -/
def closedCell : List Token :=
  [.tag (cellTag false), .content ['x'], .tag (cellTag true), .content ['\n']]

theorem second_closing_draws_alike :
    ((TextState.ofSizes 9 6).reached 5 closedCell).Stray (cellTag true) ∧
    let drawn tokens := drawings none none
      (run Script.surface.tracing ⟨5, 0⟩
        { surface := ⟨{ rules := [] }, []⟩, text := .ofSizes 9 6 } tokens).surface.calls
    drawn (closedCell ++ .tag (cellTag true) :: [.content ['\n', 'y']]) =
        drawn (closedCell ++ [.content ['\n', 'y']]) ∧
      (drawn (closedCell ++ [.content ['\n', 'y']])).map (·.call.content) = [['x'], ['y']] := by
  have stray : ((TextState.ofSizes 9 6).reached 5 closedCell).Stray (cellTag true) := ⟨rfl, rfl⟩
  have alike := (stray_closings_matter_only_before_breaks Script.surface ⟨5, 0⟩ (.ofSizes 9 6)
    { rules := [] } closedCell [.content ['\n', 'y']] stray).mpr
  exact ⟨stray, alike fun _ => nofun, by decide +kernel⟩

/-- A cell that closes at the beginning of a text takes the line break that follows. -/
theorem stray_cell_swallows_break :
    (TextState.ofSizes 9 6).Stray (cellTag true) ∧
    let drawn tokens := drawings none none
      (run Script.surface.tracing ⟨5, 0⟩
        { surface := ⟨{ rules := [] }, []⟩, text := .ofSizes 9 6 } tokens).surface.calls
    (drawn [.tag (cellTag true), .content "\nHi".toList]).map (·.call.content) = ["Hi".toList] ∧
      (drawn [.content "\nHi".toList]).map (·.call.content) = ["\nHi".toList] ∧
      drawn [.tag (cellTag true), .content "\nHi".toList] ≠ drawn [.content "\nHi".toList] := by
  refine ⟨⟨rfl, rfl⟩, ?_⟩
  intro drawn
  have taken : (drawn [.tag (cellTag true), .content "\nHi".toList]).map (·.call.content) =
      ["Hi".toList] := by decide +kernel
  have kept : (drawn [.content "\nHi".toList]).map (·.call.content) = ["\nHi".toList] := by
    decide +kernel
  refine ⟨taken, kept, fun same => ?_⟩
  exact absurd (taken.symm.trans ((congrArg _ same).trans kept)) (by decide)

end Pass

end Letterhead
