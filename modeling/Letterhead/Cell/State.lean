import Letterhead.Cell.Layout

/-!
Where content goes. Between a cell's opening and closing tag each piece of content is drawn as a
cell of its own; elsewhere it flows as text. After a cell closes, one line break at the start of
content is swallowed, until content with visible text has come.
-/

namespace Letterhead

structure CellState where
  layout : Option CellLayout := none
  skipsBreak : Bool := false
deriving Repr

namespace CellState

/-- An open cell is replaced. -/
def opened (state : CellState) (attributes : Markup.Attributes) : CellState :=
  { state with layout := some (.ofAttributes attributes) }

def closed (_ : CellState) : CellState := { layout := none, skipsBreak := true }

def dropBreak : List Char → List Char
  | '\r' :: '\n' :: rest => rest
  | '\n' :: rest => rest
  | text => text

/-- The content to draw, and the state after it. -/
def prepare (state : CellState) (content : List Char) : List Char × CellState :=
  if state.skipsBreak && !content.isEmpty then
    let kept := dropBreak content
    (kept, { state with skipsBreak := kept.all Text.isBlank })
  else (content, state)

theorem prepare_layout (state : CellState) (content : List Char) :
    (state.prepare content).2.layout = state.layout := by
  rw [prepare]
  split <;> rfl

-- A line break is blank itself, so dropping one makes no difference.
theorem all_isBlank_dropBreak (text : List Char) :
    (dropBreak text).all Text.isBlank = text.all Text.isBlank := by
  have feed : Text.isBlank '\n' = true := by decide
  have carriage : Text.isBlank '\r' = true := by decide
  unfold dropBreak
  split <;> simp [feed, carriage]

-- Without any content there is nothing to drop, and the flag is as it was.
theorem prepare_eq (state : CellState) (content : List Char) :
    state.prepare content =
      if state.skipsBreak then
        (dropBreak content, { state with skipsBreak := content.all Text.isBlank })
      else (content, state) := by
  obtain ⟨layout, skips⟩ := state
  cases skips with
  | false => rfl
  | true =>
    cases content with
    | nil => rfl
    | cons c rest => simp [prepare, all_isBlank_dropBreak]

end CellState

end Letterhead
