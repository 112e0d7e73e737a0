import Letterhead.Cell.State
import Letterhead.Markup.Token
import Letterhead.Overlay
import Letterhead.Report
import Letterhead.Style
import Letterhead.Surface.Basic

/-!
One pass over the tokens of a text. `TextState` decides which call a token asks for, and looks at
nothing but the tokens. `Pass` makes the calls on a surface, puts a template page behind every page
that the surface reports as finished, and behind the last one, and keeps what went wrong. No
failure stops the pass.
-/

namespace Letterhead

open Markup (Tag Token)

/-! ### What the tokens ask for -/

inductive TagRole where
  | style (tag : Emphasis)
  | small
  | cell
  | unknown
deriving DecidableEq, Repr

def TagRole.ofName (name : List Char) : TagRole :=
  match Emphasis.ofName? name with
  | some tag => .style tag
  | none =>
    if name = ['S', 'M', 'A', 'L', 'L'] then .small
    else if name = ['C', 'E', 'L', 'L'] then .cell
    else .unknown

structure TextState where
  style : StyleCounts := {}
  sizes : FontSizes
  cell : CellState := {}
deriving Repr

namespace TextState

def ofSizes (regular small : Float32) : TextState := { sizes := ⟨regular, small, false⟩ }

def opening (state : TextState) : List Call :=
  [.selectStyle state.style.variant, .selectSize state.sizes.current]

/-- Content in a cell is a cell of its own. Without any text left there is nothing to draw. -/
def drawing (lineHeight : Float32) (layout : Option CellLayout) (content : List Char) :
    Option Call :=
  if content.isEmpty then none
  else match layout with
    | some layout => some (.boxText content layout)
    | none => some (.flowText lineHeight content)

def stepTag (state : TextState) (tag : Tag) : Option Call × TextState :=
  match TagRole.ofName tag.name with
  | .style style =>
    let counts := if tag.closing then state.style.closed style else state.style.opened style
    (some (.selectStyle counts.variant), { state with style := counts })
  | .small =>
    let sizes := state.sizes.select !tag.closing
    (some (.selectSize sizes.current), { state with sizes })
  | .cell =>
    let cell := if tag.closing then state.cell.closed else state.cell.opened tag.attributes
    (none, { state with cell })
  | .unknown => (none, state)

def step (lineHeight : Float32) (state : TextState) : Token → Option Call × TextState
  | .content text =>
    let (content, cell) := state.cell.prepare text
    (drawing lineHeight cell.layout content, { state with cell })
  | .tag tag => state.stepTag tag

def calls (lineHeight : Float32) : TextState → List Token → List Call
  | _, [] => []
  | state, token :: rest =>
    let (call, state) := state.step lineHeight token
    call.toList ++ calls lineHeight state rest

end TextState

/-! ### The pass -/

structure Brief where
  lineHeight : Float32
  templatePages : Nat

structure Pass (σ : Type) where
  surface : σ
  text : TextState
  /-- Pages that have had their turn, the latest first. -/
  served : List Nat := []
  report : Report := {}

def Call.purpose : Call → String
  | .selectStyle _ => "select font style"
  | .selectSize _ => "select font size"
  | .flowText _ _ | .boxText _ _ => "draw content"
  | .stamp _ _ => "stamp template"
  | .write => "write document"

/-- Names the page that is current after the call, also where another page was stamped. -/
def failureMessage (call : Call) (page : Nat) (fault : DrawFault) : String :=
  "Failed to " ++ call.purpose ++ " on page " ++ toString page ++ ": " ++ fault.message

namespace Pass

variable {σ : Type} (surface : Surface σ)

def perform (pass : Pass σ) (call : Call) : Pass σ :=
  let (result, after) := surface.answer call pass.surface
  let pass := { pass with surface := after }
  match result with
  | .ok () => pass
  | .error fault =>
    { pass with report := pass.report.add (failureMessage call (surface.currentPage after) fault) }

def collectWarnings (pass : Pass σ) : Pass σ :=
  let (warnings, after) := surface.drainWarnings pass.surface
  { pass with surface := after, report := pass.report.addAll warnings }

variable (brief : Brief)

/-- Each page gets one turn, whether or not stamping succeeds. -/
def layTemplate (pass : Pass σ) (page : Nat) : Pass σ :=
  if pass.served.contains page then pass
  else
    let pass := { pass with served := page :: pass.served }
    match overlay? brief.templatePages page with
    | none => pass
    | some templatePage => pass.perform surface (.stamp page templatePage)

/-- Pages that end while others are stamped wait for the next time. -/
def collect (pass : Pass σ) : Pass σ :=
  let (breaks, after) := surface.drainBreaks pass.surface
  (breaks.foldl (layTemplate surface brief) { pass with surface := after }).collectWarnings surface

def start (pass : Pass σ) : Pass σ := pass.text.opening.foldl (perform surface) pass

def feed (pass : Pass σ) (token : Token) : Pass σ :=
  let (call, text) := pass.text.step brief.lineHeight token
  (call.toList.foldl (perform surface) { pass with text }).collect surface brief

def close (pass : Pass σ) : Pass σ :=
  let pass := pass.collect surface brief
  let pass := pass.layTemplate surface brief (surface.currentPage pass.surface)
  (pass.perform surface .write).collectWarnings surface

def run (pass : Pass σ) (tokens : List Token) : Pass σ :=
  (tokens.foldl (feed surface brief) (pass.start surface)).close surface brief

end Pass

def render {σ : Type} (surface : Surface σ) (brief : Brief) (text : TextState) (state : σ)
    (source : List Char) : Pass σ :=
  Pass.run surface brief { surface := state, text } (Markup.tokenize source)

end Letterhead
