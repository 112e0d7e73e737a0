import Letterhead.Cell.Layout
import Letterhead.Decimal.Plain
import Letterhead.Font

/-!
What a renderer asks of the surface that it draws on. A surface is its answer to a call, a page
number, and two lists that it hands out and clears: the pages that it finished on its own, and its
warnings. Pages are numbered from one.
-/

namespace Letterhead

inductive Call where
  | selectStyle (variant : FontStyle)
  | selectSize (size : Float32)
  | flowText (lineHeight : Float32) (content : List Char)
  | boxText (content : List Char) (layout : CellLayout)
  /-- Puts a page of the template behind a page. -/
  | stamp (page templatePage : Nat)
  /-- Writes all pages. The last call of all. -/
  | write
deriving Repr

inductive DrawFault where
  | io (reason : String)
  | pdf (reason : String)
  | template (reason : String)
  | noTemplate
  | pageOutOfRange (page : Nat)
  | closed
  | invalidFontSize (size : Float32)
  | invalidCellSize (width height : Float32)
  | other (reason : String)
deriving Repr

def DrawFault.message : DrawFault → String
  | .io reason => "I/O error: " ++ reason
  | .pdf reason => "PDF generation error: " ++ reason
  | .template reason => "Template error: " ++ reason
  | .noTemplate => "No template document is loaded"
  | .pageOutOfRange page => "Page " ++ toString page ++ " does not exist"
  | .closed => "Surface has already been finalized"
  | .invalidFontSize size => "Other rendering error: Invalid font size " ++ Decimal.text size
  | .invalidCellSize width height =>
    "Other rendering error: Invalid cell size " ++ Decimal.text width ++ "x" ++ Decimal.text height
  | .other reason => "Other rendering error: " ++ reason

structure Surface (σ : Type) where
  answer : Call → σ → Except DrawFault Unit × σ
  currentPage : σ → Nat
  drainBreaks : σ → List Nat × σ
  drainWarnings : σ → List String × σ

structure Traced (σ : Type) where
  surface : σ
  /-- The latest first. -/
  log : List Call := []

def Traced.calls {σ : Type} (state : Traced σ) : List Call := state.log.reverse

/-- Answers as the surface does and keeps the calls. -/
def Surface.tracing {σ : Type} (surface : Surface σ) : Surface (Traced σ) where
  answer call state :=
    let (result, after) := surface.answer call state.surface
    (result, ⟨after, call :: state.log⟩)
  currentPage state := surface.currentPage state.surface
  drainBreaks state :=
    let (breaks, after) := surface.drainBreaks state.surface
    (breaks, { state with surface := after })
  drainWarnings state :=
    let (warnings, after) := surface.drainWarnings state.surface
    (warnings, { state with surface := after })

end Letterhead
