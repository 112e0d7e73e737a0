import Letterhead.Proofs.Rendering.Tracing

/-!
What is kept at each step of a pass holds when the pass is over, if it held before. What a surface
keeps at every answer, and whenever it hands something out, is a case of it.
-/

namespace Letterhead

open Markup (Token)

variable {σ : Type}

/-! ### What a pass keeps -/

/-- Something holds of a pass whatever is done on the surface and to the state of the text. -/
structure Pass.Keeps (surface : Surface σ) (holds : Pass σ → Prop) : Prop where
  perform (call : Call) {pass : Pass σ} (before : holds pass) : holds (pass.perform surface call)
  drainBreaks {pass : Pass σ} (before : holds pass) :
    holds { pass with surface := (surface.drainBreaks pass.surface).2 }
  collectWarnings {pass : Pass σ} (before : holds pass) : holds (pass.collectWarnings surface)
  aside (text : TextState) (served : List Nat) {pass : Pass σ} (before : holds pass) :
    holds { pass with text, served }

namespace Pass.Keeps

variable {surface : Surface σ} {holds : Pass σ → Prop} {pass : Pass σ}

theorem foldl {α : Type} {step : Pass σ → α → Pass σ}
    (each : ∀ {pass : Pass σ}, holds pass → ∀ item, holds (step pass item))
    (before : holds pass) (items : List α) : holds (items.foldl step pass) := by
  induction items generalizing pass with
  | nil => exact before
  | cons item rest ih => exact ih (each before item)

variable (keeps : Pass.Keeps surface holds) (brief : Brief)

include keeps

theorem layTemplate (before : holds pass) (page : Nat) :
    holds (pass.layTemplate surface brief page) := by
  rw [Pass.layTemplate]
  split
  · exact before
  · have turned : holds { pass with served := page :: pass.served } := keeps.aside pass.text _ before
    rcases overlay? brief.templatePages page with _ | templatePage
    · exact turned
    · exact keeps.perform (.stamp page templatePage) turned

theorem collect (before : holds pass) : holds (pass.collect surface brief) :=
  keeps.collectWarnings (foldl (keeps.layTemplate brief) (keeps.drainBreaks before) _)

theorem feed (before : holds pass) (token : Token) : holds (pass.feed surface brief token) := by
  have moved := keeps.aside (pass.text.step brief.lineHeight token).2 pass.served before
  exact keeps.collect brief (foldl (fun before call => keeps.perform call before) moved _)

theorem beforeWriting (before : holds pass) (tokens : List Token) :
    holds (pass.beforeWriting surface brief tokens) := by
  have started : holds (pass.start surface) :=
    foldl (fun before call => keeps.perform call before) before pass.text.opening
  have fed := foldl (keeps.feed brief) started tokens
  exact keeps.layTemplate brief (keeps.collect brief fed) _

theorem run (before : holds pass) (tokens : List Token) : holds (pass.run surface brief tokens) :=
  keeps.collectWarnings (keeps.perform .write (keeps.beforeWriting brief before tokens))

end Pass.Keeps

/-! ### What a surface keeps -/

structure Surface.Keeps (surface : Surface σ) (holds : σ → Prop) : Prop where
  answer (call : Call) {state : σ} (before : holds state) : holds (surface.answer call state).2
  drainBreaks {state : σ} (before : holds state) : holds (surface.drainBreaks state).2
  drainWarnings {state : σ} (before : holds state) : holds (surface.drainWarnings state).2

namespace Surface.Keeps

variable {surface : Surface σ} {holds : σ → Prop} (keeps : surface.Keeps holds)

include keeps

theorem pass : Pass.Keeps surface fun pass => holds pass.surface where
  perform call pass before := by
    rw [Pass.perform_surface]
    exact keeps.answer call before
  drainBreaks before := keeps.drainBreaks before
  collectWarnings before := keeps.drainWarnings before
  aside _ _ _ before := before

theorem beforeWriting (brief : Brief) {pass : Pass σ} (before : holds pass.surface)
    (tokens : List Token) : holds (pass.beforeWriting surface brief tokens).surface :=
  keeps.pass.beforeWriting brief before tokens

end Surface.Keeps

end Letterhead
