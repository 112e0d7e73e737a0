import Letterhead.Rendering

/-!
A pass on a surface that keeps more than another one, and answers alike, is the same pass as on the
other one. A surface that keeps its calls is such a surface.
-/

namespace Letterhead

open Markup (Token)

variable {σ : Type} (surface : Surface σ) (brief : Brief)

namespace Pass

/-- The pass up to the last call, which writes the pages. -/
def beforeWriting (pass : Pass σ) (tokens : List Token) : Pass σ :=
  let pass := (tokens.foldl (feed surface brief) (pass.start surface)).collect surface brief
  pass.layTemplate surface brief (surface.currentPage pass.surface)

-- All tokens are drawn, and the pages that ended meanwhile had their turn.
def drawn (pass : Pass σ) (tokens : List Token) : Pass σ :=
  (tokens.foldl (feed surface brief) (pass.start surface)).collect surface brief

-- The page whose turn is the last.
def lastPage (pass : Pass σ) (tokens : List Token) : Nat :=
  surface.currentPage (pass.drawn surface brief tokens).surface

theorem beforeWriting_eq (pass : Pass σ) (tokens : List Token) :
    pass.beforeWriting surface brief tokens =
      (pass.drawn surface brief tokens).layTemplate surface brief (pass.lastPage surface brief tokens) :=
  rfl

theorem run_eq (pass : Pass σ) (tokens : List Token) :
    pass.run surface brief tokens =
      ((pass.beforeWriting surface brief tokens).perform surface .write).collectWarnings surface :=
  rfl

-- A call changes the surface as the surface answers, and adds to the report if it fails.
theorem perform_eq (pass : Pass σ) (call : Call) :
    pass.perform surface call =
      { pass with
        surface := (surface.answer call pass.surface).2
        report :=
          match (surface.answer call pass.surface).1 with
          | .ok () => pass.report
          | .error fault => pass.report.add (failureMessage call
              (surface.currentPage (surface.answer call pass.surface).2) fault) } := by
  rw [perform]
  rcases surface.answer call pass.surface with ⟨_ | _, after⟩ <;> rfl

theorem perform_surface (pass : Pass σ) (call : Call) :
    (pass.perform surface call).surface = (surface.answer call pass.surface).2 := by
  rw [perform_eq]

theorem perform_text (pass : Pass σ) (call : Call) : (pass.perform surface call).text = pass.text := by
  rw [perform_eq]

theorem foldl_perform_text (call : Option Call) (pass : Pass σ) :
    (call.toList.foldl (perform surface) pass).text = pass.text := by
  rcases call with _ | call
  · rfl
  · exact perform_text surface pass call

theorem perform_served (pass : Pass σ) (call : Call) :
    (pass.perform surface call).served = pass.served := by
  rw [perform_eq]

end Pass

/-! ### Surfaces that keep more -/

-- Seen through `view`, the wide surface is the narrow one.
structure Surface.Views {τ : Type} (wide : Surface τ) (narrow : Surface σ) (view : τ → σ) : Prop where
  answer (call : Call) (state : τ) :
    narrow.answer call (view state) = ((wide.answer call state).1, view (wide.answer call state).2)
  currentPage (state : τ) : narrow.currentPage (view state) = wide.currentPage state
  drainBreaks (state : τ) :
    narrow.drainBreaks (view state) = ((wide.drainBreaks state).1, view (wide.drainBreaks state).2)
  drainWarnings (state : τ) :
    narrow.drainWarnings (view state) =
      ((wide.drainWarnings state).1, view (wide.drainWarnings state).2)

namespace Pass

variable {τ : Type} {wide : Surface τ} {narrow : Surface σ} {view : τ → σ}

def through (view : τ → σ) (pass : Pass τ) : Pass σ :=
  ⟨view pass.surface, pass.text, pass.served, pass.report⟩

theorem perform_through (views : wide.Views narrow view) (pass : Pass τ) (call : Call) :
    (pass.perform wide call).through view = (pass.through view).perform narrow call := by
  rw [perform_eq, perform_eq]
  simp only [through, views.answer, views.currentPage]

theorem layTemplate_through (views : wide.Views narrow view) (pass : Pass τ) (page : Nat) :
    (pass.layTemplate wide brief page).through view =
      (pass.through view).layTemplate narrow brief page := by
  have served : (pass.through view).served = pass.served := rfl
  simp only [layTemplate, served]
  split
  · rfl
  · rcases overlay? brief.templatePages page with _ | templatePage
    · rfl
    · exact perform_through views _ _

theorem collectWarnings_through (views : wide.Views narrow view) (pass : Pass τ) :
    (pass.collectWarnings wide).through view = (pass.through view).collectWarnings narrow := by
  simp only [collectWarnings, through, views.drainWarnings]

theorem collect_through (views : wide.Views narrow view) (pass : Pass τ) :
    (pass.collect wide brief).through view = (pass.through view).collect narrow brief := by
  simp only [collect]
  rw [collectWarnings_through views, ← List.foldl_hom (through view) fun passed page =>
    (layTemplate_through brief views passed page).symm]
  simp only [through, views.drainBreaks]

theorem feed_through (views : wide.Views narrow view) (pass : Pass τ) (token : Token) :
    (pass.feed wide brief token).through view = (pass.through view).feed narrow brief token := by
  simp only [feed]
  rw [collect_through brief views, ← List.foldl_hom (through view) fun passed call =>
    (perform_through views passed call).symm]
  rfl

theorem drawn_through (views : wide.Views narrow view) (pass : Pass τ) (tokens : List Token) :
    (pass.drawn wide brief tokens).through view = (pass.through view).drawn narrow brief tokens := by
  have started : (pass.through view).start narrow = (pass.start wide).through view :=
    List.foldl_hom (through view) fun passed call => (perform_through views passed call).symm
  rw [drawn, drawn, collect_through brief views, started,
    List.foldl_hom (through view) fun passed token => (feed_through brief views passed token).symm]

theorem lastPage_through (views : wide.Views narrow view) (pass : Pass τ) (tokens : List Token) :
    (pass.through view).lastPage narrow brief tokens = pass.lastPage wide brief tokens := by
  rw [lastPage, ← drawn_through brief views]
  exact views.currentPage _

theorem beforeWriting_through (views : wide.Views narrow view) (pass : Pass τ)
    (tokens : List Token) :
    (pass.beforeWriting wide brief tokens).through view =
      (pass.through view).beforeWriting narrow brief tokens := by
  rw [beforeWriting_eq, beforeWriting_eq, layTemplate_through brief views, drawn_through brief views,
    lastPage_through brief views]

theorem run_through (views : wide.Views narrow view) (pass : Pass τ) (tokens : List Token) :
    (pass.run wide brief tokens).through view = (pass.through view).run narrow brief tokens := by
  rw [run_eq, run_eq, collectWarnings_through views, perform_through views,
    beforeWriting_through brief views]

/-! ### Without the calls -/

theorem tracing_views : surface.tracing.Views surface Traced.surface :=
  ⟨fun _ _ => rfl, fun _ => rfl, fun _ => rfl, fun _ => rfl⟩

def untraced (pass : Pass (Traced σ)) : Pass σ :=
  ⟨pass.surface.surface, pass.text, pass.served, pass.report⟩

variable (pass : Pass (Traced σ))

theorem beforeWriting_untraced (tokens : List Token) :
    (pass.beforeWriting surface.tracing brief tokens).untraced =
      pass.untraced.beforeWriting surface brief tokens :=
  beforeWriting_through brief (tracing_views surface) pass tokens

theorem run_untraced (tokens : List Token) :
    (pass.run surface.tracing brief tokens).untraced = pass.untraced.run surface brief tokens :=
  run_through brief (tracing_views surface) pass tokens

end Pass

end Letterhead
