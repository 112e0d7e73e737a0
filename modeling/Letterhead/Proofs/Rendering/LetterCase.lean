import Letterhead.Proofs.Markup.LetterCase
import Letterhead.Proofs.Rendering.Tracing
import Letterhead.Surface.Script

/-!
The same text with the letters of its tags in another case. A step looks at the name of a tag and
at what a cell makes of its attributes, so both texts are the same to it.
-/

namespace Letterhead

open Markup (Tag Token Recased)

namespace TextState

variable (text : TextState)

theorem stepTag_folded (tag : Tag) : text.stepTag tag.folded = text.stepTag tag := by
  have opened : text.cell.opened tag.attributes.folded = text.cell.opened tag.attributes := by
    rw [CellState.opened, CellState.opened, CellLayout.ofAttributes_folded]
  rw [stepTag, stepTag, ← opened]
  rfl

theorem step_folded (lineHeight : Float32) (token : Token) :
    text.step lineHeight token.folded = text.step lineHeight token := by
  cases token with
  | content content => rfl
  | tag tag => exact text.stepTag_folded tag

end TextState

variable {σ : Type} (surface : Surface σ) (brief : Brief)

namespace Pass

theorem feed_folded (pass : Pass σ) (token : Token) :
    pass.feed surface brief token.folded = pass.feed surface brief token := by
  rw [feed, feed, TextState.step_folded]

theorem run_folded (pass : Pass σ) (tokens : List Token) :
    pass.run surface brief (tokens.map Token.folded) = pass.run surface brief tokens := by
  have same : (fun (pass : Pass σ) token => pass.feed surface brief token.folded) =
      feed surface brief := by
    funext pass token
    exact feed_folded surface brief pass token
  rw [run, run, List.foldl_map, same]

end Pass

theorem render_recased {source other : List Char} (recased : Recased source other) (text : TextState)
    (state : σ) : render surface brief text state other = render surface brief text state source := by
  rw [render, render, ← Pass.run_folded, recased.tokens, Pass.run_folded]

namespace Pass

/-- Whatever the surface, it makes no difference in which case the letters inside the tags of a text
are written: the same calls are made, and the pass ends in the same state with the same report. -/
theorem ignores_case_inside_tags {source other : List Char} (recased : Recased source other)
    (text : TextState) (state : σ) :
    (render surface.tracing brief text ⟨state, []⟩ other).surface.calls =
        (render surface.tracing brief text ⟨state, []⟩ source).surface.calls ∧
      (render surface brief text state other).report =
        (render surface brief text state source).report ∧
      render surface brief text state other = render surface brief text state source := by
  have same := render_recased surface brief recased text state
  refine ⟨?_, congrArg Pass.report same, same⟩
  rw [render_recased surface.tracing brief recased]

def capitalTags : List Char := "<CELL W=1E2 BORDER=LR W=20>Joe</CELL>\n<SMALL>1 < 2".toList

def smallTags : List Char := "<cell w=1e2 Border=lr W=20>Joe</cell>\n<small>1 < 2".toList

-- The last bracket opens no tag, so what follows it is content and may not change.
theorem recased_capitalTags : Recased capitalTags smallTags := by
  refine ⟨⟨[([], "CELL W=1E2 BORDER=LR W=20".toList), ("Joe".toList, "/CELL".toList),
      ("\n".toList, "SMALL".toList)], "1 < 2".toList⟩,
    ⟨[([], "cell w=1e2 Border=lr W=20".toList), ("Joe".toList, "/cell".toList),
      ("\n".toList, "small".toList)], "1 < 2".toList⟩, ⟨?_, ?_, ?_⟩, ?_, ?_, ?_⟩
  · simp [Markup.IsInterior]
  · have plain : ∀ content ∈ [[], "Joe".toList, "\n".toList], '<' ∉ content := by decide
    simpa using fun content member => Markup.eachOpening_of_not_mem Markup.Broken (plain content member)
  · exact Markup.split?_eq_none_iff.mp (by decide)
  · decide
  · decide
  · exact congrArg (Markup.Division.mk · "1 < 2".toList) (by decide +kernel)

theorem ignores_case_of_capitalTags :
    Recased capitalTags smallTags ∧ Markup.tokenize smallTags ≠ Markup.tokenize capitalTags ∧
    let traced source := render Script.surface.tracing ⟨5, 0⟩ (.ofSizes 9 6) ⟨{ rules := [] }, []⟩ source
    (traced smallTags).surface.calls = (traced capitalTags).surface.calls ∧
      (traced capitalTags).surface.calls.length = 6 := by
  have recased := recased_capitalTags
  obtain ⟨calls, -⟩ := ignores_case_inside_tags Script.surface ⟨5, 0⟩ recased (.ofSizes 9 6) { rules := [] }
  exact ⟨recased, by decide +kernel, calls, by decide +kernel⟩

end Pass

end Letterhead
