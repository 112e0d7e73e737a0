import Letterhead.Proofs.Rendering.Tracing

/-!
The calls of a pass, on any surface at all: the tokens decide on all calls but the stamps, and the
stamps are those of the pages in the order in which they had their turn.
-/

namespace Letterhead

open Markup (Tag Token)

def Call.isStamp : Call → Bool
  | .stamp _ _ => true
  | _ => false

def Call.isDrawing : Call → Bool
  | .stamp _ _ | .write => false
  | _ => true

variable {σ : Type}

namespace Traced

def stamps (state : Traced σ) : List Call := state.calls.filter Call.isStamp

def others (state : Traced σ) : List Call := state.calls.filter (!·.isStamp)

end Traced

namespace TextState

variable (lineHeight : Float32) (state : TextState)

theorem stepTag_drawing (tag : Tag) (call : Call) (asked : call ∈ (state.stepTag tag).1) :
    call.isDrawing = true := by
  rw [stepTag] at asked
  split at asked <;> cases asked <;> rfl

theorem drawing_drawing (layout : Option CellLayout) (content : List Char) (call : Call)
    (asked : call ∈ drawing lineHeight layout content) : call.isDrawing = true := by
  unfold drawing at asked
  split at asked
  · cases asked
  · split at asked <;> cases asked <;> rfl

theorem step_drawing (token : Token) (call : Call) (asked : call ∈ (state.step lineHeight token).1) :
    call.isDrawing = true := by
  cases token with
  | content text => exact drawing_drawing lineHeight _ _ call asked
  | tag tag => exact stepTag_drawing state tag call asked

theorem calls_drawing (tokens : List Token) :
    ∀ call ∈ state.calls lineHeight tokens, call.isDrawing = true := by
  intro call asked
  induction tokens generalizing state with
  | nil => cases asked
  | cons token rest ih =>
    rcases List.mem_append.mp asked with here | later
    · exact state.step_drawing lineHeight token call (Option.mem_toList.mp here)
    · exact ih _ later

/-- The two sizes are set once and for all. -/
theorem step_sizes (token : Token) :
    (state.step lineHeight token).2.sizes.regular = state.sizes.regular ∧
      (state.step lineHeight token).2.sizes.small = state.sizes.small := by
  cases token with
  | content text => exact ⟨rfl, rfl⟩
  | tag tag =>
    simp only [step, stepTag]
    split <;> exact ⟨rfl, rfl⟩

/-- A cell that is open after a token was open before, or is that of the token. -/
theorem step_layout {token : Token} {layout : CellLayout}
    (open_after : (state.step lineHeight token).2.cell.layout = some layout) :
    state.cell.layout = some layout ∨ ∃ tag, token = .tag tag ∧ TagRole.ofName tag.name = .cell ∧
      tag.closing = false ∧ layout = .ofAttributes tag.attributes := by
  cases token with
  | content text =>
    exact .inl (state.cell.prepare_layout text ▸ open_after)
  | tag tag =>
    simp only [step, stepTag] at open_after
    split at open_after
    · exact .inl open_after
    · exact .inl open_after
    · rename_i role
      simp only at open_after
      split at open_after <;> cases open_after
      rename_i opens
      exact .inr ⟨tag, rfl, role, Bool.not_eq_true _ ▸ opens, rfl⟩
    · exact .inl open_after

theorem opening_drawing : ∀ call ∈ state.opening, call.isDrawing = true := by
  intro call asked
  simp only [opening, List.mem_cons, List.not_mem_nil, or_false] at asked
  rcases asked with rfl | rfl <;> rfl

end TextState

theorem Call.isStamp_of_isDrawing {call : Call} (draws : call.isDrawing = true) :
    call.isStamp = false := by
  cases call <;> first | rfl | cases draws

namespace Pass

variable (surface : Surface σ) (brief : Brief) (pass : Pass (Traced σ))

def stampFor? (page : Nat) : Option Call := (overlay? brief.templatePages page).map (.stamp page)

theorem perform_calls (call : Call) :
    (pass.perform surface.tracing call).surface.calls = pass.surface.calls ++ [call] := by
  rw [perform_eq]
  simp [Surface.tracing, Traced.calls]

/-! ### Turns -/

-- The stamps of a pass are those of its pages, none of which had two turns.
def Stamped : Prop :=
  pass.surface.stamps = pass.served.reverse.filterMap (stampFor? brief) ∧ pass.served.Nodup

variable {pass}

theorem layTemplate_stamped (stamped : pass.Stamped brief) (page : Nat) :
    (pass.layTemplate surface.tracing brief page).Stamped brief := by
  rw [layTemplate]
  split
  · exact stamped
  · rename_i new
    obtain ⟨same, apart⟩ := stamped
    have unserved : (page :: pass.served).Nodup := by
      rw [List.nodup_cons]
      constructor
      · simpa using new
      · exact apart
    rcases chosen : overlay? brief.templatePages page with _ | templatePage
    · exact ⟨by simp [same, stampFor?, chosen], unserved⟩
    · constructor
      · rw [perform_served, Traced.stamps, perform_calls, List.filter_append]
        simp [← same, stampFor?, chosen, Call.isStamp, Traced.stamps]
      · rw [perform_served]
        exact unserved

-- The second pass is the first one after some pages had their turn.
structure Laid (before after : Pass (Traced σ)) : Prop where
  others : after.surface.others = before.surface.others
  text : after.text = before.text
  stamped : before.Stamped brief → after.Stamped brief

variable {brief} {before middle after : Pass (Traced σ)}

theorem Laid.trans (one : Laid brief before middle) (two : Laid brief middle after) :
    Laid brief before after where
  others := two.others.trans one.others
  text := two.text.trans one.text
  stamped start := two.stamped (one.stamped start)

variable (brief pass)

theorem layTemplate_laid (page : Nat) :
    Laid brief pass (pass.layTemplate surface.tracing brief page) := by
  constructor
  · rw [layTemplate]
    split
    · rfl
    · rcases overlay? brief.templatePages page with _ | templatePage
      · rfl
      · simp [Traced.others, perform_calls, Call.isStamp]
  · rw [layTemplate]
    split
    · rfl
    · rcases overlay? brief.templatePages page with _ | templatePage
      · rfl
      · exact perform_text _ _ _
  · intro stamped
    exact layTemplate_stamped surface brief stamped page

theorem foldl_laid (pages : List Nat) :
    Laid brief pass (pages.foldl (layTemplate surface.tracing brief) pass) := by
  induction pages generalizing pass with
  | nil => exact ⟨rfl, rfl, id⟩
  | cons page rest ih => exact (layTemplate_laid surface brief pass page).trans (ih _)

theorem collect_laid : Laid brief pass (pass.collect surface.tracing brief) := by
  have drained : Laid brief pass
      { pass with surface := (surface.tracing.drainBreaks pass.surface).2 } := ⟨rfl, rfl, id⟩
  have laid := drained.trans (foldl_laid surface brief _ (surface.tracing.drainBreaks pass.surface).1)
  exact ⟨laid.others, laid.text, laid.stamped⟩

/-! ### Tokens -/

theorem perform_plain (call : Call) (plain : call.isStamp = false) :
    (pass.perform surface.tracing call).surface.others = pass.surface.others ++ [call] ∧
      (pass.perform surface.tracing call).text = pass.text ∧
      (pass.Stamped brief → (pass.perform surface.tracing call).Stamped brief) := by
  refine ⟨?_, perform_text _ _ _, ?_⟩
  · simp [Traced.others, perform_calls, plain]
  · intro stamped
    rw [Stamped, perform_served, Traced.stamps, perform_calls]
    simpa [plain, Stamped, Traced.stamps] using stamped

theorem start_calls :
    (pass.start surface.tracing).surface.others = pass.surface.others ++ pass.text.opening ∧
      (pass.start surface.tracing).text = pass.text ∧
      (pass.Stamped brief → (pass.start surface.tracing).Stamped brief) := by
  obtain ⟨styled, text, first⟩ := perform_plain surface brief pass
    (.selectStyle pass.text.style.variant) rfl
  obtain ⟨sized, same, second⟩ := perform_plain surface brief
    (pass.perform surface.tracing (.selectStyle pass.text.style.variant))
    (.selectSize pass.text.sizes.current) rfl
  refine ⟨?_, same.trans text, fun stamped => second (first stamped)⟩
  rw [styled, List.append_assoc] at sized
  exact sized

theorem feed_calls (token : Token) :
    (pass.feed surface.tracing brief token).surface.others =
        pass.surface.others ++ (pass.text.step brief.lineHeight token).1.toList ∧
      (pass.feed surface.tracing brief token).text = (pass.text.step brief.lineHeight token).2 ∧
      (pass.Stamped brief → (pass.feed surface.tracing brief token).Stamped brief) := by
  have plain := pass.text.step_drawing brief.lineHeight token
  rw [feed]
  rcases asked : pass.text.step brief.lineHeight token with ⟨_ | call, text⟩
  · have laid := collect_laid surface brief { pass with text }
    exact ⟨by simpa using laid.others, laid.text, laid.stamped⟩
  · have drawn := Call.isStamp_of_isDrawing (plain call (by rw [asked]; rfl))
    have laid := collect_laid surface brief ({ pass with text }.perform surface.tracing call)
    obtain ⟨others, same, stamped⟩ := perform_plain surface brief { pass with text } call drawn
    exact ⟨laid.others.trans others, laid.text.trans same, fun start => laid.stamped (stamped start)⟩

theorem foldl_feed_calls (tokens : List Token) :
    (tokens.foldl (feed surface.tracing brief) pass).surface.others =
        pass.surface.others ++ pass.text.calls brief.lineHeight tokens ∧
      (pass.Stamped brief → (tokens.foldl (feed surface.tracing brief) pass).Stamped brief) := by
  induction tokens generalizing pass with
  | nil => exact ⟨(List.append_nil _).symm, id⟩
  | cons token rest ih =>
    obtain ⟨others, text, stamped⟩ := feed_calls surface brief pass token
    obtain ⟨later, kept⟩ := ih (pass.feed surface.tracing brief token)
    constructor
    · rw [List.foldl_cons, later, others, text, List.append_assoc]
      rfl
    · intro start
      exact kept (stamped start)

-- Which calls a pass makes, but for stamps, does not depend on what the surface answers.
theorem beforeWriting_calls (tokens : List Token) :
    (pass.beforeWriting surface.tracing brief tokens).surface.others =
        pass.surface.others ++ pass.text.opening ++ pass.text.calls brief.lineHeight tokens ∧
      (pass.Stamped brief → (pass.beforeWriting surface.tracing brief tokens).Stamped brief) := by
  obtain ⟨opened, text, start⟩ := start_calls surface brief pass
  obtain ⟨fed, kept⟩ := foldl_feed_calls surface brief (pass.start surface.tracing) tokens
  have laid := (collect_laid surface brief
    (tokens.foldl (feed surface.tracing brief) (pass.start surface.tracing))).trans
      (layTemplate_laid surface brief _ (surface.tracing.currentPage (Pass.collect surface.tracing brief
        (tokens.foldl (feed surface.tracing brief) (pass.start surface.tracing))).surface))
  constructor
  · rw [← opened, ← text]
    exact laid.others.trans fed
  · intro stamped
    exact laid.stamped (kept (start stamped))

theorem write_not_among {calls plain : List Call} (others : calls.filter (!·.isStamp) = plain)
    (drawing : ∀ call ∈ plain, call.isDrawing = true) :
    .write ∉ calls := by
  intro asked
  have other : Call.write ∈ calls.filter (!·.isStamp) := List.mem_filter.mpr ⟨asked, rfl⟩
  rw [others] at other
  cases drawing .write other

/-- All calls of a pass on a fresh surface: those that the tokens ask for, with a stamp for each
page that had its turn somewhere among them, and last the one that writes the pages. -/
theorem run_calls (unused : pass.surface.log = []) (unserved : pass.served = [])
    (tokens : List Token) :
    let last := pass.beforeWriting surface.tracing brief tokens
    (pass.run surface.tracing brief tokens).surface.calls = last.surface.calls ++ [.write] ∧
      .write ∉ last.surface.calls ∧
      last.surface.others = pass.text.opening ++ pass.text.calls brief.lineHeight tokens ∧
      last.Stamped brief := by
  intro last
  obtain ⟨made, stamped⟩ := beforeWriting_calls surface brief pass tokens
  have nothing : pass.surface.calls = [] := by rw [Traced.calls, unused]; rfl
  have others : last.surface.others = pass.text.opening ++ pass.text.calls brief.lineHeight tokens := by
    simpa [Traced.others, nothing] using made
  refine ⟨perform_calls surface _ .write, write_not_among others ?_, others, stamped ⟨?_, ?_⟩⟩
  · intro call asked
    rcases List.mem_append.mp asked with first | later
    · exact pass.text.opening_drawing call first
    · exact pass.text.calls_drawing brief.lineHeight tokens call later
  · simp [Traced.stamps, nothing, unserved]
  · rw [unserved]
    exact List.nodup_nil

end Pass

end Letterhead
