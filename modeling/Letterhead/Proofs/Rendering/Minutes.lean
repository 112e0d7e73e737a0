import Letterhead.Proofs.Rendering.Invariant
import Letterhead.Surface.Script

/-!
What the report of a pass holds, on any surface at all: a message for each call that failed, and
every warning that has come up on the surface, each of them once and both in their own order.
-/

namespace Letterhead

open Markup (Token)

variable {σ : Type}

-- The third list is made up of the items of the other two, which keep their order.
inductive Merged {α : Type} : List α → List α → List α → Prop
  | nil : Merged [] [] []
  | left {first second whole : List α} (item : α) (rest : Merged first second whole) :
      Merged (item :: first) second (item :: whole)
  | right {first second whole : List α} (item : α) (rest : Merged first second whole) :
      Merged first (item :: second) (item :: whole)

namespace Merged

variable {α : Type} {first second whole more others all : List α}

theorem ofLeft (items : List α) : Merged items [] items := by
  induction items with
  | nil => exact .nil
  | cons item rest ih => exact .left item ih

theorem ofRight (items : List α) : Merged [] items items := by
  induction items with
  | nil => exact .nil
  | cons item rest ih => exact .right item ih

theorem append (one : Merged first second whole) (two : Merged more others all) :
    Merged (first ++ more) (second ++ others) (whole ++ all) := by
  induction one with
  | nil => exact two
  | left item _ ih => exact .left item ih
  | right item _ ih => exact .right item ih

theorem eq_of_left_nil (merged : Merged [] second whole) : whole = second := by
  generalize nothing : ([] : List α) = first at merged
  induction merged with
  | nil => rfl
  | left item rest => cases nothing
  | right item rest ih => rw [ih nothing]

end Merged

/-! ### Surfaces that keep minutes -/

/-- How a surface answered a call, and the page that was current then. -/
structure Answer where
  call : Call
  result : Except DrawFault Unit
  page : Nat

def Answer.failure? (answer : Answer) : Option String :=
  match answer.result with
  | .ok () => none
  | .error fault => some (failureMessage answer.call answer.page fault)

structure Minuted (σ : Type) where
  surface : σ
  /-- All answers, the earliest first. -/
  answers : List Answer
  /-- All warnings that ever came up, the earliest first. -/
  warned : List String

namespace Minuted

def calls (state : Minuted σ) : List Call := state.answers.map Answer.call

def traced (state : Minuted σ) : Traced σ := ⟨state.surface, state.calls.reverse⟩

def failures (state : Minuted σ) : List String := state.answers.filterMap Answer.failure?

-- The warnings after a step: those that wait now and did not wait before have come up in it.
def warnedAfter (pending : σ → List String) (state : Minuted σ) (after : σ) : List String :=
  state.warned ++ (pending after).drop (pending state.surface).length

end Minuted

namespace Surface

/-- Answers as the surface does, and keeps its answers and the warnings that come up. -/
def minuting (surface : Surface σ) (pending : σ → List String) : Surface (Minuted σ) where
  answer call state :=
    let (result, after) := surface.answer call state.surface
    (result, {
      surface := after
      answers := state.answers ++ [⟨call, result, surface.currentPage after⟩]
      warned := state.warnedAfter pending after })
  currentPage state := surface.currentPage state.surface
  drainBreaks state :=
    let (breaks, after) := surface.drainBreaks state.surface
    (breaks, { state with surface := after, warned := state.warnedAfter pending after })
  drainWarnings state :=
    let (warnings, after) := surface.drainWarnings state.surface
    (warnings, { state with surface := after })

/-- The surface adds to the warnings that wait, hands them all out when asked, and has none then. -/
structure Pends (surface : Surface σ) (pending : σ → List String) : Prop where
  answer (call : Call) (state : σ) : pending state <+: pending (surface.answer call state).2
  drainBreaks (state : σ) : pending state <+: pending (surface.drainBreaks state).2
  handsOut (state : σ) : (surface.drainWarnings state).1 = pending state
  clears (state : σ) : pending (surface.drainWarnings state).2 = []

variable (surface : Surface σ) (pending : σ → List String)

theorem minuting_views : (surface.minuting pending).Views surface Minuted.surface :=
  ⟨fun _ _ => rfl, fun _ => rfl, fun _ => rfl, fun _ => rfl⟩

theorem minuting_views_tracing : (surface.minuting pending).Views surface.tracing Minuted.traced where
  answer call state := by simp [minuting, tracing, Minuted.traced, Minuted.calls]
  currentPage _ := rfl
  drainBreaks _ := rfl
  drainWarnings _ := rfl

end Surface

/-! ### Accounts -/

namespace Pass

-- The report holds the failures and the warnings collected so far; the others still wait.
def Accounts (pending : σ → List String) (pass : Pass (Minuted σ)) : Prop :=
  ∃ collected, pass.surface.warned = collected ++ pending pass.surface.surface ∧
    Merged pass.surface.failures collected pass.report.messages

variable {surface : Surface σ} {pending : σ → List String}

theorem warnedAfter_eq {state : Minuted σ} {collected : List String} {after : σ}
    (waiting : state.warned = collected ++ pending state.surface)
    (grown : pending state.surface <+: pending after) :
    state.warnedAfter pending after = collected ++ pending after := by
  obtain ⟨more, grown⟩ := grown
  rw [Minuted.warnedAfter, waiting, ← grown, List.drop_left, List.append_assoc]

-- A call adds the same message to the report as to the failures, or none.
theorem perform_failed (surface : Surface σ) (pending : σ → List String) (pass : Pass (Minuted σ))
    (call : Call) :
    ∃ failed, (pass.perform (surface.minuting pending) call).surface.failures =
        pass.surface.failures ++ failed ∧
      (pass.perform (surface.minuting pending) call).report.messages =
        pass.report.messages ++ failed := by
  rcases answered : surface.answer call pass.surface.surface with ⟨fault | _, after⟩
  · refine ⟨[failureMessage call (surface.currentPage after) fault], ?_, ?_⟩ <;>
      simp [perform, Surface.minuting, answered, Minuted.failures, Answer.failure?, Report.add]
  · refine ⟨[], ?_, ?_⟩ <;>
      simp [perform, Surface.minuting, answered, Minuted.failures, Answer.failure?]

theorem keeps_accounts (pends : surface.Pends pending) :
    Pass.Keeps (surface.minuting pending) (Accounts pending) where
  perform call pass before := by
    obtain ⟨collected, waiting, merged⟩ := before
    refine ⟨collected, ?_, ?_⟩
    · rw [perform_surface]
      exact warnedAfter_eq waiting (pends.answer call pass.surface.surface)
    · obtain ⟨failed, kept, reported⟩ := perform_failed surface pending pass call
      rw [kept, reported, ← List.append_nil collected]
      exact merged.append (.ofLeft failed)
  drainBreaks {pass} before := by
    obtain ⟨collected, waiting, merged⟩ := before
    exact ⟨collected, warnedAfter_eq waiting (pends.drainBreaks pass.surface.surface), merged⟩
  collectWarnings {pass} before := by
    obtain ⟨collected, waiting, merged⟩ := before
    have cleared : pending (pass.collectWarnings (surface.minuting pending)).surface.surface = [] :=
      pends.clears pass.surface.surface
    refine ⟨collected ++ pending pass.surface.surface, ?_, ?_⟩
    · rw [cleared, List.append_nil]
      exact waiting
    · have reported := merged.append (.ofRight (pending pass.surface.surface))
      rw [List.append_nil, ← pends.handsOut] at reported
      rw [← pends.handsOut]
      exact reported
  aside _ _ _ before := before

theorem run_accounts (pends : surface.Pends pending) (brief : Brief) {pass : Pass (Minuted σ)}
    (before : pass.Accounts pending) (tokens : List Token) :
    Merged (pass.run (surface.minuting pending) brief tokens).surface.failures
      (pass.run (surface.minuting pending) brief tokens).surface.warned
      (pass.run (surface.minuting pending) brief tokens).report.messages := by
  obtain ⟨collected, waiting, merged⟩ := (keeps_accounts pends).run brief before tokens
  have cleared : pending (pass.run (surface.minuting pending) brief tokens).surface.surface = [] := by
    rw [run_eq]
    exact pends.clears _
  rwa [waiting, cleared, List.append_nil]

end Pass

/-! ### Scripts -/

namespace Script

theorem foldl_obey_warnings (rules : List Rule) (state : Script × Option DrawFault) :
    state.1.warnings <+: (rules.foldl obey state).1.warnings := by
  induction rules generalizing state with
  | nil => exact List.prefix_refl _
  | cons rule rest ih => exact (List.prefix_append _ rule.warnings).trans (ih (obey state rule))

theorem surface_pends : surface.Pends Script.warnings where
  answer call script := by
    have grown := foldl_obey_warnings (script.rules.filter (·.event == call.event)) (script, none)
    simp only [surface, answer]
    split <;> exact grown
  drainBreaks _ := List.prefix_refl _
  handsOut _ := rfl
  clears _ := rfl

end Script

/-! ### Passes -/

namespace Pass

/-- Whatever a surface answers and warns of, and whenever it does, the report of the pass is made up
of the messages of the calls that failed, in the order of the calls, and of all warnings that have
come up, in the order in which they did. Keeping minutes does not change the run. -/
theorem reports_everything_once (surface : Surface σ) {pending : σ → List String}
    (pends : surface.Pends pending) (brief : Brief) (state : σ) (text : TextState)
    (tokens : List Token) :
    let last := Pass.run (surface.minuting pending) brief
      { surface := ⟨state, [], pending state⟩, text } tokens
    last.through Minuted.surface = Pass.run surface brief { surface := state, text } tokens ∧
      last.surface.calls =
        (Pass.run surface.tracing brief { surface := ⟨state, []⟩, text } tokens).surface.calls ∧
      Merged last.surface.failures last.surface.warned last.report.messages := by
  intro last
  refine ⟨?_, ?_, ?_⟩
  · exact run_through brief (surface.minuting_views pending) _ tokens
  · have same := run_through brief (surface.minuting_views_tracing pending)
      { surface := ⟨state, [], pending state⟩, text } tokens
    have calls := congrArg (·.surface.calls) same
    exact (List.reverse_reverse last.surface.calls).symm.trans calls
  · have fresh : Accounts pending { surface := ⟨state, [], pending state⟩, text } := ⟨[], rfl, .nil⟩
    exact run_accounts pends brief fresh tokens

-- Problems at the first call of all, while drawing, while stamping and at the last call.
def troubled : List Rule :=
  [{ event := "style:".toList, warnings := ["no such face"] },
    { event := "a".toList, newPages := 1, warnings := ["clipped"], fault := some (.fault .closed) },
    { event := "stamp:1".toList, warnings := ["stamped askew"], fault := some .noCurrentPage },
    { event := "finalize".toList, warnings := ["disk nearly full"], fault := some (.fault (.io "disk full")) }]

theorem reports_troubles_once :
    Script.surface.Pends Script.warnings ∧
    let last := Pass.run (Script.surface.minuting Script.warnings) ⟨5, 1⟩
      { surface := ⟨{ rules := troubled }, [], []⟩, text := .ofSizes 9 6 } [.content ['a'], .content ['b']]
    last.surface.failures =
        ["Failed to draw content on page 2: Surface has already been finalized",
          "Failed to stamp template on page 2: Page 2 does not exist",
          "Failed to write document on page 2: I/O error: disk full"] ∧
      last.surface.warned = ["no such face", "clipped", "stamped askew", "disk nearly full"] ∧
      Merged last.surface.failures last.surface.warned last.report.messages := by
  obtain ⟨-, -, merged⟩ := reports_everything_once Script.surface Script.surface_pends ⟨5, 1⟩
    { rules := troubled } (.ofSizes 9 6) [.content ['a'], .content ['b']]
  exact ⟨Script.surface_pends, by decide +kernel, by decide +kernel, merged⟩

end Pass

end Letterhead
