import Letterhead.Proofs.Rendering.Calls
import Mathlib.Data.List.Nodup

/-!
The turns of the pages on any surface at all, however it reports them: each page number that it
hands out has its turn when it comes up first, and the page that is current at the end has the last
one unless it had its turn before.
-/

namespace Letterhead

open Markup (Token)

variable {σ : Type}

structure Recorded (σ : Type) where
  surface : σ
  /-- The pages handed out as finished, the earliest first. -/
  handedOut : List Nat := []

/-- Answers as the surface does and keeps the pages that it hands out. -/
def Surface.recording (surface : Surface σ) : Surface (Recorded σ) where
  answer call state :=
    let (result, after) := surface.answer call state.surface
    (result, { state with surface := after })
  currentPage state := surface.currentPage state.surface
  drainBreaks state :=
    let (breaks, after) := surface.drainBreaks state.surface
    (breaks, ⟨after, state.handedOut ++ breaks⟩)
  drainWarnings state :=
    let (warnings, after) := surface.drainWarnings state.surface
    (warnings, { state with surface := after })

def Call.stamped? : Call → Option Nat
  | .stamp page _ => some page
  | _ => none

namespace Pass

variable (surface : Surface σ) (brief : Brief)

theorem recording_views : surface.recording.Views surface Recorded.surface :=
  ⟨fun _ _ => rfl, fun _ => rfl, fun _ => rfl, fun _ => rfl⟩

/-! ### One turn for each page -/

theorem layTemplate_served (pass : Pass σ) (page : Nat) :
    (pass.layTemplate surface brief page).served =
      if page ∈ pass.served then pass.served else page :: pass.served := by
  rw [layTemplate]
  by_cases had : page ∈ pass.served
  · simp [had]
  · rcases overlay? brief.templatePages page with _ | templatePage <;> simp [had, perform_served]

theorem eraseDups_concat (pages : List Nat) (page : Nat) :
    (pages ++ [page]).eraseDups =
      if page ∈ pages then pages.eraseDups else pages.eraseDups ++ [page] := by
  rw [List.eraseDups_append]
  by_cases had : page ∈ pages
  · simp [List.removeAll, had]
  · simp [List.removeAll, had, List.eraseDups_cons]

-- The pages that had their turn are those that came up, in the order in which they first did.
theorem layTemplate_turn {pass : Pass σ} {pages : List Nat}
    (turned : pass.served.reverse = pages.eraseDups) (page : Nat) :
    (pass.layTemplate surface brief page).served.reverse = (pages ++ [page]).eraseDups := by
  have same : page ∈ pass.served ↔ page ∈ pages := by
    rw [← List.mem_reverse, turned, List.mem_eraseDups]
  rw [layTemplate_served, eraseDups_concat]
  by_cases had : page ∈ pages
  · rw [if_pos (same.mpr had), if_pos had, turned]
  · rw [if_neg (mt same.mp had), if_neg had, List.reverse_cons, turned]

theorem foldl_turn {pass : Pass σ} {pages : List Nat}
    (turned : pass.served.reverse = pages.eraseDups) (more : List Nat) :
    (more.foldl (layTemplate surface brief) pass).served.reverse = (pages ++ more).eraseDups := by
  induction more generalizing pass pages with
  | nil => simpa using turned
  | cons page rest ih =>
    rw [List.append_cons]
    exact ih (layTemplate_turn surface brief turned page)

/-! ### All pages handed out -/

-- All pages handed out had their turn.
def Turned (pass : Pass (Recorded σ)) : Prop :=
  pass.served.reverse = pass.surface.handedOut.eraseDups

theorem perform_handedOut (pass : Pass (Recorded σ)) (call : Call) :
    (pass.perform surface.recording call).surface.handedOut = pass.surface.handedOut := by
  rw [perform_surface]
  rfl

theorem layTemplate_handedOut (pass : Pass (Recorded σ)) (page : Nat) :
    (pass.layTemplate surface.recording brief page).surface.handedOut = pass.surface.handedOut := by
  rw [layTemplate]
  split
  · rfl
  · rcases overlay? brief.templatePages page with _ | templatePage
    · rfl
    · exact perform_handedOut surface _ _

theorem foldl_handedOut (pass : Pass (Recorded σ)) (pages : List Nat) :
    (pages.foldl (layTemplate surface.recording brief) pass).surface.handedOut =
      pass.surface.handedOut := by
  induction pages generalizing pass with
  | nil => rfl
  | cons page rest ih => rw [List.foldl_cons, ih, layTemplate_handedOut]

variable {pass : Pass (Recorded σ)}

theorem Turned.perform (turned : pass.Turned) (call : Call) :
    (pass.perform surface.recording call).Turned := by
  rw [Turned, perform_served, perform_handedOut]
  exact turned

theorem Turned.foldl_perform (turned : pass.Turned) (calls : List Call) :
    (calls.foldl (Pass.perform surface.recording) pass).Turned := by
  induction calls generalizing pass with
  | nil => exact turned
  | cons call rest ih => exact ih (turned.perform surface call)

theorem Turned.collect (turned : pass.Turned) : (pass.collect surface.recording brief).Turned := by
  let breaks := (surface.drainBreaks pass.surface.surface).1
  let handed := { pass with surface := (surface.recording.drainBreaks pass.surface).2 }
  have laid : (breaks.foldl (layTemplate surface.recording brief) handed).Turned := by
    rw [Turned, foldl_handedOut]
    have before : handed.served.reverse = pass.surface.handedOut.eraseDups := turned
    exact foldl_turn surface.recording brief before breaks
  exact laid

theorem Turned.feed (turned : pass.Turned) (token : Token) :
    (pass.feed surface.recording brief token).Turned := by
  have moved : { pass with text := (pass.text.step brief.lineHeight token).2 }.Turned := turned
  have asked := moved.foldl_perform surface (pass.text.step brief.lineHeight token).1.toList
  exact asked.collect surface brief

theorem Turned.foldl_feed (turned : pass.Turned) (tokens : List Token) :
    (tokens.foldl (Pass.feed surface.recording brief) pass).Turned := by
  induction tokens generalizing pass with
  | nil => exact turned
  | cons token rest ih => exact ih (turned.feed surface brief token)

/-! ### The whole run -/

theorem beforeWriting_turn (turned : pass.Turned) (tokens : List Token) :
    let last := pass.beforeWriting surface.recording brief tokens
    last.served.reverse =
      (last.surface.handedOut ++ [pass.lastPage surface.recording brief tokens]).eraseDups := by
  have started : (pass.start surface.recording).Turned :=
    turned.foldl_perform surface pass.text.opening
  have drawn : (pass.drawn surface.recording brief tokens).Turned :=
    (started.foldl_feed surface brief tokens).collect surface brief
  intro last
  have kept : last.surface.handedOut =
      (pass.drawn surface.recording brief tokens).surface.handedOut :=
    layTemplate_handedOut surface brief _ _
  rw [kept]
  exact layTemplate_turn surface.recording brief drawn _

theorem filterMap_stampFor? (pages : List Nat) :
    pages.filterMap (stampFor? brief) =
      if brief.templatePages = 0 then []
      else (pages.filter (0 < ·)).map fun page => .stamp page (min page brief.templatePages) := by
  induction pages with
  | nil => simp
  | cons page rest ih =>
    rw [List.filterMap_cons, ih]
    by_cases none : brief.templatePages = 0
    · simp [stampFor?, overlay?, none]
    · rcases Nat.eq_zero_or_pos page with rfl | positive
      · simp [stampFor?, overlay?, none]
      · simp [stampFor?, overlay?, none, positive, Nat.ne_of_gt positive]

theorem stamped_own {page found : Nat}
    (stamped : (stampFor? brief page).bind Call.stamped? = some found) : found = page := by
  rw [stampFor?] at stamped
  rcases chosen : overlay? brief.templatePages page with _ | templatePage
  · simp [chosen] at stamped
  · simpa [chosen, Call.stamped?, eq_comm] using stamped

theorem stamped_nodup {pages : List Nat} (nodup : pages.Nodup) :
    ((pages.filterMap (stampFor? brief)).filterMap Call.stamped?).Nodup := by
  rw [List.filterMap_filterMap]
  apply nodup.filterMap
  intro page other found first second
  exact (stamped_own brief first).symm.trans (stamped_own brief second)

theorem filterMap_stamped? (calls : List Call) :
    (calls.filter Call.isStamp).filterMap Call.stamped? = calls.filterMap Call.stamped? := by
  rw [List.filterMap_filter]
  congr 1
  funext call
  cases call <;> rfl

/-- On any surface, whatever it reports: the pages that are handed out as finished during the run,
followed by the page that is current at its end, are stamped in the order in which they come up
first, each with the template page of its number or the last one, and none of them a second time,
however the stamp went. Without a template page there is no stamp. The pages are written when all
of this is done. Keeping the calls and the pages handed out does not change the run. -/
theorem stamps_pages_when_first_reported (state : σ) (text : TextState) (tokens : List Token) :
    let pass : Pass (Traced (Recorded σ)) := { surface := { surface := { surface := state } }, text }
    let last := pass.run surface.recording.tracing brief tokens
    let reported := last.surface.surface.handedOut ++
      [Pass.lastPage surface brief { surface := state, text } tokens]
    (last.untraced.through Recorded.surface =
        Pass.run surface brief { surface := state, text } tokens) ∧
      ∃ earlier,
        last.surface.calls = earlier ++ [.write] ∧
          .write ∉ earlier ∧
          (earlier.filter Call.isStamp =
            if brief.templatePages = 0 then []
            else (reported.eraseDups.filter (0 < ·)).map fun page =>
              .stamp page (min page brief.templatePages)) ∧
          (earlier.filterMap Call.stamped?).Nodup := by
  intro pass last reported
  let plain : Pass (Recorded σ) := { surface := { surface := state }, text }
  obtain ⟨calls, unwritten, -, stamps, nodup⟩ :=
    run_calls surface.recording brief pass rfl rfl tokens
  constructor
  · rw [run_untraced]
    exact run_through brief (recording_views surface) plain tokens
  · refine ⟨_, calls, unwritten, ?_, ?_⟩
    · have fresh : plain.Turned := rfl
      have turned := beforeWriting_turn surface brief fresh tokens
      have handedOut : last.surface.surface.handedOut =
          (plain.beforeWriting surface.recording brief tokens).surface.handedOut := by
        rw [← show pass.untraced = plain from rfl, ← beforeWriting_untraced]
        exact congrArg (·.surface.handedOut) (perform_surface surface.recording.tracing _ .write)
      have served : (pass.beforeWriting surface.recording.tracing brief tokens).served =
          (plain.beforeWriting surface.recording brief tokens).served :=
        congrArg Pass.served (beforeWriting_untraced surface.recording brief pass tokens)
      have same : Pass.lastPage surface brief { surface := state, text } tokens =
          plain.lastPage surface.recording brief tokens :=
        lastPage_through brief (recording_views surface) plain tokens
      rw [← filterMap_stampFor?, show reported = _ from congrArg₂ (· ++ [·]) handedOut same,
        ← turned, ← served]
      exact stamps
    · rw [← filterMap_stamped?, show List.filter Call.isStamp _ = _ from stamps]
      exact stamped_nodup brief (List.nodup_reverse.mpr nodup)

end Pass

end Letterhead
