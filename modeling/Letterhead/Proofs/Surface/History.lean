import Letterhead.Proofs.Surface.Dressing
import Letterhead.Proofs.Surface.Stamping
import Mathlib.Data.List.Induction

/-!
Everything that can be done with a surface, in any order and however it answers, and what each use
of it does to a paper that has not been written yet: something is drawn, a setting is changed,
something is handed out, or a page is stamped.
-/

namespace Letterhead

open Pdf (ObjectId Document)

inductive Use where
  | call (call : Call)
  | drainBreaks
  | drainWarnings

/-- Only these put marks on a page. -/
def Use.draws : Use → Bool
  | .call (.flowText ..) | .call (.boxText ..) => true
  | _ => false

namespace Surface

variable {σ : Type} (surface : Surface σ)

def use (state : σ) : Use → σ
  | .call call => (surface.answer call state).2
  | .drainBreaks => (surface.drainBreaks state).2
  | .drainWarnings => (surface.drainWarnings state).2

def after (state : σ) (uses : List Use) : σ := uses.foldl surface.use state

/-- What can be seen in each use of a history, one after the other. -/
def seen {α : Type} (observe : σ → Use → List α) (state : σ) : List Use → List α
  | [] => []
  | use :: rest => observe state use ++ seen observe (surface.use state use) rest

def handsOut (state : σ) : Use → List Nat
  | .drainBreaks => (surface.drainBreaks state).1
  | _ => []

/-- All pages that were handed out as finished, in the order in which they were. -/
def handedOut (state : σ) (uses : List Use) : List Nat := surface.seen surface.handsOut state uses

def stampsWith (state : σ) : Use → List Nat
  | .call (.stamp page templatePage) =>
    if (surface.answer (.stamp page templatePage) state).1.isOk then [templatePage] else []
  | _ => []

/-- The template pages with which pages were stamped, leaving out stamps that failed. -/
def stampedWith (state : σ) (uses : List Use) : List Nat := surface.seen surface.stampsWith state uses

theorem stampsWith_eq_nil (state : σ) {use : Use}
    (unstamped : ∀ page templatePage, use ≠ .call (.stamp page templatePage)) :
    surface.stampsWith state use = [] := by
  unfold stampsWith
  split
  · rename_i page templatePage
    exact absurd rfl (unstamped page templatePage)
  · rfl

theorem after_append (state : σ) (first rest : List Use) :
    surface.after state (first ++ rest) = surface.after (surface.after state first) rest :=
  List.foldl_append

theorem after_concat (state : σ) (uses : List Use) (use : Use) :
    surface.after state (uses ++ [use]) = surface.use (surface.after state uses) use :=
  List.foldl_concat ..

theorem seen_concat {α : Type} (observe : σ → Use → List α) (state : σ) (uses : List Use) (use : Use) :
    surface.seen observe state (uses ++ [use]) =
      surface.seen observe state uses ++ observe (surface.after state uses) use := by
  induction uses generalizing state with
  | nil => exact List.append_nil _
  | cons first rest ih =>
    rw [List.cons_append, seen, ih, ← List.append_assoc]
    rfl

end Surface

namespace Paper

/-! ### One use -/

/-- The answers to a stamp. Nothing but a form of the template page gets a name on the page. -/
inductive Stamped (paper : Paper) (page templatePage : Nat) : Except DrawFault Unit × Paper → Prop
  | refused (fault : DrawFault) : Stamped paper page templatePage (.error fault, paper)
  | broken {template : Template} {fault : ImportFault} {imports : Import}
      (given : paper.template = some template)
      (failed : template.importForm templatePage paper.imports = (.error fault, imports)) :
      Stamped paper page templatePage (.error (.template fault.message), { paper with imports })
  | reused (known : (paper.forms.lookup templatePage).isSome = true) (positive : 0 < page)
      (within : page ≤ paper.currentPage) :
      Stamped paper page templatePage (.ok (), paper.putBehind page (formKey templatePage))
  | imported {template : Template} {form : ObjectId} {imports : Import}
      (given : paper.template = some template)
      (new : (paper.forms.lookup templatePage).isSome = false)
      (done : template.importForm templatePage paper.imports = (.ok form, imports))
      (positive : 0 < page) (within : page ≤ paper.currentPage) :
      Stamped paper page templatePage (.ok (),
        { paper with imports, forms := insertForm templatePage form paper.forms }.putBehind page
          (formKey templatePage))

theorem stamp_stamped (paper : Paper) (page templatePage : Nat) :
    paper.Stamped page templatePage (paper.stamp page templatePage) := by
  rw [stamp]
  rcases given : paper.template with _ | template
  · exact .refused _
  · simp only
    split
    · exact .refused _
    · rename_i there
      have within : 0 < page ∧ page ≤ paper.currentPage := by omega
      rw [requireForm]
      by_cases known : (paper.forms.lookup templatePage).isSome = true
      · simp only [if_pos known]
        exact .reused known within.1 within.2
      · simp only [if_neg known]
        by_cases limit : templatePageLimit ≤ templatePage
        · simp only [if_pos limit]
          exact .refused _
        · simp only [if_neg limit]
          rcases outcome : template.importForm templatePage paper.imports with ⟨fault | form, imports⟩
          · exact .broken given outcome
          · exact .imported given (Bool.not_eq_true _ ▸ known) outcome within.1 within.2

theorem Stamped.backdrops {paper : Paper} {page templatePage : Nat} {outcome : Except DrawFault Unit × Paper}
    (stamped : paper.Stamped page templatePage outcome) :
    outcome.2.backdrops = paper.backdrops ∨ 0 < page ∧
      outcome.2.backdrops = paper.backdrops.set (page - 1) (some (formKey templatePage)) := by
  have put (paper : Paper) (positive : 0 < page) (within : page ≤ paper.currentPage) :
      (paper.putBehind page (formKey templatePage)).backdrops =
        paper.backdrops.set (page - 1) (some (formKey templatePage)) := by
    have ended : page - 1 ≤ paper.finished.length := by
      rw [currentPage] at within
      split at within <;> omega
    rw [← backdrops_putBehind paper (formKey templatePage) ended, Nat.sub_add_cancel positive]
  cases stamped with
  | refused | broken => exact .inl rfl
  | reused _ positive within => exact .inr ⟨positive, put paper positive within⟩
  | imported _ _ _ positive within => exact .inr ⟨positive, put _ positive within⟩

/-- What a use does to a paper that is still open afterwards. -/
inductive Used (paper : Paper) : Use → Paper → Prop
  | drawn {use : Use} {texts : List (List Char)} {after : Paper} (drawing : use.draws = true)
      (draws : Draws paper texts after) : Used paper use after
  | set {use : Use} (plain : use.draws = false) (variant : FontStyle) (fontSize : Float32)
      (warnings : List String) (keeps : use ≠ .drainBreaks)
      (unstamped : ∀ page templatePage, use ≠ .call (.stamp page templatePage)) :
      Used paper use { paper with variant, fontSize, warnings }
  | handedOut : Used paper .drainBreaks { paper with breaks := [] }
  | stamped (page templatePage : Nat) :
      Used paper (.call (.stamp page templatePage)) (paper.stamp page templatePage).2

variable {paper after : Paper} {use : Use}

theorem use_used (destination : Destination) (opened : paper.closed = false)
    (early : use ≠ .call .write) : paper.Used use ((surface destination).use paper use) := by
  have stillOpen : ¬ paper.closed = true := by simp [opened]
  rcases use with call | _ | _
  · rw [show (surface destination).use paper (.call call) = (answer destination call paper).2 from rfl,
      answer.eq_def, if_neg stillOpen]
    cases call with
    | write => exact absurd rfl early
    | selectStyle variant =>
      exact .set rfl variant paper.fontSize paper.warnings nofun nofun
    | selectSize size =>
      simp only
      split
      · exact .set rfl paper.variant size paper.warnings nofun nofun
      · exact .set rfl paper.variant paper.fontSize paper.warnings nofun nofun
    | flowText lineHeight content =>
      obtain ⟨texts, draws, -⟩ := paper.flowText_draws lineHeight content
      exact .drawn rfl draws
    | boxText content layout =>
      obtain ⟨texts, draws, -⟩ := paper.boxText_draws content layout
      simp only
      split
      · exact .drawn rfl .stay
      · exact .drawn rfl draws
    | stamp page templatePage =>
      exact .stamped page templatePage
  · exact .handedOut
  · exact .set rfl paper.variant paper.fontSize [] nofun nofun

/-- What no use of an open paper changes. -/
structure Same (before after : Paper) : Prop where
  settings : after.settings = before.settings
  template : after.template = before.template
  closed : after.closed = before.closed

theorem Same.trans {first second third : Paper} (one : Same first second) (two : Same second third) :
    Same first third where
  settings := two.settings.trans one.settings
  template := two.template.trans one.template
  closed := two.closed.trans one.closed

theorem Stamped.same {page templatePage : Nat} {outcome : Except DrawFault Unit × Paper}
    (stamped : paper.Stamped page templatePage outcome) : Same paper outcome.2 := by
  cases stamped with
  | refused | broken => exact ⟨rfl, rfl, rfl⟩
  | reused | imported =>
    obtain ⟨finished, current, put, -⟩ := putBehind_rest _ page (formKey templatePage)
    rw [put]
    exact ⟨rfl, rfl, rfl⟩

theorem Used.same (used : paper.Used use after) : Same paper after := by
  cases used with
  | drawn _ draws => exact ⟨draws.kept.settings, draws.kept.template, draws.kept.closed⟩
  | set | handedOut => exact ⟨rfl, rfl, rfl⟩
  | stamped page templatePage => exact (paper.stamp_stamped page templatePage).same

/-- What holds at first and is kept by each use holds whenever the pages are not written yet. -/
theorem after_induction (paper : Paper) (destination : Destination) (opened : paper.closed = false)
    (Holds : List Use → Paper → Prop) (start : Holds [] paper)
    (step : ∀ uses use before after, (surface destination).after paper uses = before →
      (surface destination).use before use = after → Same paper before → before.Used use after →
      Holds uses before → Holds (uses ++ [use]) after)
    (uses : List Use) (early : .call .write ∉ uses) :
    Same paper ((surface destination).after paper uses) ∧
      Holds uses ((surface destination).after paper uses) := by
  induction uses using List.reverseRecOn with
  | nil => exact ⟨⟨rfl, rfl, rfl⟩, start⟩
  | append_singleton uses use ih =>
    rw [List.mem_append, List.mem_singleton, not_or] at early
    obtain ⟨same, holds⟩ := ih early.1
    have used := use_used destination (same.closed.trans opened) (Ne.symm early.2)
    rw [Surface.after_concat]
    exact ⟨same.trans used.same, step uses use _ _ rfl rfl same used holds⟩

end Paper

end Letterhead
