import Letterhead.Overlay
import Letterhead.Proofs.Surface.Drawing
import Letterhead.Proofs.Template.Reach

/-!
Papers whose pages get what belongs behind them one after the other. The first pages have theirs,
the others have nothing yet, and there is one form for each template page that has been used.
-/

namespace Letterhead

open Pdf (Bytes ObjectId Operation)

theorem Mark.paints_no_form (mark : Mark) (name : Bytes) : .paintForm name ∉ mark.operations := by
  cases mark with
  | text => simp [operations]
  | rectangle x y width height fill outline =>
    cases fill <;> cases outline <;> simp [operations, paint]
  | line => simp [operations]

namespace Page

-- The form is painted before all else, and no other form is.
def LiesOver (page : Page) (name : Bytes) : Prop :=
  ∃ drawn, page.content = [.save, .paintForm name, .restore] ++ drawn ∧
    ∀ other, Operation.paintForm other ∉ drawn

variable {page : Page}

theorem marks_paint_no_form (page : Page) (name : Bytes) :
    .paintForm name ∉ page.marks.flatMap Mark.operations := by
  intro painted
  obtain ⟨mark, -, inside⟩ := List.mem_flatMap.mp painted
  exact mark.paints_no_form name inside

theorem liesOver_of_backdrop {name : Bytes} (behind : page.backdrop = some name) :
    page.LiesOver name :=
  ⟨_, by rw [content, behind]; rfl, page.marks_paint_no_form⟩

theorem paints_no_form (behind : page.backdrop = none) (name : Bytes) :
    .paintForm name ∉ page.content := by
  rw [content, behind]
  exact page.marks_paint_no_form name

end Page

namespace Template

/-- Every page of the template has a number of 32 bits and can be imported by a fresh importer. -/
def Importable (template : Template) : Prop :=
  ∀ page, 0 < page → page ≤ template.size →
    page < Paper.templatePageLimit ∧ template.ImportsAfter {} [] page

-- Nothing is missing from what such a page draws with, so what came before makes no difference.
theorem Importable.succeeds {template : Template} (importable : template.Importable) {page : Nat}
    (positive : 0 < page) (within : page ≤ template.size) (state : Import) :
    ∃ form after, template.importForm page state = (.ok form, after) := by
  obtain ⟨-, first⟩ := importable page positive within
  obtain ⟨id, named, unblocked⟩ := (importForm_ok_iff template page _).mp first
  have complete : template.Complete id := complete_of_unblocked unblocked
  obtain ⟨form, done⟩ := (importForm_ok_iff template page state).mpr ⟨id, named, complete.unblocked state⟩
  exact ⟨form, (template.importForm page state).2, Prod.ext done rfl⟩

end Template

namespace Paper

def templatePages (paper : Paper) : Nat := paper.template.elim 0 Template.size

def backdropFor (paper : Paper) (page : Nat) : Option Bytes :=
  (overlay? paper.templatePages page).map formKey

-- So many pages have what belongs behind them, and no others have anything.
structure Dressed (count : Nat) (paper : Paper) : Prop where
  opened : paper.closed = false
  importable : ∀ template, paper.template = some template → template.Importable
  backdrops : paper.backdrops = (List.range' 1 count).map paper.backdropFor ++
    List.replicate (paper.finished.length + 1 - count) none
  forms : paper.forms.map Prod.fst = List.range' 1 (min count paper.templatePages)
  apart : (paper.forms.map Prod.snd).Nodup
  held : ∀ entry ∈ paper.forms, ∃ template, paper.template = some template ∧
    template.HasForm paper.imports entry.1 entry.2

variable {paper after : Paper} {count : Nat}

theorem Dressed.unlike (dressed : paper.Dressed count) (variant : FontStyle) (fontSize : Float32)
    (breaks : List Nat) (warnings : List String) :
    { paper with variant, fontSize, breaks, warnings }.Dressed count :=
  ⟨dressed.opened, dressed.importable, dressed.backdrops, dressed.forms, dressed.apart, dressed.held⟩

theorem Dressed.length_forms (dressed : paper.Dressed count) :
    paper.forms.length = min count paper.templatePages := by
  have numbers := congrArg List.length dressed.forms
  rwa [List.length_map, List.length_range'] at numbers

-- The pages of the template come into the table in the order of their numbers.
theorem Dressed.form_at (dressed : paper.Dressed count) {index : Nat} {form : ObjectId}
    (found : (paper.forms.map Prod.snd)[index]? = some form) : (index + 1, form) ∈ paper.forms := by
  rw [List.getElem?_map] at found
  obtain ⟨⟨page, given⟩, there, rfl⟩ := Option.map_eq_some_iff.mp found
  have numbered := congrArg (·[index]?) dressed.forms
  have inside : index < min count paper.templatePages := by
    rw [← dressed.length_forms]
    exact (List.getElem?_eq_some_iff.mp there).1
  simp only [List.getElem?_map, there, List.getElem?_range' inside] at numbered
  obtain rfl : page = index + 1 := by simpa [Nat.add_comm] using numbered
  exact List.mem_of_getElem? there

theorem Dressed.draws (dressed : paper.Dressed count) (within : count ≤ paper.finished.length)
    {texts : List (List Char)} (draws : Draws paper texts after) : after.Dressed count := by
  obtain ⟨opened, importable, backdrops, forms, apart, held⟩ := dressed
  obtain ⟨settings, template, imports, sameForms, fontSize, variant, closed, written⟩ := draws.kept
  obtain ⟨turned, ended, -, behind⟩ := draws.turns
  have pages : after.templatePages = paper.templatePages := by rw [templatePages, template, templatePages]
  have belongs : after.backdropFor = paper.backdropFor := by
    funext page
    rw [backdropFor, pages, backdropFor]
  refine ⟨closed.trans opened, template ▸ importable, ?_, ?_, ?_, ?_⟩
  · rw [behind, backdrops, belongs, ended, List.append_assoc, List.replicate_append_replicate]
    congr 2
    omega
  · rw [sameForms, pages, forms]
  · rw [sameForms]
    exact apart
  · rw [sameForms, imports, template]
    exact held

/-! ### Stamping the next page -/

theorem insertForm_last (page : Nat) (form : ObjectId) (forms : List (Nat × ObjectId))
    (below : ∀ entry ∈ forms, entry.1 < page) : insertForm page form forms = forms ++ [(page, form)] := by
  induction forms with
  | nil => rfl
  | cons entry rest ih =>
    have low : ¬ page ≤ entry.1 := Nat.not_le_of_lt (below entry List.mem_cons_self)
    rw [insertForm, if_neg low, ih fun later member => below later (List.mem_cons_of_mem _ member)]
    rfl

theorem backdrops_putBehind (paper : Paper) (name : Bytes) (within : count ≤ paper.finished.length) :
    (paper.putBehind (count + 1) name).backdrops = paper.backdrops.set count (some name) := by
  simp only [putBehind, backdrops, sheets]
  split
  · rename_i ended
    apply List.ext_getElem?
    intro index
    simp only [List.getElem?_map, List.getElem?_append, List.getElem?_set, List.length_modify,
      List.getElem?_modify, List.length_map, List.length_append, List.length_singleton]
    grind
  · have last : count = paper.finished.length := by omega
    simp [last]

-- Either the template page has a form already, or it comes right after those that have one.
theorem Dressed.requireForm (dressed : paper.Dressed count) {template : Template}
    (given : paper.template = some template) (some : 0 < template.size) :
    ∃ imports forms, paper.requireForm template (min (count + 1) template.size) =
        (.ok (), { paper with imports, forms }) ∧
      forms.map Prod.fst = List.range' 1 (min (count + 1) template.size) ∧
      (forms.map Prod.snd).Nodup ∧
      ∀ entry ∈ forms, template.HasForm imports entry.1 entry.2 := by
  obtain ⟨-, importable, -, forms, apart, held⟩ := dressed
  have pages : paper.templatePages = template.size := by rw [templatePages, given]; rfl
  rw [pages] at forms
  have has : ∀ entry ∈ paper.forms, template.HasForm paper.imports entry.1 entry.2 := by
    intro entry member
    obtain ⟨found, same, holds⟩ := held entry member
    obtain rfl := Option.some.inj (given.symm.trans same)
    exact holds
  rw [Paper.requireForm]
  by_cases more : count < template.size
  · have next : min (count + 1) template.size = count + 1 := by omega
    have known : min count template.size = count := by omega
    rw [known] at forms
    have below : ∀ entry ∈ paper.forms, entry.1 < count + 1 := by
      intro entry member
      have inside : entry.1 ∈ List.range' 1 count := forms ▸ List.mem_map_of_mem member
      have bounds := List.mem_range'_1.mp inside
      omega
    have new : paper.forms.lookup (count + 1) = none := by
      rw [List.lookup_eq_none_iff]
      intro entry member
      have lower := below entry member
      simp
      omega
    obtain ⟨limit, -⟩ := importable template given (count + 1) (by omega) (by omega)
    obtain ⟨form, after, imported⟩ := (importable template given).succeeds (Nat.succ_pos count)
      (by omega) paper.imports
    obtain ⟨-, formed⟩ := Template.importForm_succeeds imported
    have grows := template.importForm_grows (count + 1) paper.imports
    rw [imported] at grows
    rw [next, new, if_neg (by simp), if_neg (by omega), imported]
    refine ⟨after, paper.forms ++ [(count + 1, form)], ?_, ?_, ?_, ?_⟩
    · simp only [insertForm_last _ _ _ below]
    · rw [List.map_append, forms, List.range'_1_concat]
      simp [Nat.add_comm]
    · rw [List.map_append, List.nodup_append]
      refine ⟨apart, by simp, ?_⟩
      rintro earlier inside _ same rfl
      obtain rfl := List.mem_singleton.mp same
      obtain ⟨entry, member, held⟩ := List.mem_map.mp inside
      have old := (has entry member).1
      have fresh := Template.importForm_fresh imported
      rw [held] at old
      omega
    · intro entry member
      rcases List.mem_append.mp member with old | last
      · exact (has entry old).grows grows
      · obtain rfl := List.mem_singleton.mp last
        exact formed
  · have all : min (count + 1) template.size = template.size := by omega
    have known : min count template.size = template.size := by omega
    rw [known] at forms
    have member : template.size ∈ paper.forms.map Prod.fst := by
      rw [forms]
      exact List.mem_range'_1.mpr ⟨some, by omega⟩
    have there : (paper.forms.lookup template.size).isSome = true := by
      obtain ⟨entry, inside, same⟩ := List.mem_map.mp member
      exact List.lookup_isSome_iff.mpr ⟨entry, inside, by simp [same]⟩
    rw [all, if_pos there]
    exact ⟨paper.imports, paper.forms, rfl, forms, apart, has⟩

theorem putBehind_rest (paper : Paper) (page : Nat) (name : Bytes) :
    ∃ finished current, paper.putBehind page name = { paper with finished, current } ∧
      finished.length = paper.finished.length := by
  rw [putBehind]
  split
  · exact ⟨_, _, rfl, List.length_modify _ _ _⟩
  · exact ⟨_, _, rfl, rfl⟩

theorem Dressed.stamp (dressed : paper.Dressed count) (within : count ≤ paper.finished.length)
    {templatePage : Nat} (chosen : overlay? paper.templatePages (count + 1) = some templatePage) :
    ∃ after, paper.stamp (count + 1) templatePage = (.ok (), after) ∧
      after.Dressed (count + 1) ∧ after.template = paper.template ∧
      after.finished.length = paper.finished.length ∧ after.breaks = paper.breaks := by
  obtain ⟨positive, most, same⟩ := overlay?_eq_some chosen
  rcases given : paper.template with _ | template
  · simp [templatePages, given] at most
    omega
  · have pages : paper.templatePages = template.size := by rw [templatePages, given]; rfl
    have some : 0 < template.size := by omega
    obtain ⟨imports, forms, required, keys, apart, held⟩ := dressed.requireForm given some
    rw [pages] at same
    subst same
    have exists_ : ¬ (count + 1 = 0 ∨ paper.currentPage < count + 1) := by
      simp [currentPage, dressed.opened]
      omega
    obtain ⟨finished, current, put, length⟩ := putBehind_rest { paper with imports, forms }
      (count + 1) (formKey (min (count + 1) template.size))
    have behind := backdrops_putBehind { paper with imports, forms }
      (formKey (min (count + 1) template.size)) within
    rw [put] at behind
    refine ⟨{ paper with imports, forms, finished, current }, ?_, ?_, given, length, rfl⟩
    · rw [Paper.stamp, given]
      simp only [if_neg exists_, required, put]
      rw [given]
    · refine ⟨dressed.opened, dressed.importable, behind.trans ?_, ?_, apart,
        fun entry member => ⟨template, given, held entry member⟩⟩
      · have next : paper.backdropFor (count + 1) = Option.some (formKey (min (count + 1) template.size)) := by
          rw [backdropFor, chosen]
          rfl
        have left : paper.finished.length + 1 - count = finished.length + 1 - (count + 1) + 1 := by
          have same : finished.length = paper.finished.length := length
          omega
        have stays : { paper with imports, forms }.backdrops = paper.backdrops := rfl
        rw [stays, dressed.backdrops, left, List.replicate_succ, List.range'_1_concat,
          List.set_append_right _ _ (by simp), List.map_append]
        simp [← next, Nat.add_comm]
        rfl
      · exact keys.trans (by rw [← pages]; rfl)

theorem Dressed.skip (dressed : paper.Dressed count) (within : count ≤ paper.finished.length)
    (nothing : overlay? paper.templatePages (count + 1) = none) : paper.Dressed (count + 1) := by
  obtain ⟨opened, importable, backdrops, forms, apart, held⟩ := dressed
  have none_ : paper.templatePages = 0 := by simpa [overlay?] using nothing
  have next : paper.backdropFor (count + 1) = none := by rw [backdropFor, nothing]; rfl
  have left : paper.finished.length + 1 - count = paper.finished.length + 1 - (count + 1) + 1 := by
    omega
  refine ⟨opened, importable, ?_, ?_, apart, held⟩
  · rw [backdrops, left, List.replicate_succ, List.range'_1_concat, List.map_append]
    simp [← next, Nat.add_comm]
  · simpa [none_] using forms

/-! ### When all pages are dressed -/

theorem Dressed.backdrop (dressed : paper.Dressed (paper.finished.length + 1)) {index : Nat}
    {page : Page} (found : paper.sheets[index]? = some page) :
    page.backdrop = paper.backdropFor (index + 1) := by
  have all := dressed.backdrops
  rw [Nat.sub_self, List.replicate_zero, List.append_nil] at all
  have here := congrArg (·[index]?) all
  have inside : index < paper.finished.length + 1 := by
    simpa [sheets] using (List.getElem?_eq_some_iff.mp found).1
  simp only [Paper.backdrops, List.getElem?_map, found, List.getElem?_range' inside] at here
  simpa [Nat.add_comm] using here

end Paper

end Letterhead
