import Letterhead.Proofs.Pdf.Lookup
import Letterhead.Proofs.Surface.History
import Mathlib.Data.List.Nodup

/-!
The table of imported forms. A template page gets into it with the first stamp that succeeds, with
a form of its own, and stays there; a stamp that fails leaves no trace in it. Names that are put
behind pages are names of forms in the table.
-/

namespace Letterhead

open Pdf (Object ObjectId Dictionary Document Bytes ascii)

/-! ### Names of forms -/

-- The digits can be read back.
theorem Pdf.digitBytes_injective {left right : Nat} (same : digitBytes left = digitBytes right) :
    left = right := by
  have read (n : Nat) : (digitBytes n).map (fun byte => Char.ofNat byte.toNat) = Nat.toDigits 10 n := by
    rw [digitBytes, List.map_map]
    refine (List.map_congr_left ?_).trans (List.map_id _)
    intro c member
    have digit : c.val ≤ 57 := by
      have isDigit := Nat.isDigit_of_mem_toDigits (by decide) (by decide) member
      simp only [Char.isDigit, Bool.and_eq_true, decide_eq_true_eq] at isDigit
      exact isDigit.2
    have small : c.toNat < 256 := Nat.lt_of_le_of_lt (UInt32.le_iff_toNat_le.mp digit) (by decide)
    simp [Nat.mod_eq_of_lt small]
  have digits : Nat.toDigits 10 left = Nat.toDigits 10 right := by rw [← read, same, read]
  have value := congrArg (Nat.ofDigitChars 10 · 0) digits
  simpa using value

namespace Paper

theorem formKey_injective {left right : Nat} (same : formKey left = formKey right) : left = right :=
  Pdf.digitBytes_injective (List.append_cancel_left same)

def formEntries (forms : List (Nat × ObjectId)) : Dictionary :=
  forms.map fun form => (formKey form.1, .reference form.2)

theorem keys_formEntries (forms : List (Nat × ObjectId)) :
    (formEntries forms).map Prod.fst = (forms.map Prod.fst).map formKey := by
  simp [formEntries]

theorem get?_formEntries {forms : List (Nat × ObjectId)} (once : (forms.map Prod.fst).Nodup)
    (page : Nat) (form : ObjectId) :
    (formEntries forms).get? (formKey page) = some (.reference form) ↔ (page, form) ∈ forms := by
  have keys : ((formEntries forms).map Prod.fst).Nodup := by
    rw [keys_formEntries]
    exact once.map fun _ _ => formKey_injective
  rw [Dictionary.get?_eq_some_iff keys]
  constructor
  · intro member
    obtain ⟨⟨found, id⟩, inside, same⟩ := List.mem_map.mp member
    simp only [Prod.mk.injEq, Object.reference.injEq] at same
    rwa [← formKey_injective same.1, ← same.2]
  · intro member
    exact List.mem_map.mpr ⟨(page, form), member, rfl⟩

theorem insertForm_perm (page : Nat) (form : ObjectId) (forms : List (Nat × ObjectId)) :
    (insertForm page form forms).Perm ((page, form) :: forms) := by
  induction forms with
  | nil => exact .refl _
  | cons entry rest ih =>
    rw [insertForm]
    split
    · exact .refl _
    · exact (ih.cons entry).trans (.swap _ _ _)

/-! ### The table during a history -/

variable {paper before after : Paper} {use : Use} {uses : List Use} {destination : Destination}

theorem Stamped.grows {page templatePage : Nat} {outcome : Except DrawFault Unit × Paper}
    (stamped : paper.Stamped page templatePage outcome) :
    Import.Grows paper.imports outcome.2.imports := by
  cases stamped with
  | refused => exact .refl _
  | @broken template fault imports given failed =>
    have grows := template.importForm_grows templatePage paper.imports
    rwa [failed] at grows
  | reused =>
    obtain ⟨finished, current, put, -⟩ := putBehind_rest paper page (formKey templatePage)
    rw [put]
    exact .refl _
  | @imported template form imports given new done =>
    obtain ⟨finished, current, put, -⟩ := putBehind_rest
      { paper with imports, forms := insertForm templatePage form paper.forms } page
      (formKey templatePage)
    have grows := template.importForm_grows templatePage paper.imports
    rw [put]
    rwa [done] at grows

theorem Used.grows (used : paper.Used use after) : Import.Grows paper.imports after.imports := by
  cases used with
  | drawn _ draws =>
    rw [draws.kept.imports]
    exact .refl _
  | set | handedOut => exact .refl _
  | stamped page templatePage => exact (paper.stamp_stamped page templatePage).grows

theorem after_grows (destination : Destination) (opened : paper.closed = false) (uses : List Use)
    (early : .call .write ∉ uses) :
    Import.Grows paper.imports ((surface destination).after paper uses).imports := by
  refine (after_induction paper destination opened
    (fun _ after => Import.Grows paper.imports after.imports) (.refl _) ?_ uses early).2
  intro uses use before after _ _ _ used grows
  exact grows.trans used.grows

/-- The form was made of the page by one of the stamps in the history. -/
def ImportedBy (destination : Destination) (start : Paper) (uses : List Use) (templatePage : Nat)
    (form : ObjectId) : Prop :=
  ∃ template page first rest, start.template = some template ∧
    uses = first ++ .call (.stamp page templatePage) :: rest ∧
    (template.importForm templatePage ((surface destination).after start first).imports).1 = .ok form

theorem ImportedBy.later {start : Paper} {templatePage : Nat} {form : ObjectId}
    (imported : ImportedBy destination start uses templatePage form) (use : Use) :
    ImportedBy destination start (uses ++ [use]) templatePage form := by
  obtain ⟨template, page, first, rest, given, rfl, done⟩ := imported
  exact ⟨template, page, first, rest ++ [use], given, by simp, done⟩

/-- One form for each template page that has been stamped with, and names of these behind pages. -/
structure Formed (destination : Destination) (start : Paper) (uses : List Use) (paper : Paper) :
    Prop where
  once : (paper.forms.map Prod.fst).Nodup
  apart : (paper.forms.map Prod.snd).Nodup
  keys : ∀ templatePage, templatePage ∈ paper.forms.map Prod.fst ↔
    templatePage ∈ (surface destination).stampedWith start uses
  imported : ∀ entry ∈ paper.forms, ImportedBy destination start uses entry.1 entry.2
  held : ∀ entry ∈ paper.forms, ∃ template, start.template = some template ∧
    template.HasForm paper.imports entry.1 entry.2
  behind : ∀ name, some name ∈ paper.backdrops →
    ∃ templatePage ∈ paper.forms.map Prod.fst, name = formKey templatePage

theorem mem_stampedWith_concat {start : Paper} (reached : (surface destination).after start uses = before)
    (templatePage : Nat) :
    templatePage ∈ (surface destination).stampedWith start (uses ++ [use]) ↔
      templatePage ∈ (surface destination).stampedWith start uses ∨
        templatePage ∈ (surface destination).stampsWith before use := by
  rw [Surface.stampedWith, Surface.seen_concat, reached, List.mem_append, Surface.stampedWith]

-- Uses that need no new form, with success or without.
theorem Formed.keep {start : Paper} (formed : Formed destination start uses before)
    (reached : (surface destination).after start uses = before)
    (known : ∀ page ∈ (surface destination).stampsWith before use, page ∈ before.forms.map Prod.fst)
    (forms : after.forms = before.forms) (grows : Import.Grows before.imports after.imports)
    (behind : ∀ name, some name ∈ after.backdrops → some name ∈ before.backdrops ∨
      ∃ page ∈ before.forms.map Prod.fst, name = formKey page) :
    Formed destination start (uses ++ [use]) after where
  once := forms ▸ formed.once
  apart := forms ▸ formed.apart
  keys templatePage := by
    rw [forms, mem_stampedWith_concat reached, ← formed.keys]
    constructor
    · exact Or.inl
    · exact fun either => either.elim id (known templatePage)
  imported entry member := (formed.imported entry (forms ▸ member)).later use
  held entry member := by
    obtain ⟨template, given, has⟩ := formed.held entry (forms ▸ member)
    exact ⟨template, given, has.grows grows⟩
  behind name inside := by
    rw [forms]
    exact (behind name inside).elim (formed.behind name) id

theorem putBehind_table (paper : Paper) (page : Nat) (name : Bytes) :
    (paper.putBehind page name).forms = paper.forms ∧
      (paper.putBehind page name).imports = paper.imports := by
  obtain ⟨finished, current, put, -⟩ := putBehind_rest paper page name
  rw [put]
  exact ⟨rfl, rfl⟩

-- A new form has a number above those of all forms before it.
theorem Formed.add {start : Paper} (formed : Formed destination start uses before)
    (reached : (surface destination).after start uses = before) (page : Nat) {templatePage : Nat}
    {template : Template} {form : ObjectId} {imports : Import} (given : start.template = some template)
    (new : templatePage ∉ before.forms.map Prod.fst)
    (done : template.importForm templatePage before.imports = (.ok form, imports)) :
    let forms := insertForm templatePage form before.forms
    (forms.map Prod.fst).Nodup ∧ (forms.map Prod.snd).Nodup ∧
      ∀ entry ∈ forms,
        ImportedBy destination start (uses ++ [.call (.stamp page templatePage)]) entry.1 entry.2 ∧
        ∃ template, start.template = some template ∧ template.HasForm imports entry.1 entry.2 := by
  intro forms
  have perm := insertForm_perm templatePage form before.forms
  have grows := template.importForm_grows templatePage before.imports
  rw [done] at grows
  refine ⟨?_, ?_, ?_⟩
  · rw [(perm.map Prod.fst).nodup_iff, List.map_cons, List.nodup_cons]
    exact ⟨new, formed.once⟩
  · rw [(perm.map Prod.snd).nodup_iff, List.map_cons, List.nodup_cons]
    refine ⟨?_, formed.apart⟩
    intro member
    obtain ⟨entry, inside, same⟩ := List.mem_map.mp member
    obtain ⟨_, _, low, -⟩ := formed.held entry inside
    rw [same] at low
    exact Nat.not_lt_of_le low (Template.importForm_fresh done)
  · intro entry member
    rcases List.mem_cons.mp (perm.mem_iff.mp member) with rfl | old
    · refine ⟨⟨template, page, uses, [], given, rfl, ?_⟩, template, given,
        (Template.importForm_succeeds done).2⟩
      rw [reached, done]
    · obtain ⟨made, found, has⟩ := formed.held entry old
      exact ⟨(formed.imported entry old).later _, made, found, has.grows grows⟩

theorem mem_backdrops_stamp {templatePage index : Nat} (name : Bytes)
    (behind : after.backdrops = before.backdrops ∨ 0 < index ∧
      after.backdrops = before.backdrops.set (index - 1) (some (formKey templatePage)))
    (inside : some name ∈ after.backdrops) :
    some name ∈ before.backdrops ∨ name = formKey templatePage := by
  rcases behind with same | ⟨-, put⟩
  · exact .inl (same ▸ inside)
  · rw [put] at inside
    exact (List.mem_or_eq_of_mem_set inside).imp id Option.some.inj

theorem Formed.stamp {start : Paper} (formed : Formed destination start uses before)
    (reached : (surface destination).after start uses = before) (opened : before.closed = false)
    (same : before.template = start.template) (page templatePage : Nat) :
    Formed destination start (uses ++ [.call (.stamp page templatePage)])
      (before.stamp page templatePage).2 := by
  have stamped := before.stamp_stamped page templatePage
  have grows := stamped.grows
  have behind := fun name => mem_backdrops_stamp name stamped.backdrops
  have answered : (surface destination).stampsWith before (.call (.stamp page templatePage)) =
      if (before.stamp page templatePage).1.isOk then [templatePage] else [] := by
    simp [Surface.stampsWith, surface, answer, opened]
  generalize before.stamp page templatePage = outcome at stamped grows behind answered
  cases stamped with
  | refused | broken =>
    refine formed.keep reached ?_ rfl grows fun _ inside => .inl inside
    rw [answered]
    intro page inside
    cases inside
  | reused known positive within =>
    have member : templatePage ∈ before.forms.map Prod.fst := by
      obtain ⟨entry, inside, same⟩ := List.lookup_isSome_iff.mp known
      exact List.mem_map.mpr ⟨entry, inside, (beq_iff_eq.mp same).symm⟩
    refine formed.keep reached ?_ (putBehind_table _ _ _).1 grows ?_
    · rw [answered]
      intro page stampedWith
      obtain rfl := List.mem_singleton.mp stampedWith
      exact member
    · intro name inside
      exact (behind name inside).imp id fun named => ⟨templatePage, member, named⟩
  | @imported template form imports given new done positive within =>
    have unknown : templatePage ∉ before.forms.map Prod.fst := by
      intro member
      obtain ⟨entry, inside, found⟩ := List.mem_map.mp member
      have known := List.lookup_isSome_iff.mpr ⟨entry, inside, beq_iff_eq.mpr found.symm⟩
      rw [new] at known
      cases known
    obtain ⟨once, apart, each⟩ := formed.add reached page (same ▸ given) unknown done
    let inserted := { before with imports, forms := insertForm templatePage form before.forms }
    have forms : (inserted.putBehind page (formKey templatePage)).forms =
        insertForm templatePage form before.forms := (putBehind_table _ _ _).1
    have kept : (inserted.putBehind page (formKey templatePage)).imports = imports :=
      (putBehind_table _ _ _).2
    have keys := (insertForm_perm templatePage form before.forms).map Prod.fst
    refine ⟨?_, ?_, ?_, ?_, ?_, ?_⟩
    · rwa [forms]
    · rwa [forms]
    · intro sought
      rw [forms, keys.mem_iff, mem_stampedWith_concat reached, answered, List.map_cons, List.mem_cons,
        formed.keys, or_comm]
      simp [Except.isOk, Except.toBool]
    · intro entry member
      exact (each entry (forms ▸ member)).1
    · intro entry member
      rw [kept]
      exact (each entry (forms ▸ member)).2
    · intro name inside
      rw [forms]
      rcases behind name inside with old | rfl
      · obtain ⟨earlier, member, named⟩ := formed.behind name old
        exact ⟨earlier, keys.mem_iff.mpr (List.mem_cons_of_mem _ member), named⟩
      · exact ⟨templatePage, keys.mem_iff.mpr List.mem_cons_self, rfl⟩

theorem Formed.used {start : Paper} (formed : Formed destination start uses before)
    (reached : (surface destination).after start uses = before) (opened : before.closed = false)
    (same : before.template = start.template) (used : before.Used use after) :
    Formed destination start (uses ++ [use]) after := by
  cases used with
  | drawn drawing draws =>
    obtain ⟨count, -, -, behind⟩ := draws.turns
    refine formed.keep reached ?_ draws.kept.forms ?_ ?_
    · rw [Surface.stampsWith_eq_nil]
      · exact nofun
      · rintro page templatePage rfl
        cases drawing
    · rw [draws.kept.imports]
      exact .refl _
    · intro name inside
      rw [behind, List.mem_append, List.mem_replicate] at inside
      exact inside.imp id fun new => nomatch new.2
  | set _ _ _ _ _ unstamped =>
    refine formed.keep reached ?_ rfl (.refl _) fun _ inside => .inl inside
    rw [Surface.stampsWith_eq_nil _ _ unstamped]
    exact nofun
  | handedOut => exact formed.keep reached nofun rfl (.refl _) fun _ inside => .inl inside
  | stamped page templatePage => exact formed.stamp reached opened same page templatePage

/-! ### The entries for the forms -/

variable {start : Paper}

theorem Formed.entries_nodup (formed : Formed destination start uses paper) :
    ((formEntries paper.forms).map Prod.fst).Nodup ∧
      ((formEntries paper.forms).map Prod.snd).Nodup := by
  constructor
  · rw [keys_formEntries]
    exact formed.once.map fun _ _ => formKey_injective
  · have ids : (formEntries paper.forms).map Prod.snd =
        (paper.forms.map Prod.snd).map Object.reference := by simp [formEntries]
    rw [ids]
    exact formed.apart.map fun _ _ => Object.reference.inj

theorem Formed.mem_keys (formed : Formed destination start uses paper) (key : Bytes) :
    key ∈ (formEntries paper.forms).map Prod.fst ↔
      ∃ templatePage ∈ (surface destination).stampedWith start uses, key = formKey templatePage := by
  rw [keys_formEntries, List.mem_map]
  constructor
  · rintro ⟨templatePage, member, rfl⟩
    exact ⟨templatePage, (formed.keys templatePage).mp member, rfl⟩
  · rintro ⟨templatePage, member, rfl⟩
    exact ⟨templatePage, (formed.keys templatePage).mpr member, rfl⟩

theorem Formed.bound (formed : Formed destination start uses paper) {templatePage : Nat}
    (stamped : templatePage ∈ (surface destination).stampedWith start uses) :
    ∃ form, (formEntries paper.forms).get? (formKey templatePage) = some (.reference form) ∧
      ImportedBy destination start uses templatePage form ∧
      ∃ template, start.template = some template ∧ template.HasForm paper.imports templatePage form := by
  obtain ⟨⟨_, form⟩, member, rfl⟩ := List.mem_map.mp ((formed.keys templatePage).mpr stamped)
  exact ⟨form, (get?_formEntries formed.once _ form).mpr member, formed.imported _ member,
    formed.held _ member⟩

theorem Formed.named (formed : Formed destination start uses paper) {page : Page} {name : Bytes}
    (member : page ∈ paper.sheets) (behind : page.backdrop = some name) :
    (formEntries paper.forms).get? name ≠ none := by
  have inside : some name ∈ paper.backdrops := List.mem_map.mpr ⟨page, member, behind⟩
  obtain ⟨templatePage, known, rfl⟩ := formed.behind name inside
  obtain ⟨form, found, -⟩ := formed.bound ((formed.keys templatePage).mp known)
  simp [found]

theorem after_formed (settings : PaperSettings) (template : Option Template)
    (destination : Destination) (uses : List Use) (early : .call .write ∉ uses) :
    Formed destination (new settings template) uses
      ((surface destination).after (new settings template) uses) := by
  refine (after_induction (new settings template) destination rfl
    (Formed destination (new settings template)) ?_ ?_ uses early).2
  · exact ⟨List.nodup_nil, List.nodup_nil, fun _ => Iff.rfl, nofun, nofun, by simp [backdrops, sheets, new]⟩
  · intro uses use before after reached _ same used formed
    exact formed.used reached (same.closed.trans rfl) same.template used

end Paper

end Letterhead
