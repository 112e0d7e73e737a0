import Letterhead.Rendering
import Mathlib.Algebra.Group.Nat.Defs
import Mathlib.Data.List.Infix
import Mathlib.Order.Bounds.Basic

/-!
How often a tag is open, read off everything that was opened and closed. Closing what is not open
changes nothing, so the order counts and totals do not: the count is the greatest surplus of openings
over closings that any end of the history has, as long as there are too few openings to wrap it.
-/

namespace Letterhead

/-! ### Names -/

namespace Emphasis

/-- In the order in which a variant lists them. -/
def all : List Emphasis := [.bold, .italic, .underline]

def letter : Emphasis → Char
  | .bold => 'B'
  | .italic => 'I'
  | .underline => 'U'

def name (tag : Emphasis) : List Char := [tag.letter]

theorem ofName?_name (tag : Emphasis) : ofName? tag.name = some tag := by
  cases tag <;> rfl

theorem name_of_ofName? {name : List Char} {tag : Emphasis} (found : ofName? name = some tag) :
    name = tag.name := by
  unfold ofName? at found
  split at found <;> cases found <;> rfl

theorem ofName?_eq_none_iff (name : List Char) :
    ofName? name = none ↔ ∀ tag : Emphasis, name ≠ tag.name := by
  constructor
  · rintro unknown tag rfl
    cases (ofName?_name tag).symm.trans unknown
  · intro other
    cases found : ofName? name with
    | none => rfl
    | some tag => exact absurd (name_of_ofName? found) (other tag)

theorem name_inj {tag other : Emphasis} : tag.name = other.name ↔ tag = other := by
  cases tag <;> cases other <;> decide

end Emphasis

/-! ### Toggles -/

def openings (tag : Emphasis) (toggles : List Toggle) : Nat := toggles.count ⟨tag.name, false⟩

def closings (tag : Emphasis) (toggles : List Toggle) : Nat := toggles.count ⟨tag.name, true⟩

def surplus (tag : Emphasis) (toggles : List Toggle) : Int := openings tag toggles - closings tag toggles

theorem openings_append (tag : Emphasis) (first rest : List Toggle) :
    openings tag (first ++ rest) = openings tag first + openings tag rest := List.count_append

theorem openings_singleton (tag : Emphasis) (toggle : Toggle) :
    openings tag [toggle] = if toggle.name = tag.name then if toggle.closing then 0 else 1 else 0 := by
  obtain ⟨name, closing⟩ := toggle
  cases closing <;> by_cases named : name = tag.name <;> simp [openings, named]

theorem surplus_append (tag : Emphasis) (first rest : List Toggle) :
    surplus tag (first ++ rest) = surplus tag first + surplus tag rest := by
  simp only [surplus, openings, closings, List.count_append]
  omega

theorem openings_beginning_le (tag : Emphasis) {before toggles : List Toggle} (early : before <+: toggles) :
    openings tag before ≤ openings tag toggles := early.sublist.count_le _

namespace StyleCounts

def after (toggles : List Toggle) : StyleCounts :=
  toggles.foldl (fun counts toggle => (counts.toggled toggle).2) {}

theorem after_concat (toggles : List Toggle) (toggle : Toggle) :
    after (toggles ++ [toggle]) = ((after toggles).toggled toggle).2 := by
  simp [after]

-- What a pass does with the style of its text at a tag is a toggle.
theorem stepTag_toggled (text : TextState) (tag : Markup.Tag) :
    (text.stepTag tag).2.style = (text.style.toggled ⟨tag.name, tag.closing⟩).2 ∧
      ((text.style.toggled ⟨tag.name, tag.closing⟩).1.isSome →
        (text.stepTag tag).1 = (text.style.toggled ⟨tag.name, tag.closing⟩).1.map .selectStyle) := by
  rw [TextState.stepTag, TagRole.ofName, toggled]
  cases Emphasis.ofName? tag.name with
  | none =>
    by_cases small : tag.name = ['S', 'M', 'A', 'L', 'L']
    · simp [small]
    · by_cases cell : tag.name = ['C', 'E', 'L', 'L'] <;> simp [small, cell]
  | some style => exact ⟨rfl, fun _ => rfl⟩

/-! ### One toggle -/

variable (counts : StyleCounts)

theorem toggled_of_unknown {toggle : Toggle} (other : ∀ tag : Emphasis, toggle.name ≠ tag.name) :
    counts.toggled toggle = (none, counts) := by
  rw [toggled, (Emphasis.ofName?_eq_none_iff _).mpr other]

theorem toggled_of_name {toggle : Toggle} {tag : Emphasis} (named : toggle.name = tag.name) :
    (counts.toggled toggle).1 = some (counts.toggled toggle).2.variant ∧
      (counts.toggled toggle).2 = if toggle.closing then counts.closed tag else counts.opened tag := by
  rw [toggled, named, Emphasis.ofName?_name]
  exact ⟨rfl, rfl⟩

theorem surplus_of_name {toggle : Toggle} {tag : Emphasis} (named : toggle.name = tag.name)
    (sought : Emphasis) :
    surplus sought [toggle] = if sought = tag then if toggle.closing then -1 else 1 else 0 := by
  obtain ⟨name, closing⟩ := toggle
  obtain rfl : name = tag.name := named
  have same : tag.name = sought.name ↔ sought = tag := Emphasis.name_inj.trans eq_comm
  cases closing <;> by_cases here : sought = tag <;>
    simp [surplus, openings, closings, same, here]

theorem surplus_of_unknown {toggle : Toggle} (other : ∀ tag : Emphasis, toggle.name ≠ tag.name)
    (sought : Emphasis) : surplus sought [toggle] = 0 := by
  obtain ⟨name, closing⟩ := toggle
  simp [surplus, openings, closings, other sought]

-- Also where a count wraps.
theorem count_toggled_le (toggle : Toggle) (sought : Emphasis) :
    (counts.toggled toggle).2.count sought ≤ counts.count sought + openings sought [toggle] := by
  by_cases named : ∃ tag : Emphasis, toggle.name = tag.name
  · obtain ⟨tag, named⟩ := named
    rw [(counts.toggled_of_name named).2, openings_singleton, named]
    simp only [Emphasis.name_inj, @eq_comm _ tag]
    cases toggle.closing <;> by_cases here : sought = tag
    · simpa [count_opened, here] using Nat.mod_le _ _
    · simp [count_opened, here]
    · simp [count_closed, here]
    · simp [count_closed, here]
  · rw [not_exists] at named
    simp [counts.toggled_of_unknown named]

/-- A count that does not wrap moves by the surplus of the toggle, and stops at zero. -/
theorem count_toggled {toggle : Toggle} {sought : Emphasis}
    (room : counts.count sought + openings sought [toggle] < 2 ^ 32) :
    ((counts.toggled toggle).2.count sought : Int) =
      max 0 (counts.count sought + surplus sought [toggle]) := by
  by_cases named : ∃ tag : Emphasis, toggle.name = tag.name
  · obtain ⟨tag, named⟩ := named
    rw [(counts.toggled_of_name named).2, surplus_of_name named]
    by_cases here : sought = tag
    · obtain rfl := here
      cases closes : toggle.closing with
      | false =>
        rw [openings_singleton, if_pos named, closes] at room
        simp only [if_true, Bool.false_eq_true, if_false] at room ⊢
        rw [counts.count_opened_of_room sought room]
        omega
      | true =>
        simp only [if_true, count_closed]
        omega
    · cases toggle.closing <;> simp [count_opened, count_closed, here]
  · rw [not_exists] at named
    simp [counts.toggled_of_unknown named, surplus_of_unknown named]

/-! ### All toggles -/

theorem count_le_openings (toggles : List Toggle) (tag : Emphasis) :
    (after toggles).count tag ≤ openings tag toggles := by
  induction toggles using List.reverseRecOn with
  | nil => cases tag <;> decide
  | append_singleton toggles toggle ih =>
    rw [after_concat, openings_append]
    exact ((after toggles).count_toggled_le toggle tag).trans (Nat.add_le_add_right ih _)

variable {toggles : List Toggle} {tag : Emphasis} (few : openings tag toggles < 2 ^ 32)

include few

-- By induction from the last toggle: an end of the longer history is empty, or one more toggle.
theorem count_isGreatest :
    IsGreatest {total : Int | ∃ later, later <:+ toggles ∧ surplus tag later = total}
      ((after toggles).count tag) := by
  induction toggles using List.reverseRecOn with
  | nil =>
    refine ⟨⟨[], List.suffix_rfl, by cases tag <;> rfl⟩, ?_⟩
    rintro total ⟨later, short, rfl⟩
    obtain rfl := List.suffix_nil.mp short
    cases tag <;> decide
  | append_singleton toggles toggle ih =>
    rw [openings_append] at few
    obtain ⟨⟨longest, within, reached⟩, greatest⟩ := ih (by omega)
    have room : (after toggles).count tag + openings tag [toggle] < 2 ^ 32 :=
      (Nat.add_le_add_right (count_le_openings toggles tag) _).trans_lt few
    rw [after_concat, count_toggled _ room]
    constructor
    · rcases le_total 0 ((after toggles).count tag + surplus tag [toggle]) with above | below
      · refine ⟨longest ++ [toggle], ?_, ?_⟩
        · exact List.suffix_concat_iff.mpr (.inr ⟨longest, rfl, within⟩)
        · rw [surplus_append, reached, max_eq_right above]
      · exact ⟨[], List.nil_suffix, by rw [max_eq_left below]; rfl⟩
    · rintro total ⟨later, short, rfl⟩
      rcases List.suffix_concat_iff.mp short with rfl | ⟨rest, rfl, inside⟩
      · exact le_max_left 0 _
      · rw [surplus_append]
        have least := greatest ⟨rest, inside, rfl⟩
        exact (Int.add_le_add_right least _).trans (le_max_right 0 _)

theorem isOn_iff : (after toggles).isOn tag = true ↔ ∃ later ∈ toggles.tails, 0 < surplus tag later := by
  obtain ⟨⟨longest, within, reached⟩, greatest⟩ := count_isGreatest few
  simp only [isOn, decide_eq_true_eq, List.mem_tails]
  constructor
  · intro open_
    exact ⟨longest, within, by omega⟩
  · rintro ⟨later, inside, positive⟩
    have least := greatest ⟨later, inside, rfl⟩
    omega

-- Then no end of the history has a surplus, as the beginning that it leaves would lack it.
theorem count_of_balanced (early : ∀ before, before <+: toggles → 0 ≤ surplus tag before)
    (even : surplus tag toggles = 0) : (after toggles).count tag = 0 := by
  obtain ⟨⟨longest, ⟨before, whole⟩, reached⟩, -⟩ := count_isGreatest few
  have first := early before ⟨longest, whole⟩
  rw [← whole, surplus_append] at even
  omega

-- An opening on the way is counted.
theorem count_opening {before : List Toggle} (early : before ++ [⟨tag.name, false⟩] <+: toggles) :
    (after (before ++ [⟨tag.name, false⟩])).count tag = (after before).count tag + 1 := by
  have opening : openings tag [⟨tag.name, false⟩] = 1 := List.count_singleton_self
  have fewer := (openings_beginning_le tag early).trans_lt few
  rw [openings_append, opening] at fewer
  have room := (Nat.add_le_add_right (count_le_openings before tag) 1).trans_lt fewer
  rw [after_concat, ((after before).toggled_of_name rfl).2]
  exact (after before).count_opened_of_room tag room

omit few

theorem letters_variant (counts : StyleCounts) :
    counts.variant.letters = (Emphasis.all.filter counts.isOn).map Emphasis.letter := by
  simp only [variant, FontStyle.letters, Emphasis.all, List.filter_cons, List.filter_nil]
  by_cases bold : counts.isOn .bold = true <;> by_cases italic : counts.isOn .italic = true <;>
    by_cases underline : counts.isOn .underline = true <;>
      simp [Emphasis.letter, bold, italic, underline]

theorem letters_after (few : ∀ tag, openings tag toggles < 2 ^ 32) :
    (after toggles).variant.letters =
      (Emphasis.all.filter fun tag => ∃ later ∈ toggles.tails, 0 < surplus tag later).map
        Emphasis.letter := by
  rw [letters_variant]
  congr 2
  funext tag
  rw [Bool.eq_iff_iff, isOn_iff (few tag), decide_eq_true_eq]

theorem isPlain_iff (counts : StyleCounts) : counts.isPlain = true ↔ ∀ tag, counts.count tag = 0 := by
  rw [isPlain, beq_iff_eq]
  constructor
  · rintro rfl tag
    cases tag <;> rfl
  · intro none_open
    apply ext_count
    intro tag
    rw [none_open]
    cases tag <;> rfl

/-- After any toggles, with fewer than 2^32 openings of each style, a style is open as often as the
greatest surplus of its openings over its closings in any end of the history, the empty one included,
and no count on the way wraps: each opening adds one. Each toggle of a style answers with the letters,
in order, of the styles that some end has opened more often than closed; any other changes nothing. If
each beginning opens a style at least as often as it closes it, and the whole as often, none is left
open. -/
theorem counts_are_greatest_surpluses (few : ∀ tag, openings tag toggles < 2 ^ 32) :
    (∀ tag, IsGreatest {total : Int | ∃ later, later <:+ toggles ∧ surplus tag later = total}
      ((after toggles).count tag)) ∧
    (∀ (tag : Emphasis) (before : List Toggle), before ++ [⟨tag.name, false⟩] <+: toggles →
      (after (before ++ [⟨tag.name, false⟩])).count tag = (after before).count tag + 1) ∧
    (∀ before toggle rest, toggles = before ++ toggle :: rest →
      ((∀ tag : Emphasis, toggle.name ≠ tag.name) →
        (after before).toggled toggle = (none, after before)) ∧
      ((∃ tag : Emphasis, toggle.name = tag.name) →
        ∃ variant, ((after before).toggled toggle).1 = some variant ∧
          variant.letters = (Emphasis.all.filter fun tag =>
            ∃ later ∈ (before ++ [toggle]).tails, 0 < surplus tag later).map Emphasis.letter)) ∧
    ((∀ tag, (∀ before, before <+: toggles → 0 ≤ surplus tag before) ∧ surplus tag toggles = 0) →
      (after toggles).isPlain = true) := by
  refine ⟨fun tag => count_isGreatest (few tag), fun tag _ => count_opening (few tag), ?_, ?_⟩
  · rintro before toggle rest rfl
    refine ⟨toggled_of_unknown _, fun ⟨tag, named⟩ => ?_⟩
    have fewer (tag : Emphasis) : openings tag (before ++ [toggle]) < 2 ^ 32 :=
      (openings_beginning_le tag ⟨rest, List.append_cons before toggle rest ▸ rfl⟩).trans_lt (few tag)
    refine ⟨(after (before ++ [toggle])).variant, ?_, letters_after fewer⟩
    rw [after_concat, (toggled_of_name _ named).1]
  · intro balanced
    exact (isPlain_iff _).mpr fun tag =>
      count_of_balanced (few tag) (balanced tag).1 (balanced tag).2

/-- A closing too many in the middle, a name that is no style, and an underline that is closed again. -/
def crossed : List Toggle :=
  [⟨['B'], false⟩, ⟨['B'], true⟩, ⟨['B'], true⟩, ⟨['U'], false⟩, ⟨['B'], false⟩, ⟨['E', 'M'], true⟩,
    ⟨['I'], false⟩, ⟨['B'], false⟩, ⟨['U'], true⟩]

theorem crossed_counts :
    (∀ tag, openings tag crossed < 2 ^ 32) ∧ surplus .bold crossed = 1 ∧
      IsGreatest {total : Int | ∃ later, later <:+ crossed ∧ surplus .bold later = total} 2 ∧
      ((after (crossed.take 8)).toggled ⟨['U'], true⟩).1.map FontStyle.letters = some ['B', 'I'] := by
  have few : ∀ tag, openings tag crossed < 2 ^ 32 := by
    intro tag
    cases tag <;> decide
  obtain ⟨greatest, -, answers, -⟩ := counts_are_greatest_surpluses few
  obtain ⟨variant, answered, letters⟩ := (answers (crossed.take 8) ⟨['U'], true⟩ [] rfl).2 ⟨.underline, rfl⟩
  refine ⟨few, by decide, greatest .bold, ?_⟩
  rw [answered, Option.map_some, letters]
  decide

end StyleCounts

end Letterhead
