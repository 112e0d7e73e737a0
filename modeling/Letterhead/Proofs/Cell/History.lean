import Letterhead.Cell.State
import Letterhead.Proofs.Text.Rows
import Mathlib.Data.List.Induction

/-!
Where content goes, read off everything that has happened. The last tag decides whether a cell is
open; whether a line break is swallowed depends on the text since the last cell closed. The two go by
different events and do not disturb each other.
-/

namespace Letterhead

open Text (isBlank uppercase)

/-! ### Attributes over the defaults -/

namespace CellLayout

/-- The value that the attribute has, if it can be read, and else the default. -/
def Settles {α : Type} (attributes : Markup.Attributes) (name : String) (read : List Char → Option α)
    (default value : α) : Prop :=
  (∃ given, attributes.get? name.toList = some given ∧ read (uppercase given) = some value) ∨
    ((∀ given, attributes.get? name.toList = some given → read (uppercase given) = none) ∧
      value = default)

/-- What the attributes say, over the layout that a cell has without any. -/
structure LaidOver (attributes : Markup.Attributes) (layout : CellLayout) : Prop where
  width : Settles attributes "W" length? ({} : CellLayout).width layout.width
  height : Settles attributes "H" length? ({} : CellLayout).height layout.height
  borders : Settles attributes "BORDER" Borders.parse? ({} : CellLayout).borders layout.borders
  align : Settles attributes "ALIGN" Alignment.parse? ({} : CellLayout).align layout.align
  fill : Settles attributes "FILL" (fun value => some (Text.trim value == ['1'])) ({} : CellLayout).fill
    layout.fill

theorem setting_settles {α : Type} (attributes : Markup.Attributes) (name : String)
    (read : List Char → Option α) (default : α) :
    Settles attributes name read default (setting attributes name read default) := by
  rw [Settles, setting]
  cases given : attributes.get? name.toList with
  | none => exact .inr ⟨nofun, rfl⟩
  | some text =>
    rw [Option.bind_some]
    cases value : read (uppercase text) with
    | none =>
      refine .inr ⟨fun other same => ?_, rfl⟩
      obtain rfl := Option.some.inj same
      exact value
    | some value => exact .inl ⟨text, rfl, by assumption⟩

theorem ofAttributes_laidOver (attributes : Markup.Attributes) :
    (ofAttributes attributes).LaidOver attributes where
  width := setting_settles ..
  height := setting_settles ..
  borders := setting_settles ..
  align := setting_settles ..
  fill := setting_settles ..

end CellLayout

/-! ### Events -/

inductive CellEvent where
  | opening (attributes : Markup.Attributes)
  | closing
  | content (text : List Char)

namespace CellEvent

def isContent : CellEvent → Bool
  | .content _ => true
  | _ => false

/-- The last of the tags opens a cell, with these attributes. -/
def LastOpens (events : List CellEvent) (attributes : Markup.Attributes) : Prop :=
  ∃ before since, events = before ++ .opening attributes :: since ∧ ∀ event ∈ since, event.isContent = true

/-- A cell has closed, and nothing visible has come since the last time. -/
def AwaitsText (events : List CellEvent) : Prop :=
  ∃ before since, events = before ++ .closing :: since ∧ .closing ∉ since ∧
    ∀ text, .content text ∈ since → ∀ c ∈ text, isBlank c = true

variable (events : List CellEvent)

theorem lastOpens_concat (event : CellEvent) (attributes : Markup.Attributes) :
    LastOpens (events ++ [event]) attributes ↔
      event = .opening attributes ∨ (event.isContent = true ∧ LastOpens events attributes) := by
  simp only [LastOpens, Text.concat_eq_append_cons_iff]
  constructor
  · rintro ⟨before, since, ⟨rfl, rfl, rfl⟩ | ⟨rest, rfl, rfl⟩, contents⟩
    · exact .inl rfl
    · rw [List.forall_mem_append, List.forall_mem_singleton] at contents
      exact .inr ⟨contents.2, before, rest, rfl, contents.1⟩
  · rintro (rfl | ⟨content, before, since, rfl, contents⟩)
    · exact ⟨events, [], .inl ⟨rfl, rfl, rfl⟩, nofun⟩
    · refine ⟨before, since ++ [event], .inr ⟨since, rfl, rfl⟩, ?_⟩
      rw [List.forall_mem_append, List.forall_mem_singleton]
      exact ⟨contents, content⟩

theorem awaitsText_concat_closing : AwaitsText (events ++ [.closing]) :=
  ⟨events, [], rfl, List.not_mem_nil, nofun⟩

theorem awaitsText_concat (event : CellEvent) (other : event ≠ .closing) :
    AwaitsText (events ++ [event]) ↔
      AwaitsText events ∧ ∀ text, event = .content text → ∀ c ∈ text, isBlank c = true := by
  simp only [AwaitsText, Text.concat_eq_append_cons_iff]
  constructor
  · rintro ⟨before, since, ⟨rfl, rfl, same⟩ | ⟨rest, rfl, rfl⟩, last, blank⟩
    · exact absurd same other
    · simp only [List.mem_append, List.mem_singleton, not_or] at last blank
      refine ⟨⟨before, rest, rfl, last.1, fun text among => blank text (.inl among)⟩, ?_⟩
      rintro text rfl
      exact blank text (.inr rfl)
  · rintro ⟨⟨before, since, rfl, last, blank⟩, ending⟩
    refine ⟨before, since ++ [event], .inr ⟨since, rfl, rfl⟩, ?_, fun text among => ?_⟩
    · simp only [List.mem_append, List.mem_singleton, not_or]
      exact ⟨last, other.symm⟩
    · rcases List.mem_append.mp among with earlier | now
      · exact blank text earlier
      · exact ending text (List.mem_singleton.mp now).symm

theorem not_awaitsText_nil : ¬ AwaitsText [] := by
  rintro ⟨before, since, nothing, -⟩
  simp at nothing

end CellEvent

/-! ### The state after them -/

namespace CellState

open CellEvent (LastOpens AwaitsText)

def next (state : CellState) : CellEvent → CellState
  | .opening attributes => state.opened attributes
  | .closing => state.closed
  | .content text => (state.prepare text).2

def after (events : List CellEvent) : CellState := events.foldl next {}

theorem after_concat (events : List CellEvent) (event : CellEvent) :
    after (events ++ [event]) = (after events).next event := by
  simp [after]

def lineBreaks : List (List Char) := [['\r', '\n'], ['\n']]

theorem dropBreak_append {lineBreak : List Char} (breaks : lineBreak ∈ lineBreaks) (rest : List Char) :
    dropBreak (lineBreak ++ rest) = rest := by
  simp only [lineBreaks, List.mem_cons, List.not_mem_nil, or_false] at breaks
  rcases breaks with rfl | rfl <;> rfl

theorem dropBreak_of_none {text : List Char} (none : ∀ lineBreak ∈ lineBreaks, ¬ lineBreak <+: text) :
    dropBreak text = text := by
  unfold dropBreak
  split
  · rename_i rest
    exact absurd ⟨rest, rfl⟩ (none ['\r', '\n'] (by decide))
  · rename_i rest
    exact absurd ⟨rest, rfl⟩ (none ['\n'] (by decide))
  · rfl

/-- What is dropped is a line break, if anything. -/
theorem dropBreak_suffix (text : List Char) :
    dropBreak text = text ∨ ∃ lineBreak ∈ lineBreaks, text = lineBreak ++ dropBreak text := by
  unfold dropBreak
  split
  · exact .inr ⟨['\r', '\n'], by decide, rfl⟩
  · exact .inr ⟨['\n'], by decide, rfl⟩
  · exact .inl rfl

theorem dropBreak_shorter {text : List Char} (broken : ∃ lineBreak ∈ lineBreaks, lineBreak <+: text) :
    (dropBreak text).length < text.length := by
  obtain ⟨lineBreak, breaks, rest, rfl⟩ := broken
  have some : 0 < lineBreak.length := by
    revert lineBreak
    decide
  rw [dropBreak_append breaks, List.length_append]
  omega

theorem isBlank_of_mem_lineBreak {lineBreak : List Char} (breaks : lineBreak ∈ lineBreaks) :
    ∀ c ∈ lineBreak, isBlank c = true := by
  have carriage : isBlank '\r' = true := by decide
  have feed : isBlank '\n' = true := by decide
  simp only [lineBreaks, List.mem_cons, List.not_mem_nil, or_false] at breaks
  rcases breaks with rfl | rfl
  · simp [carriage, feed]
  · simp [feed]

variable (events : List CellEvent)

theorem layout_after (attributes : Markup.Attributes) (opens : LastOpens events attributes) :
    (after events).layout = some (.ofAttributes attributes) := by
  induction events using List.reverseRecOn with
  | nil =>
    obtain ⟨before, since, nothing, -⟩ := opens
    simp at nothing
  | append_singleton events event ih =>
    rw [after_concat]
    rcases (CellEvent.lastOpens_concat events event attributes).mp opens with rfl | ⟨content, earlier⟩
    · rfl
    · cases event with
      | content text => exact (prepare_layout _ text).trans (ih earlier)
      | opening | closing => cases content

theorem layout_after_eq_none (unopened : ∀ attributes, ¬ LastOpens events attributes) :
    (after events).layout = none := by
  induction events using List.reverseRecOn with
  | nil => rfl
  | append_singleton events event ih =>
    simp only [CellEvent.lastOpens_concat, not_or, not_and] at unopened
    rw [after_concat]
    cases event with
    | opening attributes => exact absurd rfl (unopened attributes).1
    | closing => rfl
    | content text => exact (prepare_layout _ text).trans (ih fun attributes => (unopened attributes).2 rfl)

theorem skipsBreak_after : (after events).skipsBreak = true ↔ AwaitsText events := by
  induction events using List.reverseRecOn with
  | nil => exact ⟨nofun, fun waits => absurd waits CellEvent.not_awaitsText_nil⟩
  | append_singleton events event ih =>
    rw [after_concat]
    cases event with
    | opening attributes =>
      rw [CellEvent.awaitsText_concat events (.opening attributes) nofun, ← ih]
      exact (and_iff_left nofun).symm
    | closing => exact iff_of_true rfl (CellEvent.awaitsText_concat_closing events)
    | content text =>
      rw [CellEvent.awaitsText_concat events (.content text) nofun, ← ih, next, prepare_eq]
      cases skips : (after events).skipsBreak <;> simp [skips]

theorem prepare_kept (state : CellState) (text : List Char) :
    (state.prepare text).1 = if state.skipsBreak then dropBreak text else text := by
  rw [prepare_eq]
  split <;> rfl

theorem kept_filter (state : CellState) (text : List Char) :
    (state.prepare text).1.filter (!isBlank ·) = text.filter (!isBlank ·) := by
  rw [prepare_kept]
  split
  · rcases dropBreak_suffix text with same | ⟨lineBreak, breaks, split⟩
    · rw [same]
    · have blank : lineBreak.filter (!isBlank ·) = [] := by
        simpa using isBlank_of_mem_lineBreak breaks
      conv_rhs => rw [split, List.filter_append, blank, List.nil_append]
  · rfl

/-- After any events a cell is open just if the last tag opens one, and then it is laid out by the
attributes of that tag, over the defaults. A line break is waited for just if a cell has closed and no
content since the last time has anything visible in it. Then content loses the line break that it
begins with, if it does, and else it is handed on as it is. So nothing visible is ever lost, and of
each piece of content at most one line break. -/
theorem follows_its_history (events : List CellEvent) :
    (∀ attributes, LastOpens events attributes →
      ∃ layout, (after events).layout = some layout ∧ layout.LaidOver attributes) ∧
    ((∀ attributes, ¬ LastOpens events attributes) → (after events).layout = none) ∧
    ((after events).skipsBreak = true ↔ AwaitsText events) ∧
    ∀ before text rest, events = before ++ .content text :: rest →
      let kept := ((after before).prepare text).1
      (AwaitsText before →
        ∀ lineBreak ∈ lineBreaks, ∀ others, text = lineBreak ++ others → kept = others) ∧
      (¬ AwaitsText before ∨ (∀ lineBreak ∈ lineBreaks, ¬ lineBreak <+: text) → kept = text) ∧
      (kept = text ∨ ∃ lineBreak ∈ lineBreaks, text = lineBreak ++ kept) ∧
      kept.filter (!isBlank ·) = text.filter (!isBlank ·) := by
  refine ⟨fun attributes opens => ?_, layout_after_eq_none events, skipsBreak_after events, ?_⟩
  · exact ⟨_, layout_after events attributes opens, CellLayout.ofAttributes_laidOver attributes⟩
  intro before text rest _ kept
  have handed : kept = if (after before).skipsBreak then dropBreak text else text :=
    prepare_kept (after before) text
  refine ⟨fun waits lineBreak breaks others split => ?_, fun kept_whole => ?_, ?_,
    kept_filter (after before) text⟩
  · rw [handed, if_pos ((skipsBreak_after before).mpr waits), split, dropBreak_append breaks]
  · rcases kept_whole with free | unbroken
    · rw [handed, if_neg (mt (skipsBreak_after before).mp free)]
    · rw [handed, dropBreak_of_none unbroken, ite_self]
  · rw [handed]
    split
    · exact dropBreak_suffix text
    · exact .inl rfl

-- Blank content lets the line break after it wait, and text ends the waiting.
example : (after [.closing, .content ['\n'], .content [' ', ' ']]).prepare ['\n', 'a'] =
    (['a'], { layout := none, skipsBreak := false }) := by rfl

end CellState

end Letterhead
