import Letterhead.Markup.Token
import Letterhead.Text.Split

/-!
Line feeds with and without a carriage return. Both conventions divide a text into the same tags:
a tag ends before the line does, so no line ending is inside one.
-/

namespace Letterhead

/-! ### Text -/

namespace Text

/-- The same text with a carriage return before each line feed. -/
def withReturns (text : List Char) : List Char :=
  text.flatMap fun c => if c = '\n' then ['\r', '\n'] else [c]

@[simp] theorem withReturns_nil : withReturns [] = [] := rfl

theorem withReturns_feed (rest : List Char) :
    withReturns ('\n' :: rest) = '\r' :: '\n' :: withReturns rest := rfl

theorem withReturns_cons {c : Char} (other : c ≠ '\n') (rest : List Char) :
    withReturns (c :: rest) = c :: withReturns rest := by
  simp [withReturns, other]

@[simp] theorem isEmpty_withReturns (text : List Char) : (withReturns text).isEmpty = text.isEmpty := by
  cases text with
  | nil => rfl
  | cons c rest => by_cases feed : c = '\n' <;> simp [withReturns, feed]

theorem withReturns_of_one_line {text : List Char} (one : '\n' ∉ text) : withReturns text = text := by
  induction text with
  | nil => rfl
  | cons c rest ih =>
    rw [List.mem_cons, not_or] at one
    rw [withReturns_cons (Ne.symm one.1), ih one.2]

theorem length_withReturns (text : List Char) :
    (withReturns text).length = text.length + text.count '\n' := by
  induction text with
  | nil => rfl
  | cons c rest ih =>
    by_cases feed : c = '\n'
    · subst feed
      simp only [withReturns_feed, List.length_cons, List.count_cons_self, ih]
      omega
    · rw [withReturns_cons feed, List.count_cons_of_ne feed, List.length_cons, List.length_cons, ih]
      omega

/-- All that was put in is left out again. -/
theorem filter_withReturns (keep : Char → Bool) (drops : keep '\r' = false) (text : List Char) :
    (withReturns text).filter keep = text.filter keep := by
  induction text with
  | nil => rfl
  | cons c rest ih =>
    by_cases feed : c = '\n'
    · subst feed
      simp [withReturns_feed, List.filter_cons, drops, ih]
    · simp [withReturns_cons feed, List.filter_cons, ih]

theorem all_isBlank_withReturns (text : List Char) :
    (withReturns text).all isBlank = text.all isBlank := by
  induction text with
  | nil => rfl
  | cons c rest ih =>
    by_cases feed : c = '\n'
    · subst feed
      have feed : isBlank '\n' = true := by decide
      have returned : isBlank '\r' = true := by decide
      simp [withReturns_feed, feed, returned, ih]
    · simp [withReturns_cons feed, ih]

end Text

/-! ### Tags -/

namespace Markup

open Text (withReturns withReturns_feed withReturns_cons)

def Split.withReturns (split : Split) : Split :=
  { split with content := Text.withReturns split.content, rest := Text.withReturns split.rest }

def Token.withReturns : Token → Token
  | .content text => .content (Text.withReturns text)
  | token => token

theorem interior?_withReturns (text : List Char) :
    interior? (withReturns text) =
      (interior? text).map fun found => (found.1, withReturns found.2) := by
  induction text with
  | nil => rfl
  | cons c rest ih =>
    by_cases feed : c = '\n'
    · subst feed
      rfl
    · rw [withReturns_cons feed, interior?, interior?]
      by_cases closes : c = '>'
      · simp [closes]
      · simp [closes, feed, ih, Function.comp_def]

theorem split?_withReturns (text : List Char) :
    split? (withReturns text) = (split? text).map Split.withReturns := by
  induction text with
  | nil => rfl
  | cons c rest ih =>
    by_cases feed : c = '\n'
    · subst feed
      simp [withReturns_feed, split?, ih, Function.comp_def, Split.withReturns]
    · rw [withReturns_cons feed, split?, split?, ih]
      by_cases opens : c = '<'
      · subst opens
        rw [if_pos rfl, if_pos rfl, interior?_withReturns]
        cases interior? rest <;>
          simp [Function.comp_def, Split.withReturns, withReturns_cons feed]
      · simp [opens, Function.comp_def, Split.withReturns, withReturns_cons feed]

/-- The tags are the same, and the content between them has the other line endings. -/
theorem tokenize_withReturns (text : List Char) :
    tokenize (withReturns text) = (tokenize text).map Token.withReturns := by
  fun_induction tokenize text with
  | case1 text untagged =>
    have still : split? (withReturns text) = none := by rw [split?_withReturns, untagged]; rfl
    rw [tokenize.eq_def]
    split
    · rfl
    · rename_i found
      cases still.symm.trans found
  | case2 text split found ih =>
    have same : split? (withReturns text) = some split.withReturns := by
      rw [split?_withReturns, found]
      rfl
    rw [tokenize.eq_def]
    split
    · rename_i untagged
      cases untagged.symm.trans same
    · rename_i other again
      obtain rfl := Option.some.inj (again.symm.trans same)
      simp only [List.map_cons]
      rw [← ih]
      rfl

/-! ### Content without carriage returns -/

-- No carriage return is in its content.
def Token.Unreturned : Token → Prop
  | .content text => '\r' ∉ text
  | .tag _ => True

theorem tokenize_unreturned {text : List Char} (unreturned : '\r' ∉ text) :
    ∀ token ∈ tokenize text, token.Unreturned := by
  fun_induction tokenize text with
  | case1 text untagged => exact List.forall_mem_singleton.mpr unreturned
  | case2 text split found ih =>
    simp only [split?_eq found, List.mem_append, List.mem_cons, not_or] at unreturned
    obtain ⟨content, -, -, -, rest⟩ := unreturned
    exact List.forall_mem_cons.mpr ⟨content, List.forall_mem_cons.mpr ⟨trivial, ih rest⟩⟩

end Markup

end Letterhead
