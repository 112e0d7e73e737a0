import Letterhead.Markup.Attributes

/-!
Marked-up text as a stream of tokens. A tag is `<`, an interior without `>` or line feed, and `>`;
each begins at the first `<` that allows one. Content and tags alternate, and content, possibly
empty, comes first and last.
-/

namespace Letterhead.Markup

/-- A closing tag has no attributes. -/
structure Tag where
  name : List Char
  attributes : Attributes
  closing : Bool
deriving DecidableEq, Repr

inductive Token where
  | content (text : List Char)
  | tag (tag : Tag)
deriving DecidableEq, Repr

/-- A slash makes a closing tag of all that follows it. Else the name ends at the first space. -/
def Tag.parse : List Char → Tag
  | '/' :: name => ⟨Text.uppercase name, .empty, true⟩
  | interior =>
    match Text.cut? ' ' interior with
    | some (name, raw) => ⟨Text.uppercase name, .parse raw, false⟩
    | none => ⟨Text.uppercase interior, .empty, false⟩

/-- The interior and what follows the `>`, for text that follows a `<`. -/
def interior? : List Char → Option (List Char × List Char)
  | [] => none
  | c :: rest =>
    if c = '>' then some ([], rest)
    else if c = '\n' then none
    else (interior? rest).map fun found => (c :: found.1, found.2)

/-- What stands before a tag, its interior, and what follows it. -/
structure Split where
  content : List Char
  interior : List Char
  rest : List Char

def split? : List Char → Option Split
  | [] => none
  | c :: rest =>
    match if c = '<' then interior? rest else none with
    | some (interior, rest) => some ⟨[], interior, rest⟩
    | none => (split? rest).map fun found => { found with content := c :: found.content }

theorem interior?_eq {text interior rest : List Char} (found : interior? text = some (interior, rest)) :
    text = interior ++ '>' :: rest := by
  induction text generalizing interior with
  | nil => simp [interior?] at found
  | cons c tail ih =>
    simp only [interior?] at found
    split at found
    · rename_i close
      simp only [Option.some.injEq, Prod.mk.injEq] at found
      simp [← found.1, ← found.2, close]
    · split at found
      · simp at found
      · obtain ⟨⟨inner, outer⟩, inside, same⟩ := Option.map_eq_some_iff.1 found
        simp only [Prod.mk.injEq] at same
        obtain ⟨rfl, rfl⟩ := same
        simp [← ih inside]

theorem split?_eq {text : List Char} {split : Split} (found : split? text = some split) :
    text = split.content ++ '<' :: (split.interior ++ '>' :: split.rest) := by
  induction text generalizing split with
  | nil => simp [split?] at found
  | cons c tail ih =>
    simp only [split?] at found
    split at found
    · rename_i interior rest inside
      split at inside
      · rename_i opens
        simp only [Option.some.injEq] at found
        subst found
        simp [opens, interior?_eq inside]
      · simp at inside
    · obtain ⟨later, inside, same⟩ := Option.map_eq_some_iff.1 found
      subst same
      simp [← ih inside]

theorem split?_shorter {text : List Char} {split : Split} (found : split? text = some split) :
    split.rest.length < text.length := by
  have whole := congrArg List.length (split?_eq found)
  simp only [List.length_append, List.length_cons] at whole
  omega

def tokenize (text : List Char) : List Token :=
  match _ : split? text with
  | none => [.content text]
  | some split => .content split.content :: .tag (.parse split.interior) :: tokenize split.rest
termination_by text.length
decreasing_by exact split?_shorter ‹_›

end Letterhead.Markup
