import Letterhead.Text.Uppercase
import Letterhead.Text.Split

/-!
Tag attributes. A list is cut at single spaces into expressions `name=value`; the value may stand
in quotes, single or double, of which either may be missing. An expression of any other form is
dropped. Names are upper-cased, values kept as written, and the last of several values counts.
-/

namespace Letterhead.Markup

/-- Ascending by name, each name once. -/
structure Attributes where
  entries : List (List Char × List Char)
deriving DecidableEq, Repr

namespace Attributes

def empty : Attributes := ⟨[]⟩

def insertEntry (name value : List Char) :
    List (List Char × List Char) → List (List Char × List Char)
  | [] => [(name, value)]
  | entry :: rest =>
    if name = entry.1 then (name, value) :: rest
    else if name < entry.1 then (name, value) :: entry :: rest
    else entry :: insertEntry name value rest

def insert (attributes : Attributes) (name value : List Char) : Attributes :=
  ⟨insertEntry name value attributes.entries⟩

def get? (attributes : Attributes) (name : List Char) : Option (List Char) :=
  attributes.entries.lookup name

def ofPairs (pairs : List (List Char × List Char)) : Attributes :=
  pairs.foldl (fun attributes pair => attributes.insert pair.1 pair.2) empty

theorem lookup_entry (key held sought : List Char) (rest : List (List Char × List Char)) :
    ((key, held) :: rest).lookup sought = if sought = key then some held else rest.lookup sought := by
  by_cases same : sought = key
  · simp [same]
  · have differ : (sought == key) = false := by simpa using same
    simp [List.lookup_cons, differ, same]

theorem lookup_insertEntry (name value sought : List Char)
    (entries : List (List Char × List Char)) :
    (insertEntry name value entries).lookup sought =
      if sought = name then some value else entries.lookup sought := by
  induction entries with
  | nil => simp [insertEntry]
  | cons entry rest ih =>
    obtain ⟨key, held⟩ := entry
    simp only [insertEntry]
    by_cases here : name = key
    · subst here
      by_cases same : sought = name <;> simp [lookup_entry, same]
    · by_cases before : name < key
      · simp [here, before, lookup_entry]
      · by_cases same : sought = name
        · subst same
          simp [here, before, lookup_entry, ih]
        · simp [here, before, lookup_entry, ih, same]

theorem get?_insert (attributes : Attributes) (name value sought : List Char) :
    (attributes.insert name value).get? sought =
      if sought = name then some value else attributes.get? sought :=
  lookup_insertEntry name value sought attributes.entries

end Attributes

def isQuote (c : Char) : Bool := c == '"' || c == '\''

def dropQuote : List Char → List Char
  | [] => []
  | c :: rest => if isQuote c then rest else c :: rest

/-- A quote inside the value, other than one at either end, spoils the expression. -/
def unquote? (written : List Char) : Option (List Char) :=
  let value := (dropQuote (dropQuote written).reverse).reverse
  if value.any isQuote then none else some value

def expression? (expression : List Char) : Option (List Char × List Char) :=
  (Text.cut? '=' expression).bind fun (name, written) =>
    (unquote? written).map fun value => (Text.uppercase name, value)

def Attributes.parse (raw : List Char) : Attributes :=
  .ofPairs ((Text.pieces ' ' raw).filterMap expression?)

end Letterhead.Markup
