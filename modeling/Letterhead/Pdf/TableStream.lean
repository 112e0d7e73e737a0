import Letterhead.Pdf.Found
import Letterhead.Pdf.Stream

/-!
The table of objects in a file, as a stream. Its rows have three fields of widths that the stream
states: a kind, and two numbers. Its dictionary takes the part of the trailer.
-/

namespace Letterhead.Pdf

/-- How many bytes each field of a row takes. -/
structure Widths where
  kind : Nat
  first : Nat
  second : Nat
deriving Repr

def integers? (object : Object) : Option (List Int) := do
  (← object.asArray?).mapM Object.asInteger?

/-- Further widths do not count. -/
def Widths.ofObject? (object : Object) : Option Widths := do
  match ← integers? object with
  | .ofNat kind :: .ofNat first :: .ofNat second :: _ => some ⟨kind, first, second⟩
  | _ => none

/-- A number of `width` bytes, the highest first, modulo 2³². -/
def rowField? (width : Nat) (data : Bytes) : Option (Nat × Bytes) :=
  let bytes := data.take width
  if bytes.length < width then none
  else
    some (bytes.foldl (fun value byte => (256 * value + byte.toNat) % numberLimit) 0,
      data.drop width)

/-- What a row says about its object: nothing if the object is free or the kind unknown, in which
case the row ends with its kind. Without a kind objects are in use. -/
def streamRow? (widths : Widths) (data : Bytes) : Option (Option (Option Place) × Bytes) := do
  let (kind, data) ← if widths.kind = 0 then some (1, data) else rowField? widths.kind data
  if 2 < kind then some (none, data)
  else
    let (first, data) ← rowField? widths.first data
    let (second, data) ← rowField? widths.second data
    let found := match kind with
      | 0 => none
      | 1 => some (some ⟨first, second % generationLimit⟩)
      | _ => some none
    some (found, data)

/-- Rows for consecutive object numbers. -/
def streamRows? (widths : Widths) : Nat → Int → Places → Bytes → Option (Places × Bytes)
  | 0, _, places, data => some (places, data)
  | count + 1, number, places, data => do
    let (found, data) ← streamRow? widths data
    let places := match found with
      | none => places
      | some place => places.insert (number % (numberLimit : Int)).toNat place
    streamRows? widths count (number + 1) places data

/-- Sections, each with its first object number and its number of rows. -/
def streamSections? (widths : Widths) : List Int → Places → Bytes → Option Places
  | start :: count :: sections, places, data => do
    let (places, data) ← streamRows? widths count.toNat start places data
    streamSections? widths sections places data
  | _, places, _ => some places

namespace Table

/-- Without an index there is one section, which begins with object number zero. -/
def ofStream? (entries : Dictionary) (data : Bytes) : Option Table := do
  let data ← if (entries.get? (ascii "Filter")).isSome then decoded? entries data else some data
  let size ← entries.integer? "Size"
  let sections := ((entries.get? (ascii "Index")).bind integers?).getD [0, size]
  let widths ← (entries.get? (ascii "W")).bind Widths.ofObject?
  return ⟨← streamSections? widths sections {} data, entries⟩

/-- The table at the front of a text, in either form. -/
def read? (text : Bytes) : Option Table :=
  ofText? text <|> do
    let (_, rest) ← indirectHeader? text
    match (← found? text {} rest).asObject with
    | .stream entries data => ofStream? entries data
    | _ => none

end Table

end Letterhead.Pdf
