import Letterhead.Pdf.Found
import Letterhead.Pdf.Stream
import Letterhead.Text.Encoding
import Letterhead.Text.Split

/-!
Objects packed into a stream. The data of the stream begins with pairs of numbers: that of an
object, and where it begins among the objects behind the pairs.
-/

namespace Letterhead.Pdf

def blankSeparated (text : List Char) : List (List Char) :=
  let marked := text.map fun c => if Text.isBlank c then ' ' else c
  (Text.pieces ' ' marked).filter fun piece => !piece.isEmpty

/-- Digits, with or without a plus sign. -/
def fieldNumber? (field : List Char) : Option Nat :=
  let digits := match field with
    | '+' :: digits => digits
    | digits => digits
  if digits ≠ [] ∧ digits.all Char.isDigit ∧ Decimal.digitsValue digits < numberLimit then
    some (Decimal.digitsValue digits)
  else none

/-- Two by two; one that is left over does not count, nor does a pair with something else than a
number. -/
def numberPairs : List (Option Nat) → List (Nat × Nat)
  | some number :: some offset :: rest => (number, offset) :: numberPairs rest
  | _ :: _ :: rest => numberPairs rest
  | _ => []

def packedAt? (data : Bytes) (offset : Nat) : Option Object :=
  if offset < data.length then (object? (data.drop offset)).map (·.1) else none

/-- The objects in the data of a stream. Those that cannot be read are left out. -/
def packedObjects? (entries : Dictionary) (data : Bytes) : Option (List (ObjectId × Object)) :=
  if data.isEmpty then some []
  else do
    let first ← entries.integer? "First"
    let _ ← entries.integer? "N"
    if first < 0 ∨ data.length < first then none
    else
      let start := first.toNat
      let text ← Text.ofUtf8? (data.take start)
      some ((numberPairs ((blankSeparated text).map fieldNumber?)).filterMap fun (number, offset) =>
        (packedAt? data (start + offset)).map ((⟨number, 0⟩, ·)))

def unfiltered (entries : Dictionary) (data : Bytes) : Dictionary × Bytes :=
  match decoded? entries data with
  | none => (entries, data)
  | some plain => ((entries.erase (ascii "DecodeParms")).erase (ascii "Filter"), plain)

def packsObjects (entries : Dictionary) : Bool :=
  entries.name? "Type" == some (ascii "ObjStm")

/-- What is found at a place, and the objects packed into it. A stream of packed objects counts
with its data decoded, and not at all if the objects in it cannot be told apart. -/
def Found.unpack? (found : Found) : Option (Found × List (ObjectId × Object)) :=
  match found.asObject with
  | .stream entries data =>
    if packsObjects entries then
      let (entries, data) := unfiltered entries data
      (packedObjects? entries data).map fun objects => (.object (.ofStream entries data), objects)
    else some (found, [])
  | _ => some (found, [])

end Letterhead.Pdf
