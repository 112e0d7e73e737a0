import Std.Data.TreeMap.Lemmas
import Letterhead.Pdf.Scan

/-!
The table of objects in a file, as text: rows of fixed form under the number of their first
object, and a trailer behind them.
-/

namespace Letterhead.Pdf

structure Place where
  offset : Nat
  generation : Nat
deriving DecidableEq, Repr

/-- Where objects are, by their numbers. Those that are packed into another object have no place
of their own. -/
abbrev Places := Std.TreeMap Nat (Option Place)

def Places.fill (places older : Places) : Places :=
  older.foldl (fun places number place => places.insertIfNew number place) places

def rowEnd? (text : Bytes) : Option Bytes :=
  word? " \r" text <|> word? " \n" text <|> word? "\r\n" text

def row? (text : Bytes) : Option (Option Place × Bytes) := do
  let (offset, rest) ← natural? numberLimit text
  let (generation, rest) ← natural? numberLimit (← word? " " rest)
  let rest ← word? " " rest
  let place : Place := ⟨offset, generation⟩
  (word? "n" rest >>= rowEnd?).map (if generation < generationLimit then some place else none, ·) <|>
    (word? "f" rest >>= rowEnd?).map (none, ·)

/-- As many rows as there are, for consecutive object numbers. -/
def rows : Nat → Nat → Places → Bytes → Places × Bytes
  | 0, _, places, text => (places, text)
  | steps + 1, number, places, text =>
    match row? text with
    | none => (places, text)
    | some (none, rest) => rows steps (number + 1) places rest
    | some (some place, rest) =>
      rows steps (number + 1) (places.insert (number % numberLimit) (some place)) rest

/-- Sizes take 64 bits. -/
def sizeLimit : Nat := 0x10000000000000000

def tableSection? (places : Places) (text : Bytes) : Option (Places × Bytes) := do
  let (start, rest) ← natural? sizeLimit text
  let (_, rest) ← natural? numberLimit (← word? " " rest)
  let rest ← lineEnd? ((word? " " rest).getD rest)
  return rows rest.length start places rest

def tableSections : Nat → Places → Bytes → Places × Bytes
  | 0, places, text => (places, text)
  | steps + 1, places, text =>
    match tableSection? places text with
    | none => (places, text)
    | some (places, rest) => tableSections steps places rest

def table? (text : Bytes) : Option (Places × Bytes) := do
  let rest ← lineEnd? (← word? "xref" text)
  let (places, rest) ← tableSection? {} rest
  let (places, rest) := tableSections rest.length places rest
  return (places, afterSpace rest)

/-- A trailer states how many objects there are. -/
def trailer? (text : Bytes) : Option Dictionary := do
  let rest ← word? "trailer" text
  let (entries, _) ← dictionary? (afterSpace rest)
  let _ ← entries.integer? "Size"
  return entries

structure Table where
  places : Places
  trailer : Dictionary

def Table.ofText? (text : Bytes) : Option Table := do
  let (places, rest) ← table? text
  return ⟨places, ← trailer? rest⟩

end Letterhead.Pdf
