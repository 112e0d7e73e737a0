import Letterhead.Pdf.Table

/-!
Objects in their places in a file. The length of a stream may be an object of its own, which is
looked up by its place.
-/

namespace Letterhead.Pdf

/-- What stands at a place: an object, or a stream whose length cannot be told yet, with the
offset of its data. -/
inductive Found where
  | object (object : Object)
  | unmeasured (entries : Dictionary) (start : Nat)

def indirectHeader? (text : Bytes) : Option (ObjectId × Bytes) := do
  let (id, rest) ← objectId? (afterSpace text)
  return (id, afterSpace (← word? "obj" rest))

def integerAt? (file : Bytes) (places : Places) (id : ObjectId) : Option Int := do
  let place ← places[id.number]?.join
  if place.generation ≠ id.generation ∨ file.length < place.offset then none
  else
    let (found, rest) ← indirectHeader? (file.drop place.offset)
    if found ≠ id then none
    else (← object? rest).1.asInteger?

def streamLength? (file : Bytes) (places : Places) (entries : Dictionary) : Option Int :=
  match entries.get? (ascii "Length") with
  | some (.reference id) => integerAt? file places id
  | some object => object.asInteger?
  | none => none

/-- The data of the given length, if the end of the stream follows it. -/
def streamBody? (length : Nat) (text : Bytes) : Option Bytes :=
  let rest := text.drop length
  if text.length < length then none
  else (word? "endstream" ((lineEnd? rest).getD rest)).map fun _ => text.take length

/-- The text after the line of the keyword that begins a stream. -/
def streamStart? (text : Bytes) : Option Bytes := do
  lineEnd? ((← word? "stream" text).dropWhile fun byte => byte == 0x20 || byte == 0x09)

/-- An object and, behind a dictionary, the stream that it may begin. A stream with a wrong length
counts as its dictionary alone, one with a negative length as nothing. -/
def found? (file : Bytes) (places : Places) (text : Bytes) : Option Found := do
  let (object, rest) ← object? text
  match object with
  | .dictionary entries =>
    match streamStart? (afterSpace rest) with
    | none => return .object object
    | some body =>
      match streamLength? file places entries with
      | none => return .unmeasured entries (file.length - body.length)
      | some (.ofNat length) =>
        return .object (((streamBody? length body).map (Object.ofStream entries)).getD object)
      | some (.negSucc _) => none
  | object => return .object object

def foundAt? (file : Bytes) (places : Places) (place : Place) : Option (ObjectId × Found) := do
  if file.length < place.offset then none
  else
    let (id, rest) ← indirectHeader? (file.drop place.offset)
    return (id, ← found? file places rest)

/-- Streams whose length could not be told are empty at first. -/
def Found.asObject : Found → Object
  | .object whole => whole
  | .unmeasured entries _ => .stream entries []

end Letterhead.Pdf
