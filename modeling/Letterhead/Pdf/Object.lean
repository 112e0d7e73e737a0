/-!
PDF objects. Names, strings and stream data are bytes. A dictionary keeps its keys in the order
in which they were first set.
-/

namespace Letterhead.Pdf

abbrev Bytes := List UInt8

/-- Text that holds ASCII characters only, as in names and keywords. -/
def ascii (text : String) : Bytes := text.toList.map fun c => c.toNat.toUInt8

/-- Four bytes of a number, the highest first. -/
def wordBytes (value : Nat) : Bytes :=
  [(value >>> 24).toUInt8, (value >>> 16).toUInt8, (value >>> 8).toUInt8, value.toUInt8]

structure ObjectId where
  number : Nat
  generation : Nat
deriving DecidableEq, Repr, Ord

inductive Object where
  | null
  | boolean (value : Bool)
  | integer (value : Int)
  | real (value : Float32)
  | name (bytes : Bytes)
  | literal (bytes : Bytes)
  | hexadecimal (bytes : Bytes)
  | array (items : List Object)
  | dictionary (entries : List (Bytes × Object))
  | stream (entries : List (Bytes × Object)) (data : Bytes)
  | reference (id : ObjectId)
deriving Inhabited

abbrev Dictionary := List (Bytes × Object)

namespace Dictionary

def get? (dictionary : Dictionary) (key : Bytes) : Option Object := dictionary.lookup key

/-- In place if the key is there, else last. -/
def set : Dictionary → Bytes → Object → Dictionary
  | [], key, value => [(key, value)]
  | entry :: rest, key, value =>
    if entry.1 = key then (key, value) :: rest else entry :: set rest key value

/-- The last entry takes the place of the one that goes. -/
def erase (dictionary : Dictionary) (key : Bytes) : Dictionary :=
  match dictionary.findIdx? (·.1 == key), dictionary.getLast? with
  | some index, some entry => (List.set dictionary index entry).dropLast
  | _, _ => dictionary

/-- Entries with keys written as text, for dictionaries of fixed shape. -/
def ofList (entries : List (String × Object)) : Dictionary :=
  entries.map fun entry => (ascii entry.1, entry.2)

end Dictionary

namespace Object

def ofName (text : String) : Object := .name (ascii text)

/-- A stream states the length of its data. -/
def ofStream (entries : Dictionary) (data : Bytes) : Object :=
  .stream (Dictionary.set entries (ascii "Length") (.integer data.length)) data

def asReference? : Object → Option ObjectId
  | .reference id => some id
  | _ => none

def asDictionary? : Object → Option Dictionary
  | .dictionary entries => some entries
  | _ => none

def asArray? : Object → Option (List Object)
  | .array items => some items
  | _ => none

def asName? : Object → Option Bytes
  | .name bytes => some bytes
  | _ => none

def asInteger? : Object → Option Int
  | .integer value => some value
  | _ => none

end Object

namespace Dictionary

def integer? (dictionary : Dictionary) (key : String) : Option Int :=
  (dictionary.get? (ascii key)).bind Object.asInteger?

def name? (dictionary : Dictionary) (key : String) : Option Bytes :=
  (dictionary.get? (ascii key)).bind Object.asName?

def reference? (dictionary : Dictionary) (key : String) : Option ObjectId :=
  (dictionary.get? (ascii key)).bind Object.asReference?

end Dictionary

end Letterhead.Pdf
