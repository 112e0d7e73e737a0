import Letterhead.Decimal.Plain
import Letterhead.Pdf.Object

/-!
PDF objects as text. Delimiters separate tokens by themselves, so inside arrays and dictionaries a
space stands only before a null, a boolean, a number or a reference. In a literal string the
backslash, the carriage return and every parenthesis without a partner are escaped.
-/

namespace Letterhead.Pdf

def digitBytes (n : Nat) : Bytes := (Nat.toDigits 10 n).map fun c => c.toNat.toUInt8

def integerBytes (value : Int) : Bytes :=
  if value < 0 then 0x2D :: digitBytes value.natAbs else digitBytes value.natAbs

def realBytes (value : Float32) : Bytes := (Decimal.write value).map fun c => c.toNat.toUInt8

def hexDigit (n : Nat) : UInt8 := if n < 10 then (48 + n).toUInt8 else (55 + n).toUInt8

def hexByte (byte : UInt8) : Bytes := [hexDigit (byte.toNat / 16), hexDigit (byte.toNat % 16)]

def isDelimiter (byte : UInt8) : Bool := (ascii "()<>[]\x7b\x7d/%").contains byte

/-- Bytes that a name holds as they are. -/
def isNameByte (byte : UInt8) : Bool :=
  0x21 ≤ byte && byte ≤ 0x7E && !isDelimiter byte && byte != 0x23

def nameByte (byte : UInt8) : Bytes := if isNameByte byte then [byte] else 0x23 :: hexByte byte

def nameBytes (name : Bytes) : Bytes := 0x2F :: name.flatMap nameByte

/-- Marks the closing parentheses without a partner; `depth` counts those open before. -/
def markClosing : Nat → Bytes → List (UInt8 × Bool)
  | _, [] => []
  | depth, byte :: rest =>
    if byte = 0x28 then (byte, false) :: markClosing (depth + 1) rest
    else if byte = 0x29 then (byte, depth == 0) :: markClosing (depth - 1) rest
    else (byte, false) :: markClosing depth rest

/-- The written form, read from the end; the number counts closing parentheses that still wait for
their partner, and an opening one that finds none has none. -/
def escapeMarked : List (UInt8 × Bool) → Nat × Bytes
  | [] => (0, [])
  | (byte, alone) :: rest =>
    let (waiting, written) := escapeMarked rest
    if byte = 0x28 then
      if waiting = 0 then (0, 0x5C :: byte :: written) else (waiting - 1, byte :: written)
    else if byte = 0x29 then
      if alone then (waiting, 0x5C :: byte :: written) else (waiting + 1, byte :: written)
    else if byte = 0x5C then (waiting, 0x5C :: byte :: written)
    else if byte = 0x0D then (waiting, 0x5C :: 0x72 :: written)
    else (waiting, byte :: written)

def literalBytes (bytes : Bytes) : Bytes :=
  0x28 :: ((escapeMarked (markClosing 0 bytes)).2 ++ [0x29])

def hexadecimalBytes (bytes : Bytes) : Bytes := 0x3C :: (bytes.flatMap hexByte ++ [0x3E])

def referenceBytes (id : ObjectId) : Bytes :=
  digitBytes id.number ++ 0x20 :: (digitBytes id.generation ++ ascii " R")

/-- Whether the text of the object runs into a token before it. -/
def Object.needsSpace : Object → Bool
  | .null | .boolean _ | .integer _ | .real _ | .reference _ => true
  | _ => false

def Object.separator (object : Object) : Bytes := if object.needsSpace then [0x20] else []

mutual

def Object.bytes : Object → Bytes
  | .null => ascii "null"
  | .boolean value => ascii (if value then "true" else "false")
  | .integer value => integerBytes value
  | .real value => realBytes value
  | .name name => nameBytes name
  | .literal text => literalBytes text
  | .hexadecimal text => hexadecimalBytes text
  | .array [] => ascii "[]"
  | .array (first :: rest) => 0x5B :: (first.bytes ++ (itemBytes rest ++ [0x5D]))
  | .dictionary entries => ascii "<<" ++ (entryBytes entries ++ ascii ">>")
  | .stream entries data =>
    ascii "<<" ++ (entryBytes entries ++ (ascii ">>stream\n" ++ (data ++ ascii "\nendstream")))
  | .reference id => referenceBytes id

def itemBytes : List Object → Bytes
  | [] => []
  | item :: rest => item.separator ++ (item.bytes ++ itemBytes rest)

def entryBytes : List (Bytes × Object) → Bytes
  | [] => []
  | (key, value) :: rest => nameBytes key ++ (value.separator ++ (value.bytes ++ entryBytes rest))

end

end Letterhead.Pdf
