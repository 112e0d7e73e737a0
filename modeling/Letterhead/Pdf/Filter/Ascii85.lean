import Letterhead.Pdf.Object

/-!
Base-85 data: five characters from `!` to `u` make four bytes, `z` stands for four zero bytes
between groups, blanks are passed over and any other byte ends the data. A last group of fewer
characters makes one byte less than it has characters. A group whose value takes more than four
bytes makes the data malformed, and so does a `z` inside a group.
-/

namespace Letterhead.Pdf.Ascii85

/-- Space, tabulator, line feed, form feed and carriage return. -/
def isBlankByte (byte : UInt8) : Bool :=
  byte == 0x20 || byte == 0x09 || byte == 0x0A || byte == 0x0C || byte == 0x0D

/-- The value of up to five characters, filled up with the highest one. -/
def groupValue (digits : List Nat) : Nat :=
  (digits ++ List.replicate (5 - digits.length) 84).foldl (fun value digit => 85 * value + digit) 0

/-- Four bytes, or none if the value does not fit. -/
def groupBytes? (digits : List Nat) : Option Bytes :=
  let value := groupValue digits
  if value < 0x100000000 then some (wordBytes value) else none

/-- The bytes of an incomplete last group. A single character makes none, but has to fit. -/
def lastBytes? (digits : List Nat) : Option Bytes :=
  match digits.length with
  | 0 => some []
  | count + 1 => (groupBytes? digits).map (List.take count)

/-- `group` holds the digits of the group that is being read. -/
def decodeFrom (group : List Nat) : Bytes → Option Bytes
  | [] => lastBytes? group
  | byte :: rest =>
    if isBlankByte byte then decodeFrom group rest
    else if byte = 0x7A then
      if group.isEmpty then (decodeFrom [] rest).map ([0, 0, 0, 0] ++ ·) else none
    else if 0x21 ≤ byte ∧ byte ≤ 0x75 then
      let group := group ++ [byte.toNat - 0x21]
      if group.length = 5 then do
        let bytes ← groupBytes? group
        let others ← decodeFrom [] rest
        some (bytes ++ others)
      else decodeFrom group rest
    else lastBytes? group

def decode? (data : Bytes) : Option Bytes := decodeFrom [] data

end Letterhead.Pdf.Ascii85
