import Letterhead.Decimal.Plain
import Letterhead.Json.Quoted

/-!
JSON values as far as settings need them, and how they are written: without blanks, numbers
without an exponent. A float that is no number has no JSON form and is written as null.
-/

namespace Letterhead.Json

inductive Value where
  | null
  | number (value : Float32)
  | string (text : List Char)
  | object (members : List (String × Value))

namespace Value

def ofFloat (value : Float32) : Value := if value.isFinite then .number value else .null

mutual

def write : Value → List Char
  | null => "null".toList
  | number value => Decimal.write value
  | string text => quotedText text
  | object [] => "\x7b\x7d".toList
  | object (first :: rest) => '\x7b' :: (writeMember first ++ (writeMembers rest ++ ['\x7d']))

def writeMember : String × Value → List Char
  | (name, value) => quotedText name.toList ++ ':' :: write value

def writeMembers : List (String × Value) → List Char
  | [] => []
  | member :: rest => ',' :: (writeMember member ++ writeMembers rest)

end

end Value

end Letterhead.Json
