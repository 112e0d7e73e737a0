import Letterhead.Decimal.Shortest

/-!
Floats as text: the fewest digits that identify them, written positionally however large or small
they are, without a point when they are whole. Zero keeps its sign.
-/

namespace Letterhead.Decimal

/-- Digits without trailing zeros, which move into the exponent. -/
def stripZeros : List Char → Int → List Char × Int
  | '0' :: rest, exponent => stripZeros rest (exponent + 1)
  | reversed, exponent => (reversed.reverse, exponent)

def layout (digits : List Char) (exponent : Int) : List Char :=
  if 0 ≤ exponent then digits ++ List.replicate exponent.toNat '0'
  else
    let places := (-exponent).toNat
    if places < digits.length then
      digits.take (digits.length - places) ++ '.' :: digits.drop (digits.length - places)
    else '0' :: '.' :: (List.replicate (places - digits.length) '0' ++ digits)

def Digits.plain (decimal : Digits) : List Char :=
  let stripped := stripZeros (Nat.toDigits 10 decimal.digits).reverse decimal.exponent
  layout stripped.1 stripped.2

def isNegative (value : Float32) : Bool := value.toBits >>> 31 == 1

def magnitude (value : Float32) : List Char :=
  let bits := value.toBits &&& 0x7FFFFFFF
  if bits == 0 then ['0']
  else if bits == 0x7F800000 then ['i', 'n', 'f']
  else (Binary.ofBits bits).shortest.plain

def write (value : Float32) : List Char :=
  if value.isNaN then ['N', 'a', 'N']
  else if isNegative value then '-' :: magnitude value
  else magnitude value

def text (value : Float32) : String := String.ofList (write value)

end Letterhead.Decimal
