/-!
Decimal numerals read as floats. `nearest` rounds `digits * 10 ^ exponent` once, to the nearest
32-bit float with ties to even. `narrow` rounds a 64-bit float to 32 bits.
The numeral grammar of `parse?` is an optional sign, then `inf`, `infinity` or `nan` in any case,
or digits with at most one point among or beside them and an optional exponent.
-/

namespace Letterhead.Decimal

def positiveInfinity : Float32 := Float32.ofBits 0x7F800000

def notANumber : Float32 := Float32.ofBits 0x7FC00000

def signed (negative : Bool) (value : Float32) : Float32 := if negative then -value else value

/-- Powers far outside the range of floats are settled without being computed. -/
def nearest (digits : Nat) (exponent : Int) : Float32 :=
  let leading := (Nat.toDigits 10 digits).length + exponent
  if digits = 0 ∨ leading < -60 then 0
  else if 60 < leading then positiveInfinity
  else Float32.ofScientific digits (exponent < 0) exponent.natAbs

def nearestDouble (digits : Nat) (exponent : Int) : Float :=
  let leading := (Nat.toDigits 10 digits).length + exponent
  if digits = 0 ∨ leading < -400 then 0
  else if 400 < leading then Float.ofBits 0x7FF0000000000000
  else Float.ofScientific digits (exponent < 0) exponent.natAbs

/-- A finite 64-bit float is a natural times a power of two, so of ten after scaling by five. -/
def narrow (value : Float) : Float32 :=
  let bits := value.toBits
  let negative := bits >>> 63 == 1
  let field := ((bits >>> 52) &&& 0x7FF).toNat
  let fraction := (bits &&& 0xFFFFFFFFFFFFF).toNat
  if field = 0x7FF then
    if fraction = 0 then signed negative positiveInfinity else notANumber
  else if field ≤ 1 then signed negative 0
  else
    let mantissa := 0x10000000000000 + fraction
    signed negative <|
      if 1075 ≤ field then nearest (mantissa * Nat.pow 2 (field - 1075)) 0
      else nearest (mantissa * Nat.pow 5 (1075 - field)) (-((1075 - field : Nat) : Int))

def isDigit (c : Char) : Bool := '0' ≤ c && c ≤ '9'

def digitValue (c : Char) : Nat := c.toNat - '0'.toNat

def digitsValue (digits : List Char) : Nat :=
  digits.foldl (fun value c => 10 * value + digitValue c) 0

def sign : List Char → Bool × List Char
  | '-' :: rest => (true, rest)
  | '+' :: rest => (false, rest)
  | rest => (false, rest)

/-- What follows the digits: nothing, or an exponent with at least one digit. -/
def exponent? : List Char → Option Int
  | [] => some 0
  | mark :: rest =>
    if mark = 'e' ∨ mark = 'E' then
      let (negative, digits) := sign rest
      if digits ≠ [] ∧ digits.all isDigit then
        some (if negative then -(digitsValue digits : Int) else digitsValue digits)
      else none
    else none

def unsigned? (numeral : List Char) : Option Float32 :=
  let whole := numeral.takeWhile isDigit
  let rest := numeral.dropWhile isDigit
  let (fraction, rest) := match rest with
    | '.' :: rest => (rest.takeWhile isDigit, rest.dropWhile isDigit)
    | rest => ([], rest)
  if whole = [] ∧ fraction = [] then none
  else (exponent? rest).map fun exponent =>
    nearest (digitsValue (whole ++ fraction)) (exponent - fraction.length)

def parse? (numeral : List Char) : Option Float32 :=
  let (negative, rest) := sign numeral
  let folded := String.ofList (rest.map Char.toLower)
  (if folded = "inf" ∨ folded = "infinity" then some positiveInfinity
   else if folded = "nan" then some notANumber
   else unsigned? rest).map (signed negative)

end Letterhead.Decimal
