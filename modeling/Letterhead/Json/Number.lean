import Letterhead.Decimal.Read
import Letterhead.Json.Basic

/-!
JSON numbers as 32-bit floats. Whole numbers of 64 bits are rounded once. All others take a detour:
as many leading digits as fit 64 bits become a 64-bit float, which is multiplied or divided by a
power of ten and then narrowed. A number beyond the range of 64-bit floats is a fault; one beyond
that of 32-bit floats is infinite. Minus zero keeps its sign.
-/

namespace Letterhead.Json

open Decimal (isDigit digitValue digitsValue)

/-- A number as written. Without a fraction or an exponent it is whole. -/
structure Numeral where
  negative : Bool
  whole : List Char
  fraction : Option (List Char) := none
  exponent : Option Int := none

def digits (text : List Char) : Except Fault (List Char × List Char) :=
  if text.takeWhile isDigit = [] then .error (faultAt text)
  else .ok (text.takeWhile isDigit, text.dropWhile isDigit)

/-- No digit follows a leading zero. -/
def wholePart (text : List Char) : Except Fault (List Char × List Char) := do
  let (whole, rest) ← digits text
  match whole with
  | '0' :: _ :: _ => .error .malformed
  | _ => .ok (whole, rest)

def fractionPart : List Char → Except Fault (Option (List Char) × List Char)
  | '.' :: rest => do
    let (fraction, rest) ← digits rest
    .ok (some fraction, rest)
  | text => .ok (none, text)

def exponentPart : List Char → Except Fault (Option Int × List Char)
  | [] => .ok (none, [])
  | mark :: rest =>
    if mark = 'e' ∨ mark = 'E' then do
      let (negative, rest) := Decimal.sign rest
      let (written, rest) ← digits rest
      .ok (some (if negative then -(digitsValue written : Int) else digitsValue written), rest)
    else .ok (none, mark :: rest)

def minus : List Char → Bool × List Char
  | '-' :: rest => (true, rest)
  | text => (false, text)

def numeral (text : List Char) : Except Fault (Numeral × List Char) := do
  let (negative, rest) := minus text
  let (whole, rest) ← wholePart rest
  let (fraction, rest) ← fractionPart rest
  let (exponent, rest) ← exponentPart rest
  .ok ({ negative, whole, fraction, exponent }, rest)

/-- The first number that takes more than 64 bits. -/
def wordLimit : Nat := 0x10000000000000000

/-- Appends digits to the value while it fits 64 bits, and returns those that it has no room for. -/
def appendFitting (value : Nat) : List Char → Nat × List Char
  | [] => (value, [])
  | c :: rest =>
    let longer := 10 * value + digitValue c
    if longer < wordLimit then appendFitting longer rest else (value, c :: rest)

/-- The greatest power of ten that is a 64-bit float. -/
def greatestPower : Nat := 308

def power (exponent : Nat) : Float := Decimal.nearestDouble 1 exponent

/-- Beyond the greatest power the value is divided more than once. -/
def divide (value : Float) (exponent : Nat) : Float :=
  if exponent ≤ greatestPower then value / power exponent
  else if value == 0 then value
  else divide (value / power greatestPower) (exponent - greatestPower)
termination_by exponent
decreasing_by simp_all [greatestPower]; omega

/-- `significand * 10 ^ exponent`, or nothing if that is out of range. -/
def scaled? (significand : Nat) (exponent : Int) : Option Float :=
  let value := Decimal.nearestDouble significand 0
  if exponent < 0 then some (divide value exponent.natAbs)
  else if exponent ≤ greatestPower then
    some (value * power exponent.toNat) |>.filter fun product => !product.isInf
  else if value == 0 then some value
  else none

namespace Numeral

/-- A whole number that fits 64 bits, of which one is for the sign of a negative number. -/
def integer? (numeral : Numeral) : Option Nat :=
  let value := digitsValue numeral.whole
  if numeral.fraction = none ∧ numeral.exponent = none then
    if numeral.negative then
      if 0 < value ∧ value ≤ wordLimit / 2 then some value else none
    else if value < wordLimit then some value else none
  else none

/-- Whole digits without room count as zeros, fraction digits without room as nothing. -/
def double? (numeral : Numeral) : Option Float :=
  let fraction := numeral.fraction.getD []
  let (value, wholeLeft) := appendFitting 0 numeral.whole
  let (value, fractionLeft) := appendFitting value fraction
  let exponent : Int := wholeLeft.length - (fraction.length - fractionLeft.length)
  scaled? value (exponent + numeral.exponent.getD 0)

def value? (numeral : Numeral) : Option Float32 :=
  (match numeral.integer? with
   | some value => some (Decimal.nearest value 0)
   | none => numeral.double?.map Decimal.narrow).map (Decimal.signed numeral.negative)

end Numeral

def number (text : List Char) : Except Fault (Float32 × List Char) := do
  let (numeral, rest) ← numeral text
  match numeral.value? with
  | some value => .ok (value, rest)
  | none => .error .malformed

end Letterhead.Json
