/-!
The fewest decimal digits that identify a 32-bit float, by exact arithmetic on naturals.

A positive finite float is `mantissa * 2 ^ exponent`. The reals that round to it form an interval
whose ends lie halfway to its neighbours and belong to it when the mantissa is even. For one,
two, … nine digits the value has two neighbours on the grid of decimals with that many digits;
the first grid with a neighbour in the interval gives the digits. Of two such neighbours the
nearer is taken, and the upper one when both are equally near.
-/

namespace Letterhead.Decimal

/-- `narrow` tells that the gap below the value is half the gap above it. -/
structure Binary where
  mantissa : Nat
  exponent : Int
  narrow : Bool

/-- The magnitude of a finite float, from its bits. -/
def Binary.ofBits (bits : UInt32) : Binary :=
  let field := ((bits >>> 23) &&& 0xFF).toNat
  let fraction := (bits &&& 0x7FFFFF).toNat
  if field = 0 then ⟨fraction, -149, false⟩
  else ⟨0x800000 + fraction, field - 150, fraction = 0 && 1 < field⟩

/-- `digits * 10 ^ exponent` -/
structure Digits where
  digits : Nat
  exponent : Int
deriving DecidableEq, Repr

/-- Compares `a * 10 ^ i` with `n * 2 ^ j`. -/
def compareScaled (a : Nat) (i : Int) (n : Nat) (j : Int) : Ordering :=
  compare (a * Nat.pow 10 i.toNat * Nat.pow 2 (-j).toNat) (n * Nat.pow 2 j.toNat * Nat.pow 10 (-i).toNat)

/-- Whether the decimal lies among the reals that round to the value. -/
def Binary.readsBack (value : Binary) (decimal : Digits) : Bool :=
  let low := if value.narrow then 4 * value.mantissa - 1 else 4 * value.mantissa - 2
  let high := 4 * value.mantissa + 2
  let closed := value.mantissa % 2 == 0
  let fromLow := compareScaled decimal.digits decimal.exponent low (value.exponent - 2)
  let fromHigh := compareScaled decimal.digits decimal.exponent high (value.exponent - 2)
  (fromLow == .gt || (closed && fromLow == .eq)) && (fromHigh == .lt || (closed && fromHigh == .eq))

/-- The value divided by `10 ^ power`, rounded down. -/
def Binary.floorAt (value : Binary) (power : Int) : Nat :=
  (value.mantissa * Nat.pow 2 value.exponent.toNat * Nat.pow 10 (-power).toNat) /
    (Nat.pow 10 power.toNat * Nat.pow 2 (-value.exponent).toNat)

/-- The least power of ten above the value, which is at least `2 ^ (-149) > 10 ^ (-45)`. -/
def Binary.scale (value : Binary) : Int :=
  ((Nat.toDigits 10 (value.floorAt (-45))).length : Int) - 45

/-- The one of two neighbours that identifies the value, the nearer one if both do. -/
def Binary.pick (value : Binary) (below above : Digits) : Option Digits :=
  match value.readsBack below, value.readsBack above with
  | false, false => none
  | true, false => some below
  | false, true => some above
  | true, true =>
    if compareScaled (below.digits + above.digits) below.exponent value.mantissa (value.exponent + 1) == .gt
    then some below else some above

def Binary.onGrid (value : Binary) (power : Int) : Option Digits :=
  value.pick ⟨value.floorAt power, power⟩ ⟨value.floorAt power + 1, power⟩

/-- The neighbour with `count` digits that identifies the value, if there is one. -/
def Binary.candidate (value : Binary) (count : Nat) : Option Digits := value.onGrid (value.scale - count)

/-- Rounded down, and exact unless the exponent is positive. -/
def Binary.spare (value : Binary) : Digits := ⟨value.floorAt value.exponent, value.exponent⟩

/-- Nine digits always identify a 32-bit float, so nothing else is taken. -/
def Binary.shortest (value : Binary) : Digits :=
  ((List.range' 1 9).findSome? value.candidate).getD value.spare

end Letterhead.Decimal
