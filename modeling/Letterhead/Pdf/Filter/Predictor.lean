import Letterhead.Pdf.Object

/-!
Rows of samples written as differences. A byte in front of each row tells from which neighbours
its bytes are guessed: the byte at the same place of the pixel before, of the row above, or of the
pixel before in the row above. Outside the rows there are zeros.
-/

namespace Letterhead.Pdf.Predictor

/-- How the rows are divided into pixels, in bytes. -/
structure Layout where
  pixelSize : Nat
  columns : Nat
deriving Repr

def Layout.rowSize (layout : Layout) : Nat := layout.pixelSize * layout.columns

/-- Which neighbours a byte is guessed from. -/
inductive Guess where
  | zero
  | left
  | above
  /-- The left neighbour and half of the one above, modulo 256. -/
  | leftAndHalfAbove
  | nearest
deriving DecidableEq, Repr

def Guess.ofByte? (byte : UInt8) : Option Guess :=
  match byte.toNat with
  | 0 => some .zero
  | 1 => some .left
  | 2 => some .above
  | 3 => some .leftAndHalfAbove
  | 4 => some .nearest
  | _ => none

/-- Whichever neighbour is nearest to `left + above - corner`: of two that are equally near, the
left one before the one above before the corner. -/
def nearest (left above corner : UInt8) : UInt8 :=
  let target : Int := left.toNat + above.toNat - corner.toNat
  let distance (neighbour : UInt8) : Nat := (target - neighbour.toNat).natAbs
  if distance left ≤ distance above ∧ distance left ≤ distance corner then left
  else if distance above ≤ distance corner then above
  else corner

def Guess.value (left above corner : UInt8) : Guess → UInt8
  | zero => 0
  | Guess.left => left
  | Guess.above => above
  | leftAndHalfAbove => left + above / 2
  | Guess.nearest => Predictor.nearest left above corner

/-- The byte `distance` places before `index`. -/
def byteBefore (row : Array UInt8) (index distance : Nat) : UInt8 :=
  if distance ≤ index then row.getD (index - distance) 0 else 0

def row (guess : Guess) (pixelSize : Nat) (above : Array UInt8) (differences : Bytes) :
    Array UInt8 :=
  differences.foldl
    (fun done difference =>
      let index := done.size
      done.push (difference + guess.value (byteBefore done index pixelSize) (above.getD index 0)
        (byteBefore above index pixelSize)))
    #[]

/-- None if a row is incomplete or its guess unknown. Every row takes at least one byte, so
`limit` is the number of bytes. -/
def rowsFrom? (layout : Layout) : Nat → Array UInt8 → Bytes → Option Bytes
  | _, _, [] => some []
  | 0, _, _ => none
  | limit + 1, above, kind :: rest => do
    let guess ← Guess.ofByte? kind
    let differences := rest.take layout.rowSize
    if differences.length < layout.rowSize then none
    else
      let current := row guess layout.pixelSize above differences
      let others ← rowsFrom? layout limit current (rest.drop layout.rowSize)
      some (current.toList ++ others)

def decode? (layout : Layout) (data : Bytes) : Option Bytes :=
  rowsFrom? layout data.length #[] data

/-! ### Parameters -/

/-- Predictors from 10 on are of this kind. Samples of less than a byte take a whole one. -/
def layout? (parameters : Dictionary) : Option Layout :=
  let predictor := (parameters.integer? "Predictor").getD 1
  if 10 ≤ predictor ∧ predictor ≤ 15 then
    let colors := max 1 ((parameters.integer? "Colors").getD 1)
    let bits := max 8 ((parameters.integer? "BitsPerComponent").getD 8)
    some {
      pixelSize := (colors * bits / 8).toNat
      columns := (max 1 ((parameters.integer? "Columns").getD 1)).toNat }
  else none

/-- Data without a predictor stands as it is. -/
def undo? (parameters : Dictionary) (data : Bytes) : Option Bytes :=
  match layout? parameters with
  | some layout => decode? layout data
  | none => some data

end Letterhead.Pdf.Predictor
