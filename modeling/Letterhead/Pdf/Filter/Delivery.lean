import Letterhead.Pdf.Filter.Inflate

/-!
How much decoded data arrives. Data is decoded window by window and handed over on request, for as
many bytes as there is room for in a buffer that grows. A request that meets a fault hands nothing
over, so what was decoded for it is lost; what was handed over before stays.
-/

namespace Letterhead.Pdf.Delivery

open Inflate (windowSize)

inductive Ending where
  | complete
  /-- Complete but for the checksum. -/
  | unchecked
  | cutShort
  | malformed
deriving DecidableEq, Repr

inductive Portion where
  /-- A full window that is not the end; all data may be used up by then. -/
  | window (usedUp : Bool)
  | last (size : Nat) (ending : Ending)
deriving Repr

/-- The portions of `size` bytes; `usedUp` tells of each window that more bytes follow. Data that
is cut short where a window is full ends with an empty portion. -/
def portions (size : Nat) (usedUp : List Bool) (ending : Ending) : List Portion :=
  let rest := size - windowSize * usedUp.length
  usedUp.map .window ++
    if ending = .cutShort ∧ rest = windowSize then [.window true, .last 0 ending]
    else [.last rest ending]

/-- The portions that are still to be decoded, and how much of the last one waits to be handed
over. -/
structure Source where
  portions : List Portion
  waiting : Nat := 0
  usedUp : Bool := false

/-- After a fault, or when there is no more. -/
def Source.exhausted : Source := { portions := [] }

/-- Decodes until `request` bytes are there. A request made while there is data stops when that is
used up; one made later takes the end of the data for a fault unless the data is complete.
`given` is the number of bytes so far. -/
def fill (request : Nat) (late : Bool) : List Portion → Nat → Nat × Source
  | [], given => (given, .exhausted)
  | .window usedUp :: rest, given =>
    let handed := min windowSize (request - given)
    let given := given + handed
    if given = request ∨ (usedUp ∧ ¬ late) then
      (given, { portions := rest, waiting := windowSize - handed, usedUp })
    else fill request late rest given
  | .last size ending :: _, given =>
    if ending = .malformed ∨ (late ∧ ending ≠ .complete) then (0, .exhausted)
    else
      let handed := min size (request - given)
      (given + handed, { portions := [], waiting := size - handed, usedUp := true })

/-- The number of bytes handed over; none at the end. What waits goes first, by itself. -/
def Source.take (source : Source) (request : Nat) : Nat × Source :=
  if 0 < source.waiting then
    let handed := min request source.waiting
    (handed, { source with waiting := source.waiting - handed })
  else fill request source.usedUp source.portions 0

/-- A buffer that takes the bytes. `limit` bounds the next request. -/
structure Buffer where
  length : Nat := 0
  capacity : Nat
  limit : Nat := 0x2000

/-- Bytes that come through a small buffer of its own. -/
def probeSize : Nat := 32

namespace Buffer

/-- At least twice the capacity when it is used up. -/
def reserve (buffer : Buffer) (more : Nat) : Buffer :=
  if buffer.capacity < buffer.length + more then
    { buffer with capacity := max 8 (max (2 * buffer.capacity) (buffer.length + more)) }
  else buffer

def addProbe (buffer : Buffer) (count : Nat) : Buffer :=
  { buffer.reserve count with length := buffer.length + count }

/-- Requests grow as long as they are met in full. -/
def addRequested (buffer : Buffer) (count : Nat) : Buffer :=
  { buffer with
    length := buffer.length + count
    limit := if count = buffer.limit then 2 * buffer.limit else buffer.limit }

end Buffer

/-- A buffer that is full at its first capacity, `first`, is not enlarged before a probe shows
that there is more. Every round takes at least one byte, which bounds the number of rounds. -/
def collect (first : Nat) : Nat → Source → Buffer → Nat
  | 0, _, buffer => buffer.length
  | rounds + 1, source, buffer =>
    if buffer.length = buffer.capacity ∧ buffer.capacity = first then
      match source.take probeSize with
      | (0, _) => buffer.length
      | (count, source) => collect first rounds source (buffer.addProbe count)
    else
      let buffer := if buffer.length = buffer.capacity then buffer.reserve probeSize else buffer
      match source.take (min (buffer.capacity - buffer.length) buffer.limit) with
      | (0, _) => buffer.length
      | (count, source) => collect first rounds source (buffer.addRequested count)

def Portion.size : Portion → Nat
  | .window _ => windowSize
  | .last size _ => size

/-- How many bytes arrive if the data they are decoded from has `length` bytes. The buffer has
twice that capacity at first; a small one begins with a probe. -/
def size (length : Nat) (portions : List Portion) : Nat :=
  let first := 2 * length
  let rounds := portions.foldl (fun total portion => total + portion.size) 1
  if first < probeSize then
    match ({ portions } : Source).take probeSize with
    | (0, _) => 0
    | (count, source) => collect first rounds source (({ capacity := first } : Buffer).addProbe count)
  else collect first rounds { portions } { capacity := first }

end Letterhead.Pdf.Delivery
