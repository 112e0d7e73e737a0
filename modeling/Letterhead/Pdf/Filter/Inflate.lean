import Letterhead.Pdf.Object

/-!
Deflated data: blocks of stored bytes or of symbols under prefix codes. A fault leaves what was
decoded before it.
-/

namespace Letterhead.Pdf.Inflate

inductive Fault where
  | truncated
  | malformed

abbrev Bits := List Bool

def bitsOfByte (byte : UInt8) : Bits :=
  (List.range 8).map fun index => byte.toNat.testBit index

def bitsOf (data : Bytes) : Bits := data.flatMap bitsOfByte

/-- A number of `count` bits, the lowest first. -/
def number : Nat → Bits → Except Fault (Nat × Bits)
  | 0, bits => .ok (0, bits)
  | _ + 1, [] => .error .truncated
  | count + 1, bit :: bits => do
    let (value, rest) ← number count bits
    .ok (2 * value + bit.toNat, rest)

/-- A canonical prefix code: how many codes there are of length 1, 2, …, 15, and the symbols in
the order of their codes. -/
structure PrefixCode where
  counts : List Nat
  symbols : Array Nat

def PrefixCode.ofLengths (lengths : List Nat) : PrefixCode where
  counts := (List.range' 1 15).map fun length => lengths.count length
  symbols := ((List.range' 1 15).flatMap fun length =>
    (lengths.zipIdx.filter (·.1 == length)).map (·.2)).toArray

/-- How many more codes of the greatest length there would be room for, or none if there are more
codes than fit. -/
def PrefixCode.room? (code : PrefixCode) : Option Nat :=
  code.counts.foldlM (fun left count => if count ≤ 2 * left then some (2 * left - count) else none) 1

/-- Every sequence of bits begins with a code. -/
def PrefixCode.isComplete (code : PrefixCode) : Bool := code.room? == some 0

/-- Complete, or with no more than one symbol. -/
def PrefixCode.isUsable (code : PrefixCode) : Bool :=
  code.isComplete || (code.room?.isSome && code.symbols.size ≤ 1)

/-- `first` is the first code of the current length and `index` the place of its symbol. Longer
codes begin with what follows the codes of this length, and with no more than there are symbols
left. -/
def decodeSymbol (symbols : Array Nat) :
    List Nat → Nat → Nat → Nat → Bits → Except Fault (Nat × Bits)
  | [], _, _, _, _ => .error .malformed
  | _ :: _, _, _, _, [] => .error .truncated
  | count :: counts, value, first, index, bit :: bits =>
    let value := 2 * value + bit.toNat
    if value < first + count then
      match symbols[index + (value - first)]? with
      | some symbol => .ok (symbol, bits)
      | none => .error .malformed
    else if value - (first + count) < symbols.size - (index + count) then
      decodeSymbol symbols counts value (2 * (first + count)) (index + count) bits
    else .error .malformed

def PrefixCode.decode (code : PrefixCode) (bits : Bits) : Except Fault (Nat × Bits) :=
  decodeSymbol code.symbols code.counts 0 0 0 bits

/-- Base and extra bits of the length symbols from 257 on. -/
def lengthTable : Array (Nat × Nat) :=
  #[(3, 0), (4, 0), (5, 0), (6, 0), (7, 0), (8, 0), (9, 0), (10, 0), (11, 1), (13, 1), (15, 1),
    (17, 1), (19, 2), (23, 2), (27, 2), (31, 2), (35, 3), (43, 3), (51, 3), (59, 3), (67, 4),
    (83, 4), (99, 4), (115, 4), (131, 5), (163, 5), (195, 5), (227, 5), (258, 0)]

/-- Base and extra bits of the distance symbols. -/
def distanceTable : Array (Nat × Nat) :=
  #[(1, 0), (2, 0), (3, 0), (4, 0), (5, 1), (7, 1), (9, 2), (13, 2), (17, 3), (25, 3), (33, 4),
    (49, 4), (65, 5), (97, 5), (129, 6), (193, 6), (257, 7), (385, 7), (513, 8), (769, 8),
    (1025, 9), (1537, 9), (2049, 10), (3073, 10), (4097, 11), (6145, 11), (8193, 12), (12289, 12),
    (16385, 13), (24577, 13)]

/-- How far back a distance may reach, and how much is decoded at a time. -/
def windowSize : Nat := 0x8000

structure Output where
  bytes : Array UInt8 := #[]
  /-- For each full window that more bytes follow, the latest first: whether the data was used up
  when the first of those was decoded. -/
  usedUp : List Bool := []

/-- Notes a window that has been filled and passed; `bits` is the data that is left. -/
def Output.pass (output : Output) (bits : Bits) : Output :=
  if windowSize * (output.usedUp.length + 1) < output.bytes.size then
    { output with usedUp := decide (bits.length < 8) :: output.usedUp }
  else output

/-- What has been decoded, and the bits that follow it. -/
structure Progress where
  output : Output
  bits : Bits

/-- A fault leaves the output that came before it. -/
abbrev Outcome := Except (Fault × Output) Progress

def keeping {α : Type} (output : Output) (result : Except Fault α) : Except (Fault × Output) α :=
  result.mapError fun fault => (fault, output)

def tableEntry (table : Array (Nat × Nat)) (symbol : Nat) (bits : Bits) :
    Except Fault (Nat × Bits) :=
  match table[symbol]? with
  | none => .error .malformed
  | some (base, extra) => do
    let (more, bits) ← number extra bits
    .ok (base + more, bits)

/-- The byte at a distance from the end; before the first byte there are zeros. -/
def byteBack (distance : Nat) (bytes : Array UInt8) : UInt8 :=
  if distance ≤ bytes.size then bytes.getD (bytes.size - distance) 0 else 0

/-- Repeats `length` bytes from `distance` back; what is appended may be repeated in turn. -/
def copyBack (distance : Nat) : Nat → Array UInt8 → Array UInt8
  | 0, bytes => bytes
  | length + 1, bytes => copyBack distance length (bytes.push (byteBack distance bytes))

/-- Every symbol takes at least one bit, so `limit` is the number of bits. -/
def compressedBlock (literals distances : PrefixCode) : Nat → Progress → Outcome
  | 0, progress => .error (.truncated, progress.output)
  | limit + 1, ⟨output, bits⟩ => do
    let (symbol, bits) ← keeping output (literals.decode bits)
    if symbol < 256 then
      let bytes := output.bytes.push symbol.toUInt8
      compressedBlock literals distances limit ⟨{ output with bytes }.pass bits, bits⟩
    else if symbol = 256 then .ok ⟨output, bits⟩
    else
      let (length, bits) ← keeping output (tableEntry lengthTable (symbol - 257) bits)
      let (symbol, bits) ← keeping output (distances.decode bits)
      let (distance, bits) ← keeping output (tableEntry distanceTable symbol bits)
      let bytes := copyBack distance length output.bytes
      compressedBlock literals distances limit ⟨{ output with bytes }.pass bits, bits⟩

def storedBytes : Nat → Progress → Outcome
  | 0, progress => .ok progress
  | count + 1, ⟨output, bits⟩ => do
    let (byte, rest) ← keeping output (number 8 bits)
    let bytes := output.bytes.push byte.toUInt8
    storedBytes count ⟨{ output with bytes }.pass bits, rest⟩

/-- A stored block begins at the next whole byte. -/
def storedBlock (progress : Progress) : Outcome := do
  let bits := progress.bits.drop (progress.bits.length % 8)
  let (length, bits) ← keeping progress.output (number 16 bits)
  let (complement, bits) ← keeping progress.output (number 16 bits)
  if length + complement = 0xFFFF then storedBytes length { progress with bits }
  else .error (.malformed, progress.output)

def fixedLiterals : PrefixCode :=
  .ofLengths (List.replicate 144 8 ++ List.replicate 112 9 ++ List.replicate 24 7 ++
    List.replicate 8 8)

def fixedDistances : PrefixCode := .ofLengths (List.replicate 32 5)

/-- The order in which the lengths of the code-length code are written. -/
def lengthOrder : List Nat := [16, 17, 18, 0, 8, 7, 9, 6, 10, 5, 11, 4, 12, 3, 13, 2, 14, 1, 15]

def numbers (width : Nat) : Nat → Bits → Except Fault (List Nat × Bits)
  | 0, bits => .ok ([], bits)
  | count + 1, bits => do
    let (value, bits) ← number width bits
    let (rest, bits) ← numbers width count bits
    .ok (value :: rest, bits)

/-- Code lengths, the latest first, until there are `total`. -/
def codeLengths (code : PrefixCode) (total : Nat) :
    Nat → List Nat → Bits → Except Fault (List Nat × Bits)
  | 0, _, _ => .error .malformed
  | limit + 1, lengths, bits =>
    if lengths.length = total then .ok (lengths.reverse, bits)
    else if total < lengths.length then .error .malformed
    else do
      let (symbol, bits) ← code.decode bits
      if symbol < 16 then codeLengths code total limit (symbol :: lengths) bits
      else if symbol = 16 then
        match lengths with
        | [] => .error .malformed
        | previous :: _ => do
          let (more, bits) ← number 2 bits
          codeLengths code total limit (List.replicate (3 + more) previous ++ lengths) bits
      else
        let (base, width) := if symbol = 17 then (3, 3) else (11, 7)
        let (more, bits) ← number width bits
        codeLengths code total limit (List.replicate (base + more) 0 ++ lengths) bits

/-- The codes that a block brings along, for at most 286 literals and lengths and 30 distances. -/
def dynamicCodes (bits : Bits) : Except Fault (PrefixCode × PrefixCode × Bits) := do
  let (literalCount, bits) ← number 5 bits
  let (distanceCount, bits) ← number 5 bits
  let (orderCount, bits) ← number 4 bits
  if 29 < literalCount ∨ 29 < distanceCount then .error .malformed
  let (written, bits) ← numbers 3 (orderCount + 4) bits
  let lengths := (List.range 19).map fun symbol => ((lengthOrder.zip written).lookup symbol).getD 0
  let code := PrefixCode.ofLengths lengths
  if code.isComplete then
    let total := literalCount + 257 + (distanceCount + 1)
    let (lengths, bits) ← codeLengths code total (total + 1) [] bits
    let literals := PrefixCode.ofLengths (lengths.take (literalCount + 257))
    let distances := PrefixCode.ofLengths (lengths.drop (literalCount + 257))
    if literals.isUsable && distances.isUsable then .ok (literals, distances, bits)
    else .error .malformed
  else .error .malformed

def block (kind : Nat) (progress : Progress) : Outcome :=
  match kind with
  | 0 => storedBlock progress
  | 1 => compressedBlock fixedLiterals fixedDistances (progress.bits.length + 1) progress
  | 2 => do
    let (literals, distances, bits) ← keeping progress.output (dynamicCodes progress.bits)
    compressedBlock literals distances (bits.length + 1) { progress with bits }
  | _ => .error (.malformed, progress.output)

/-- Every block takes at least three bits. -/
def blocks : Nat → Progress → Outcome
  | 0, progress => .error (.truncated, progress.output)
  | limit + 1, progress => do
    let (final, bits) ← keeping progress.output (number 1 progress.bits)
    let (kind, bits) ← keeping progress.output (number 2 bits)
    let progress ← block kind { progress with bits }
    if final = 1 then .ok progress else blocks limit progress

end Letterhead.Pdf.Inflate
