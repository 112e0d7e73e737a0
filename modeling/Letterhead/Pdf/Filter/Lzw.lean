import Letterhead.Pdf.Filter.Inflate

/-!
LZW data: codes of nine to twelve bits, the highest bit first, over a table that grows by one
sequence per code. Data is handed over at each clear code and at the end; an invalid code loses
what was decoded since the last clear code.
-/

namespace Letterhead.Pdf.Lzw

open Inflate (Bits)

def bitsOf (data : Bytes) : Bits := data.flatMap fun byte => (Inflate.bitsOfByte byte).reverse

def clearCode : Nat := 256

def endCode : Nat := 257

def firstEntry : Nat := 258

def lastWidth : Nat := 12

/-- `entries` holds the sequences from code 258 on. -/
structure Table where
  entries : Array Bytes := #[]
  width : Nat := 9
  previous : Option Bytes := none

def Table.sequence? (table : Table) (code : Nat) : Option Bytes :=
  if code < clearCode then some [code.toUInt8]
  else if code < firstEntry then none
  else table.entries[code - firstEntry]?

/-- With an early change codes grow longer one code before the table needs it. -/
def Table.learn (table : Table) (earlyChange : Bool) (sequence : Bytes) : Table :=
  if firstEntry + table.entries.size < 1 <<< lastWidth then
    let entries := table.entries.push sequence
    let reached := firstEntry + entries.size + earlyChange.toNat
    { table with
      entries
      width := if 1 <<< table.width ≤ reached ∧ table.width < lastWidth then table.width + 1
        else table.width }
  else table

/-- The sequence that a code stands for, and the table after it. -/
def Table.step? (table : Table) (earlyChange : Bool) (code : Nat) : Option (Bytes × Table) :=
  match table.previous with
  | none => (table.sequence? code).map fun sequence => (sequence, { table with previous := some sequence })
  | some previous =>
    let sequence := match table.sequence? code with
      | some sequence => some sequence
      | none =>
        if code = firstEntry + table.entries.size then some (previous ++ previous.take 1) else none
    sequence.map fun sequence =>
      (sequence, { table.learn earlyChange (previous ++ sequence.take 1) with previous := some sequence })

def codeValue (bits : Bits) : Nat := bits.foldl (fun value bit => 2 * value + bit.toNat) 0

/-- `decoded` is what has been decoded since the last clear code. Every code takes at least one
bit, so `limit` is the number of bits. -/
def decodeFrom (earlyChange : Bool) : Nat → Table → Array UInt8 → Bits → Bytes
  | 0, _, decoded, _ => decoded.toList
  | limit + 1, table, decoded, bits =>
    if bits.length < table.width then decoded.toList
    else
      let code := codeValue (bits.take table.width)
      let rest := bits.drop table.width
      if code = clearCode then decoded.toList ++ decodeFrom earlyChange limit {} #[] rest
      else if code = endCode then decoded.toList
      else match table.step? earlyChange code with
        | none => []
        | some (sequence, table) => decodeFrom earlyChange limit table (decoded ++ sequence) rest

def decode (earlyChange : Bool) (data : Bytes) : Bytes :=
  let bits := bitsOf data
  decodeFrom earlyChange (bits.length + 1) {} #[] bits

end Letterhead.Pdf.Lzw
