import Letterhead.Pdf.Filter.Delivery

/-!
Deflated data in its wrapping: two bytes of header in front and a checksum behind. Data that ends
too early gives what was decoded by then; of malformed data, and of data that fails its checksum,
so much is left as had been handed over before the fault was found.
-/

namespace Letterhead.Pdf.Zlib

open Inflate (Bits Output Fault)

/-- The method is number 8 with a window of at most 32 KiB, the header is a multiple of 31, and no
dictionary is needed. -/
def isHeader (method flags : UInt8) : Bool :=
  (method.toNat * 256 + flags.toNat) % 31 == 0 && method.toNat % 16 == 8 &&
    method.toNat / 16 ≤ 7 && !flags.toNat.testBit 5

/-- The checksum behind the data: two sums modulo 65521. -/
def checksum (data : Array UInt8) : Nat :=
  let sums := data.foldl (fun (a, b) byte =>
    let a := (a + byte.toNat) % 65521
    (a, (b + a) % 65521)) (1, 0)
  sums.2 * 0x10000 + sums.1

/-- Four bytes, the highest first, that begin at the next whole byte. -/
def storedChecksum? (bits : Bits) : Option Nat := do
  let bits := bits.drop (bits.length % 8)
  let (bytes, _) ← (Inflate.numbers 8 4 bits).toOption
  some (bytes.foldl (fun value byte => 256 * value + byte) 0)

/-- Everything that can be decoded, and how the data ends. -/
def output (data : Bytes) : Output × Delivery.Ending :=
  match data with
  | method :: flags :: data =>
    if isHeader method flags then
      let bits := Inflate.bitsOf data
      match Inflate.blocks (bits.length + 1) ⟨{}, bits⟩ with
      | .error (.truncated, output) => (output, .cutShort)
      | .error (.malformed, output) => (output, .malformed)
      | .ok ⟨output, bits⟩ =>
        match storedChecksum? bits with
        | none => (output, .unchecked)
        | some stored => (output, if stored = checksum output.bytes then .complete else .malformed)
    else ({}, .malformed)
  | _ => ({}, .cutShort)

def decode (data : Bytes) : Bytes :=
  let (output, ending) := output data
  output.bytes.toList.take
    (Delivery.size data.length (Delivery.portions output.bytes.size output.usedUp.reverse ending))

end Letterhead.Pdf.Zlib
