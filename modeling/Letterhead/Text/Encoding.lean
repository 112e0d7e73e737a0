/-!
Text and bytes. Files hold UTF-8. The standard PDF fonts have a single-byte encoding: bytes 00 to 7F
and A0 to FF stand for the code points of the same number, and the 32 bytes between them have a
table with five holes.
-/

namespace Letterhead.Text

/-- Nothing unless all of the bytes are well-formed UTF-8. -/
def ofUtf8? (bytes : List UInt8) : Option (List Char) :=
  (String.fromUTF8? ⟨bytes.toArray⟩).map String.toList

namespace WinAnsi

/-- Code points of bytes 80 to 9F. Zero marks an unused byte. -/
def highCodes : List Nat :=
  [0x20AC, 0, 0x201A, 0x0192, 0x201E, 0x2026, 0x2020, 0x2021,
   0x02C6, 0x2030, 0x0160, 0x2039, 0x0152, 0, 0x017D, 0,
   0, 0x2018, 0x2019, 0x201C, 0x201D, 0x2022, 0x2013, 0x2014,
   0x02DC, 0x2122, 0x0161, 0x203A, 0x0153, 0, 0x017E, 0x0178]

def byte? (c : Char) : Option UInt8 :=
  let code := c.toNat
  if code ≤ 0x7F ∨ (0xA0 ≤ code ∧ code ≤ 0xFF) then some code.toUInt8
  else (highCodes.idxOf? code).map fun index => (0x80 + index).toUInt8

/-- Stands in for every character that has no byte. -/
def substitute : UInt8 := 0x3F

def encodeChar (c : Char) : UInt8 := (byte? c).getD substitute

def encode (text : List Char) : List UInt8 := text.map encodeChar

/-- Whether `encode` has to use its substitute. -/
def replaces (text : List Char) : Bool := text.any fun c => (byte? c).isNone

@[simp] theorem length_encode (text : List Char) : (encode text).length = text.length := by
  simp [encode]

@[simp] theorem encode_append (left right : List Char) :
    encode (left ++ right) = encode left ++ encode right := by
  simp [encode]

end WinAnsi

end Letterhead.Text
