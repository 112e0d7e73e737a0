import Letterhead.Decimal.Read
import Letterhead.Pdf.Object

/-!
PDF objects read from their text. Each reader takes what it reads off the front and returns the
rest, or nothing if the text begins otherwise. What is not part of a token, blanks and comments,
may stand between tokens.
-/

namespace Letterhead.Pdf

/-! ### Blanks, words and numbers -/

def isSpacing (byte : UInt8) : Bool := [0x20, 0x09, 0x0A, 0x0D, 0x00, 0x0C].contains byte

def isLineEnd (byte : UInt8) : Bool := byte == 0x0A || byte == 0x0D

def lineEnd? : Bytes → Option Bytes
  | 0x0D :: 0x0A :: rest => some rest
  | 0x0D :: rest | 0x0A :: rest => some rest
  | _ => none

theorem lineEnd?_shorter {text rest : Bytes} (found : lineEnd? text = some rest) :
    rest.length < text.length := by
  simp only [lineEnd?] at found
  split at found
  · simp only [Option.some.injEq] at found
    simp only [← found, List.length_cons]
    omega
  · simp only [Option.some.injEq] at found
    simp [found]
  · simp only [Option.some.injEq] at found
    simp [found]
  · simp at found

/-- The text after the line of a comment, for text that follows the percent sign. -/
def comment? (text : Bytes) : Option Bytes := lineEnd? (text.dropWhile fun byte => !isLineEnd byte)

theorem comment?_shorter {text rest : Bytes} (found : comment? text = some rest) :
    rest.length < text.length :=
  Nat.lt_of_lt_of_le (lineEnd?_shorter found) (List.dropWhile_sublist _).length_le

/-- The text after blanks and comments. A percent sign on the last line, without a line end, begins
no comment. -/
def afterSpace : Bytes → Bytes
  | [] => []
  | byte :: rest =>
    if isSpacing byte then afterSpace rest
    else if byte = 0x25 then
      match _ : comment? rest with
      | some later => afterSpace later
      | none => byte :: rest
    else byte :: rest
termination_by text => text.length
decreasing_by
  · simp
  · have := comment?_shorter ‹_›
    simp only [List.length_cons]
    omega

def word? (word : String) (text : Bytes) : Option Bytes :=
  if (ascii word).isPrefixOf text then some (text.drop (ascii word).length) else none

def isDigitByte (byte : UInt8) : Bool := 0x30 ≤ byte && byte ≤ 0x39

def asciiChars (bytes : Bytes) : List Char := bytes.map fun byte => Char.ofNat byte.toNat

def digitRun (text : Bytes) : List Char × Bytes :=
  (asciiChars (text.takeWhile isDigitByte), text.dropWhile isDigitByte)

def natural? (limit : Nat) (text : Bytes) : Option (Nat × Bytes) :=
  let (digits, rest) := digitRun text
  if digits ≠ [] ∧ Decimal.digitsValue digits < limit then some (Decimal.digitsValue digits, rest)
  else none

def signChars : Bytes → List Char × Bytes
  | 0x2D :: rest => (['-'], rest)
  | 0x2B :: rest => (['+'], rest)
  | text => ([], text)

/-- Integers take 64 bits, one of them for the sign. -/
def integerLimit : Int := 0x8000000000000000

def integer? (text : Bytes) : Option (Int × Bytes) :=
  let (sign, rest) := signChars text
  let (digits, rest) := digitRun rest
  let value : Int := if sign = ['-'] then -Decimal.digitsValue digits else Decimal.digitsValue digits
  if digits ≠ [] ∧ -integerLimit ≤ value ∧ value < integerLimit then some (value, rest) else none

/-- Digits on at least one side of a point. -/
def real? (text : Bytes) : Option (Float32 × Bytes) :=
  let (sign, rest) := signChars text
  let (whole, rest) := digitRun rest
  match rest with
  | 0x2E :: rest =>
    let (fraction, rest) := digitRun rest
    (Decimal.parse? (sign ++ whole ++ '.' :: fraction)).map fun value => (value, rest)
  | _ => none

/-- Object numbers and offsets take 32 bits. -/
def numberLimit : Nat := 0x100000000

/-- Generations take 16 bits. -/
def generationLimit : Nat := 0x10000

def objectId? (text : Bytes) : Option (ObjectId × Bytes) := do
  let (number, rest) ← natural? numberLimit text
  let (generation, rest) ← natural? generationLimit (afterSpace rest)
  return (⟨number, generation⟩, afterSpace rest)

/-! ### Names and strings -/

def hexDigitValue? (byte : UInt8) : Option Nat :=
  let n := byte.toNat
  if 0x30 ≤ n ∧ n ≤ 0x39 then some (n - 0x30)
  else if 0x41 ≤ n ∧ n ≤ 0x46 then some (n - 0x37)
  else if 0x61 ≤ n ∧ n ≤ 0x66 then some (n - 0x57)
  else none

def isRegular (byte : UInt8) : Bool :=
  !isSpacing byte && !(ascii "()<>[]\x7b\x7d/%").contains byte

/-- The bytes of a name after its slash. A number sign stands before two hexadecimal digits. -/
def nameBody : Bytes → Bytes × Bytes
  | [] => ([], [])
  | 0x23 :: high :: low :: rest =>
    match hexDigitValue? high, hexDigitValue? low with
    | some h, some l =>
      let (name, after) := nameBody rest
      ((16 * h + l).toUInt8 :: name, after)
    | _, _ => ([], 0x23 :: high :: low :: rest)
  | byte :: rest =>
    if byte != 0x23 && isRegular byte then
      let (name, after) := nameBody rest
      (byte :: name, after)
    else ([], byte :: rest)

def name? : Bytes → Option (Bytes × Bytes)
  | 0x2F :: rest => some (nameBody rest)
  | _ => none

def isOctal (byte : UInt8) : Bool := 0x30 ≤ byte && byte ≤ 0x37

/-- Letters that stand for control characters after a backslash. -/
def controlLetters : List (UInt8 × UInt8) :=
  [(0x6E, 0x0A), (0x72, 0x0D), (0x74, 0x09), (0x62, 0x08), (0x66, 0x0C)]

/-- What follows a backslash: up to three octal digits, a line end that does not count, or one
byte. -/
def escape? : Bytes → Option (Bytes × Bytes)
  | [] => none
  | byte :: rest =>
    if isOctal byte then
      let more := (rest.take 2).takeWhile isOctal
      let value := (byte :: more).foldl (fun value digit => 8 * value + (digit.toNat - 0x30)) 0
      some ([value.toUInt8], rest.drop more.length)
    else
      match lineEnd? (byte :: rest) with
      | some later => some ([], later)
      | none => some ([(controlLetters.lookup byte).getD byte], rest)

theorem escape?_shorter {text produced rest : Bytes} (found : escape? text = some (produced, rest)) :
    rest.length < text.length := by
  cases text with
  | nil => simp [escape?] at found
  | cons byte tail =>
    simp only [escape?] at found
    split at found
    · simp only [Option.some.injEq, Prod.mk.injEq] at found
      simp only [← found.2, List.length_drop, List.length_cons]
      omega
    · split at found
      · rename_i later ends
        simp only [Option.some.injEq, Prod.mk.injEq] at found
        rw [← found.2]
        exact lineEnd?_shorter ends
      · simp only [Option.some.injEq, Prod.mk.injEq] at found
        simp [← found.2]

/-- How deep parentheses may be nested in a string. -/
def parenthesisLimit : Nat := 100

/-- The bytes of a string up to its closing parenthesis. -/
def literalBody (depth : Nat) : Bytes → Option (Bytes × Bytes)
  | [] => none
  | byte :: rest =>
    if byte = 0x5C then
      match _ : escape? rest with
      | none => none
      | some (produced, later) =>
        (literalBody depth later).map fun (text, after) => (produced ++ text, after)
    else if byte = 0x29 ∧ depth = 0 then some ([], rest)
    else if byte = 0x28 ∧ depth = parenthesisLimit then none
    else
      let inner := if byte = 0x28 then depth + 1 else if byte = 0x29 then depth - 1 else depth
      (literalBody inner rest).map fun (text, after) => (byte :: text, after)
termination_by text => text.length
decreasing_by
  · have := escape?_shorter ‹_›
    simp only [List.length_cons]
    omega
  · simp

def literal? : Bytes → Option (Bytes × Bytes)
  | 0x28 :: rest => literalBody 0 rest
  | _ => none

/-- Digits up to the closing bracket, with blanks anywhere. -/
def hexDigits : Bytes → Option (List Nat × Bytes)
  | [] => none
  | byte :: rest =>
    if isSpacing byte then hexDigits rest
    else if byte = 0x3E then some ([], rest)
    else do
      let digit ← hexDigitValue? byte
      let (digits, after) ← hexDigits rest
      return (digit :: digits, after)

/-- A missing last digit counts as zero. -/
def packHex : List Nat → Bytes
  | [] => []
  | [high] => [(16 * high).toUInt8]
  | high :: low :: rest => (16 * high + low).toUInt8 :: packHex rest

def hexadecimal? : Bytes → Option (Bytes × Bytes)
  | 0x3C :: rest => (hexDigits rest).map fun (digits, after) => (packHex digits, after)
  | _ => none

/-! ### Objects -/

def constant? (text : Bytes) : Option (Object × Bytes) :=
  (word? "null" text).map (Object.null, ·) <|>
  (word? "true" text).map (Object.boolean true, ·) <|>
  (word? "false" text).map (Object.boolean false, ·)

def reference? (text : Bytes) : Option (ObjectId × Bytes) := do
  let (id, rest) ← objectId? text
  return (id, ← word? "R" rest)

/-- Objects without parts. The first form that fits counts, so a reference goes before a number. -/
def simple? (text : Bytes) : Option (Object × Bytes) :=
  constant? text <|>
  (reference? text).map (fun (id, rest) => (.reference id, rest)) <|>
  (real? text).map (fun (value, rest) => (.real value, rest)) <|>
  (integer? text).map (fun (value, rest) => (.integer value, rest)) <|>
  (name? text).map (fun (name, rest) => (.name name, rest)) <|>
  (literal? text).map (fun (bytes, rest) => (.literal bytes, rest)) <|>
  (hexadecimal? text).map (fun (bytes, rest) => (.hexadecimal bytes, rest))

mutual

def objectWithin : Nat → Bytes → Option (Object × Bytes)
  | 0, _ => none
  | steps + 1, text =>
    simple? text <|>
    ((word? "[" text).bind fun rest =>
      let (items, rest) := itemsWithin steps (afterSpace rest)
      (word? "]" rest).map (.array items, ·)) <|>
    ((word? "<<" text).bind fun rest =>
      let (entries, rest) := entriesWithin steps [] (afterSpace rest)
      (word? ">>" rest).map (.dictionary entries, ·))

/-- As many objects as there are. -/
def itemsWithin : Nat → Bytes → List Object × Bytes
  | 0, text => ([], text)
  | steps + 1, text =>
    match objectWithin steps text with
    | none => ([], text)
    | some (item, rest) =>
      let (items, rest) := itemsWithin steps (afterSpace rest)
      (item :: items, rest)

/-- As many names with objects as there are. Of two entries of one name the later counts. -/
def entriesWithin : Nat → Dictionary → Bytes → Dictionary × Bytes
  | 0, entries, text => (entries, text)
  | steps + 1, entries, text =>
    match (do
      let (key, rest) ← name? text
      let (value, rest) ← objectWithin steps (afterSpace rest)
      return (key, value, rest) : Option (Bytes × Object × Bytes)) with
    | none => (entries, text)
    | some (key, value, rest) => entriesWithin steps (entries.set key value) (afterSpace rest)

end

/-- Each step within an object takes at least one byte. -/
def object? (text : Bytes) : Option (Object × Bytes) := objectWithin (text.length + 1) text

def dictionary? (text : Bytes) : Option (Dictionary × Bytes) :=
  match object? text with
  | some (.dictionary entries, rest) => some (entries, rest)
  | _ => none

end Letterhead.Pdf
