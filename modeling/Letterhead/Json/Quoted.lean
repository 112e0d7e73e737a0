import Letterhead.Json.Basic

/-!
JSON strings. Quotes, backslashes and control characters are escaped when written; all that JSON
allows is read. A character beyond the first 65536 may be escaped as a pair of surrogates, and a
surrogate stands for nothing without the other.
-/

namespace Letterhead.Json

/-! ### Reading -/

def hexValue? (c : Char) : Option Nat :=
  if '0' ≤ c ∧ c ≤ '9' then some (c.toNat - '0'.toNat)
  else if 'a' ≤ c ∧ c ≤ 'f' then some (c.toNat - 'a'.toNat + 10)
  else if 'A' ≤ c ∧ c ≤ 'F' then some (c.toNat - 'A'.toNat + 10)
  else none

def byteCount (text : List Char) : Nat := text.foldl (fun count c => count + c.utf8Size) 0

/-- Four hexadecimal digits. Where four bytes are left and they are no such digits, the text is
malformed, also if it ends within these characters. -/
def codeUnit (text : List Char) : Except Fault (Nat × List Char) :=
  match text.take 4 |>.mapM hexValue? with
  | some [a, b, c, d] => .ok (((a * 16 + b) * 16 + c) * 16 + d, text.drop 4)
  | _ => .error (if byteCount text < 4 then .ended else .malformed)

def isHighSurrogate (unit : Nat) : Bool := 0xD800 ≤ unit && unit ≤ 0xDBFF

def isLowSurrogate (unit : Nat) : Bool := 0xDC00 ≤ unit && unit ≤ 0xDFFF

def escapedUnit (text : List Char) : Except Fault (Char × List Char) := do
  let (unit, rest) ← codeUnit text
  if isLowSurrogate unit then .error .malformed
  else if isHighSurrogate unit then
    let rest ← expect 'u' (← expect '\\' rest)
    let (low, rest) ← codeUnit rest
    if isLowSurrogate low then
      .ok (Char.ofNat (0x10000 + (unit - 0xD800) * 0x400 + (low - 0xDC00)), rest)
    else .error .malformed
  else .ok (Char.ofNat unit, rest)

/-- Characters that stand for another one after a backslash. -/
def shortEscapes : List (Char × Char) :=
  [('"', '"'), ('\\', '\\'), ('/', '/'), ('b', '\x08'), ('f', '\x0c'), ('n', '\n'), ('r', '\r'),
    ('t', '\t')]

def escape : List Char → Except Fault (Char × List Char)
  | [] => .error .ended
  | c :: rest =>
    match shortEscapes.lookup c with
    | some meant => .ok (meant, rest)
    | none => if c = 'u' then escapedUnit rest else .error .malformed

theorem codeUnit_shorter {text rest : List Char} {unit : Nat}
    (read : codeUnit text = .ok (unit, rest)) : rest.length ≤ text.length := by
  simp only [codeUnit] at read
  split at read
  · simp only [Except.ok.injEq, Prod.mk.injEq] at read
    simp [← read.2]
  · simp at read

theorem expect_shorter {mark : Char} {text rest : List Char} (read : expect mark text = .ok rest) :
    rest.length < text.length := by
  cases text with
  | nil => simp [expect] at read
  | cons c tail =>
    simp only [expect] at read
    split at read
    · simp only [Except.ok.injEq] at read
      simp [← read]
    · simp at read

theorem escapedUnit_shorter {text rest : List Char} {c : Char}
    (read : escapedUnit text = .ok (c, rest)) : rest.length ≤ text.length := by
  simp only [escapedUnit] at read
  cases first : codeUnit text with
  | error fault => simp [first, bind, Except.bind] at read
  | ok found =>
    obtain ⟨unit, later⟩ := found
    have short := codeUnit_shorter first
    simp only [first, bind, Except.bind] at read
    split at read
    · simp at read
    · split at read
      · cases slash : expect '\\' later with
        | error fault => simp [slash] at read
        | ok afterSlash =>
          simp only [slash] at read
          cases mark : expect 'u' afterSlash with
          | error fault => simp [mark] at read
          | ok afterMark =>
            simp only [mark] at read
            cases second : codeUnit afterMark with
            | error fault => simp [second] at read
            | ok low =>
              obtain ⟨low, last⟩ := low
              simp only [second] at read
              have := codeUnit_shorter second
              have := expect_shorter slash
              have := expect_shorter mark
              split at read
              · simp only [Except.ok.injEq, Prod.mk.injEq] at read
                rw [← read.2]
                omega
              · simp at read
      · simp only [Except.ok.injEq, Prod.mk.injEq] at read
        rw [← read.2]
        exact short

theorem escape_shorter {text rest : List Char} {c : Char} (read : escape text = .ok (c, rest)) :
    rest.length < text.length := by
  cases text with
  | nil => simp [escape] at read
  | cons mark tail =>
    simp only [escape] at read
    split at read
    · simp only [Except.ok.injEq, Prod.mk.injEq] at read
      simp [← read.2]
    · split at read
      · have := escapedUnit_shorter read
        simp only [List.length_cons]
        omega
      · simp at read

/-- The characters up to the closing quote, for text that follows the opening one. -/
def quoted : List Char → Except Fault (List Char × List Char)
  | [] => .error .ended
  | c :: rest =>
    if c = '"' then .ok ([], rest)
    else if c = '\\' then
      match _ : escape rest with
      | .error fault => .error fault
      | .ok (meant, later) => do
        let (text, after) ← quoted later
        .ok (meant :: text, after)
    else if c < ' ' then .error .malformed
    else do
      let (text, after) ← quoted rest
      .ok (c :: text, after)
termination_by text => text.length
decreasing_by
  · have := escape_shorter ‹_›
    simp only [List.length_cons]
    omega
  · simp

/-! ### Writing -/

def hexLetter (n : Nat) : Char := if n < 10 then Char.ofNat (48 + n) else Char.ofNat (87 + n)

def quotedChar (c : Char) : List Char :=
  match shortEscapes.find? fun pair => pair.2 = c && c != '/' with
  | some pair => ['\\', pair.1]
  | none =>
    if c < ' ' then ['\\', 'u', '0', '0', hexLetter (c.toNat / 16), hexLetter (c.toNat % 16)]
    else [c]

def quotedText (text : List Char) : List Char := '"' :: (text.flatMap quotedChar ++ ['"'])

end Letterhead.Json
