import Letterhead.Json.Number
import Letterhead.Json.Quoted

/-!
Values that nobody asked for. They are checked less strictly than the others: any escape of four
hexadecimal digits will do, and numbers may be of any size. They may be nested to any depth.
-/

namespace Letterhead.Json

/-- What follows a backslash in a string that is not kept. -/
def skipEscape : List Char → Except Fault (List Char)
  | [] => .error .ended
  | c :: rest =>
    if (shortEscapes.lookup c).isSome then .ok rest
    else if c = 'u' then (codeUnit rest).map Prod.snd
    else .error .malformed

theorem skipEscape_shorter {text rest : List Char} (read : skipEscape text = .ok rest) :
    rest.length < text.length := by
  cases text with
  | nil => simp [skipEscape] at read
  | cons mark tail =>
    simp only [skipEscape] at read
    split at read
    · simp only [Except.ok.injEq] at read
      simp [← read]
    · split at read
      · cases unit : codeUnit tail with
        | error fault => simp [unit, Except.map] at read
        | ok found =>
          obtain ⟨unit, later⟩ := found
          have := codeUnit_shorter ‹_›
          simp only [‹codeUnit tail = _›, Except.map, Except.ok.injEq] at read
          simp only [← read, List.length_cons]
          omega
      · simp at read

/-- The text after the closing quote, for text that follows the opening one. -/
def skipQuoted : List Char → Except Fault (List Char)
  | [] => .error .ended
  | c :: rest =>
    if c = '"' then .ok rest
    else if c = '\\' then
      match _ : skipEscape rest with
      | .error fault => .error fault
      | .ok later => skipQuoted later
    else if c < ' ' then .error .malformed
    else skipQuoted rest
termination_by text => text.length
decreasing_by
  · have := skipEscape_shorter ‹_›
    simp only [List.length_cons]
    omega
  · simp

/-- A number that ends too early counts as malformed. -/
def skipNumber (text : List Char) : Except Fault (List Char) :=
  match numeral text with
  | .ok (_, rest) => .ok rest
  | .error _ => .error .malformed

def constant : List Char → Except Fault (List Char)
  | 'n' :: rest => expectWord ['u', 'l', 'l'] rest
  | 't' :: rest => expectWord ['r', 'u', 'e'] rest
  | 'f' :: rest => expectWord ['a', 'l', 's', 'e'] rest
  | text => .error (faultAt text)

def startsNumber (c : Char) : Bool := c == '-' || Decimal.isDigit c

def skipScalar : List Char → Except Fault (List Char)
  | '"' :: rest => skipQuoted rest
  | c :: rest => if startsNumber c then skipNumber (c :: rest) else constant (c :: rest)
  | [] => .error .ended

inductive Bracket where
  | list
  | record
deriving DecidableEq

def Bracket.closing : Bracket → Char
  | .list => ']'
  | .record => '}'

def Bracket.ofOpening? : Char → Option Bracket
  | '[' => some .list
  | '{' => some .record
  | _ => none

/-- What stands before the value of a member: in a record a key and a colon. -/
def skipKey (bracket : Bracket) (text : List Char) : Except Fault (List Char) :=
  match bracket with
  | .list => .ok text
  | .record => do
    let text ← skipQuoted (← expect '"' (afterBlanks text))
    expect ':' (afterBlanks text)

mutual

/-- The text after a value and after the open brackets around it, the innermost first. -/
def skipValue : Nat → List Bracket → List Char → Except Fault (List Char)
  | 0, _, _ => .error .ended
  | steps + 1, brackets, text =>
    match afterBlanks text with
    | [] => .error .ended
    | c :: rest =>
      match Bracket.ofOpening? c with
      | none => do skipRest steps brackets (← skipScalar (c :: rest))
      | some bracket =>
        match afterBlanks rest with
        | [] => .error .ended
        | first :: later =>
          if first = bracket.closing then skipRest steps brackets later
          else do skipValue steps (bracket :: brackets) (← skipKey bracket (first :: later))

/-- The text after what follows a value within brackets. -/
def skipRest : Nat → List Bracket → List Char → Except Fault (List Char)
  | _, [], text => .ok text
  | 0, _ :: _, _ => .error .ended
  | steps + 1, bracket :: outer, text =>
    match afterBlanks text with
    | [] => .error .ended
    | c :: rest =>
      if c = ',' then do skipValue steps (bracket :: outer) (← skipKey bracket rest)
      else if c = bracket.closing then skipRest steps outer rest
      else .error .malformed

end

/-- Each step takes at least one character. -/
def skip (text : List Char) : Except Fault (List Char) := skipValue (text.length + 1) [] text

end Letterhead.Json
