/-!
Reading JSON from left to right. A reader takes what it reads off the front of the text and
returns the rest; the first fault that it meets decides.
-/

namespace Letterhead.Json

inductive Fault where
  | ended
  | malformed
  /-- The text is JSON, but not of the shape that is wanted. -/
  | unexpected
deriving DecidableEq, Repr

def isBlank (c : Char) : Bool := c == ' ' || c == '\n' || c == '\t' || c == '\r'

def afterBlanks (text : List Char) : List Char := text.dropWhile isBlank

/-- The fault of a text that does not go on as it has to. -/
def faultAt : List Char → Fault
  | [] => .ended
  | _ :: _ => .malformed

def expect (mark : Char) : List Char → Except Fault (List Char)
  | [] => .error .ended
  | c :: rest => if c = mark then .ok rest else .error .malformed

def expectWord : List Char → List Char → Except Fault (List Char)
  | [], text => .ok text
  | mark :: word, text => do expectWord word (← expect mark text)

end Letterhead.Json
