import Letterhead.Json.Skip

/-!
Records read from JSON. A record is written with its fields by name, or as a list of its fields in
order; fields that are left out keep their defaults. A name that the record does not know is passed
over, and a name that comes twice is a fault.
-/

namespace Letterhead.Json

structure Member (α : Type) where
  name : String
  read : α → List Char → Except Fault (α × List Char)

def scalar : List Char → Except Fault Unit
  | '"' :: rest => (quoted rest).map fun _ => ()
  | c :: rest =>
    if startsNumber c then (number (c :: rest)).map fun _ => ()
    else (constant (c :: rest)).map fun _ => ()
  | [] => .error .ended

/-- The fault of a text that does not start as the wanted value does. A scalar is read to its end,
and its own fault comes first. -/
def wrongShape : List Char → Fault
  | '[' :: _ | '{' :: _ => .unexpected
  | text =>
    match scalar text with
    | .error fault => fault
    | .ok () => .unexpected

def float (text : List Char) : Except Fault (Float32 × List Char) :=
  match afterBlanks text with
  | c :: rest => if startsNumber c then number (c :: rest) else .error (wrongShape (c :: rest))
  | [] => .error .ended

def string (source : List Char) : Except Fault (List Char × List Char) :=
  match afterBlanks source with
  | '"' :: rest => quoted rest
  | source => .error (wrongShape source)

section
variable {α : Type}

/-- The text at the next member, past the comma if there has been one before. -/
def atMember (first : Bool) (source : List Char) : Except Fault (List Char) :=
  if first then .ok source else do return afterBlanks (← expect ',' source)

/-- The fields in order, after the opening bracket. -/
def listed (first : Bool) : List (Member α) → α → List Char → Except Fault (α × List Char)
  | [], record, source => do return (record, ← expect ']' (afterBlanks source))
  | field :: rest, record, source =>
    match afterBlanks source with
    | ']' :: source => .ok (record, source)
    | source => do
      match ← atMember first source with
      | ']' :: _ => .error .malformed
      | source =>
        let (record, source) ← field.read record source
        listed false rest record source

def key (source : List Char) : Except Fault (List Char × List Char) := do
  quoted (← expect '"' source)

/-- The fields by name, after the opening bracket. Each step takes at least one character. -/
def named (fields : List (Member α)) :
    Nat → Bool → List String → α → List Char → Except Fault (α × List Char)
  | 0, _, _, _, _ => .error .ended
  | steps + 1, first, seen, record, source =>
    match afterBlanks source with
    | '}' :: source => .ok (record, source)
    | source => do
      let (name, source) ← key (← atMember first source)
      match fields.find? (·.name == String.ofList name) with
      | some field =>
        if seen.contains field.name then .error .unexpected
        else
          let source ← expect ':' (afterBlanks source)
          let (record, source) ← field.read record source
          named fields steps false (field.name :: seen) record source
      | none =>
        let source ← expect ':' (afterBlanks source)
        named fields steps false seen record (← skip source)

def record (fields : List (Member α)) (default : α) (source : List Char) :
    Except Fault (α × List Char) :=
  match afterBlanks source with
  | '[' :: rest => listed true fields default rest
  | '{' :: rest => named fields (rest.length + 1) true [] default rest
  | source => .error (wrongShape source)

def wholeRecord (fields : List (Member α)) (default : α) (source : List Char) : Except Fault α := do
  let (record, rest) ← record fields default source
  match afterBlanks rest with
  | [] => .ok record
  | _ :: _ => .error .malformed

end

end Letterhead.Json
