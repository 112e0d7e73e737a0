import Letterhead.Pdf.Document
import Letterhead.Pdf.Notation

/-!
A document as a file: a header, the objects in the order of their numbers, a cross-reference
stream with the place of each object, itself the last one, and a pointer to that stream. Objects
that describe a file they were read from are not written.
-/

namespace Letterhead.Pdf

/-- Version 1.7, and a comment that marks the file as binary. -/
def fileHeader : Bytes := ascii "%PDF-1.7\n%" ++ [0xBB, 0xAD, 0xC0, 0xDE] ++ ascii "\n"

/-- Whether the text of the object runs into a keyword after it. -/
def Object.needsSpaceAfter : Object → Bool
  | .name _ | .stream _ _ => true
  | object => object.needsSpace

/-- The type that a dictionary or a stream states; with another key it states a type too. -/
def Object.typeName? : Object → Option Bytes
  | .dictionary entries | .stream entries _ =>
    match Dictionary.get? entries (ascii "Type") with
    | some (.name stated) => some stated
    | _ => (Dictionary.get? entries (ascii "Linearized")).map fun _ => ascii "Linearized"
  | _ => none

/-- Whether the object describes the layout of a file: packed objects, places of objects, or how
a file is arranged for reading from the front. -/
def Object.describesFile (object : Object) : Bool :=
  match object.typeName? with
  | some stated => [ascii "ObjStm", ascii "XRef", ascii "Linearized"].contains stated
  | none => false

def indirectBytes (id : ObjectId) (object : Object) : Bytes :=
  digitBytes id.number ++ 0x20 :: (digitBytes id.generation ++ (ascii " obj\n" ++
    (object.separator ++ (object.bytes ++ ((if object.needsSpaceAfter then [0x20] else []) ++
      ascii "\nendobj\n")))))

/-- Where each piece begins when they follow one another from `start` on, and where they end. -/
def offsets (start : Nat) : List Bytes → List Nat × Nat
  | [] => ([], start)
  | piece :: rest =>
    let later := offsets (start + piece.length) rest
    (start :: later.1, later.2)

/-- A row of the table: type one, an offset of four bytes, generation zero. -/
def crossReferenceRow (offset : Nat) : Bytes :=
  1 :: (wordBytes offset ++ [0, 0])

/-- Ascending numbers as runs of consecutive ones: the first of each run, and how many there are. -/
def consecutive : List Nat → List (Nat × Nat)
  | [] => []
  | number :: rest =>
    match consecutive rest with
    | [] => [(number, 1)]
    | (start, count) :: later =>
      if start = number + 1 then (number, count + 1) :: later
      else (number, 1) :: (start, count) :: later

def integerPair (pair : Nat × Nat) : List Object := [.integer pair.1, .integer pair.2]

/-- For objects with the given numbers and places, the table itself the last one. -/
def crossReference (root : Object) (size : Nat) (numbers starts : List Nat) : Object :=
  .ofStream
    (.ofList [("Root", root), ("Type", .ofName "XRef"), ("Size", .integer size),
      ("W", .array [.integer 1, .integer 4, .integer 2]),
      ("Index", .array ((consecutive numbers).flatMap integerPair))])
    (starts.flatMap crossReferenceRow)

namespace Document

def fileObjects (document : Document) : List (ObjectId × Object) :=
  document.objects.toList.filter fun entry => !entry.2.describesFile

/-- For documents whose objects all have generation zero, as those have that were only added to. -/
def fileBytes (document : Document) : Bytes :=
  let entries := document.fileObjects
  let bodies := entries.map fun entry => indirectBytes entry.1 entry.2
  let (starts, tableStart) := offsets fileHeader.length bodies
  let root := (Dictionary.get? document.trailer (ascii "Root")).getD .null
  let table := document.nextId
  let numbers := entries.map (·.1.number) ++ [table.number]
  fileHeader ++ (bodies.flatten ++
    (indirectBytes table
        (crossReference root (table.number + 1) numbers (starts ++ [tableStart])) ++
      (ascii "\nstartxref\n" ++ (digitBytes tableStart ++ ascii "\n%%EOF"))))

end Document

end Letterhead.Pdf
