import Letterhead.Pdf.Document
import Letterhead.Pdf.Packed
import Letterhead.Pdf.TableStream

/-!
A document from the bytes of a file. The file says at its end where the table of objects is; the
table says where each object is, and the trailer behind it may name an older table. Objects that
cannot be read are left out; a file without a header, a table or a trailer is refused.
-/

namespace Letterhead.Pdf

inductive FileFault where
  | header
  | tableStart
  | olderTableStart
  | tableStreamStart
  | trailer
  | table
deriving DecidableEq, Repr

def FileFault.message : FileFault → String
  | .header => "couldn't parse input: invalid file header"
  | .tableStart => "failed parsing cross reference table: invalid start value"
  | .olderTableStart => "failed parsing cross reference table: invalid start value of Prev field"
  | .tableStreamStart => "failed parsing cross reference table: invalid start value of XRefStm field"
  | .trailer => "couldn't parse input: invalid file trailer"
  | .table => "couldn't parse input: invalid cross reference table"

/-! ### The tables of a file -/

/-- The table at an offset, which has to be within the file. -/
def tableAt (file : Bytes) (fault : FileFault) (offset : Int) : Except FileFault Table :=
  if offset < 0 ∨ file.length < offset then .error fault
  else
    match Table.read? (file.drop offset.toNat) with
    | some table => .ok table
    | none => .error .trailer

/-- Adds the places of a further table at `offset`, if there is one. -/
def addFurther (file : Bytes) (offset : Option Int) (places : Places) : Except FileFault Places :=
  match offset with
  | none => .ok places
  | some offset => do
    let table ← tableAt file .tableStreamStart offset
    return places.fill table.places

/-- Adds the places of older tables, where newer ones have none; those of `further` come after the
first of them. Tables are at different offsets within the file, so there are no more steps than
bytes; a table that comes again ends the chain. -/
def addOlder (file : Bytes) :
    Nat → List Int → Option Int → Option Int → Places → Except FileFault Places
  | 0, _, _, _, places | _, _, _, none, places => .ok places
  | steps + 1, seen, further, some offset, places =>
    if seen.contains offset then .ok places
    else do
      let older ← tableAt file .olderTableStart offset
      let places ← addFurther file further (places.fill older.places)
      addOlder file steps (offset :: seen) none (older.trailer.integer? "Prev") places

/-- The table at `offset` with all that it leads to. The highest number is not given to an
object. -/
def tablesFrom (file : Bytes) (offset : Nat) : Except FileFault Table := do
  let ⟨places, trailer⟩ ← tableAt file .tableStart offset
  let places ← addOlder file (file.length + 2) [] (trailer.integer? "XRefStm")
    (trailer.integer? "Prev") places
  if places.contains (numberLimit - 1) then .error .table else .ok ⟨places, trailer⟩

/-! ### The objects of a file -/

namespace Document

/-- Adds objects where there are none yet. -/
def fill (document : Document) (packed : List (ObjectId × Object)) : Document :=
  { document with
    objects := packed.foldl (fun objects entry => objects.insertIfNew entry.1 entry.2)
      document.objects }

/-- Gives a stream its data, if its length can be told from the other objects. -/
def measure (document : Document) (file : Bytes) : ObjectId × Found → Document
  | (_, .object _) => document
  | (id, .unmeasured entries start) =>
    let length := match entries.get? (ascii "Length") with
      | some (.reference id) => (document.lookup id).toOption.bind Object.asInteger?
      | _ => none
    match length with
    | some (.ofNat length) =>
      if file.length < start + length then document
      else document.insert id (.ofStream entries ((file.drop start).take length))
    | _ => document

/-- A document with the objects that can be read at their places, and with those packed into them
where there are no others. -/
def ofPlaces (file : Bytes) (places : Places) (trailer : Dictionary) : Document :=
  let found := (places.values.filterMap fun place => place.bind (foundAt? file places)).filterMap
    fun (id, found) => found.unpack?.map fun (found, packed) => (id, found, packed)
  let lastNumber := places.keys.foldl max 0
  let document := found.foldl (fun document (id, found, _) => document.insert id found.asObject)
    { lastNumber, trailer }
  let document := found.foldl (fun document (_, _, packed) => document.fill packed.reverse) document
  found.foldl (fun document (id, found, _) => document.measure file (id, found)) document

end Document

/-! ### The file -/

/-- The file from the first header mark on. -/
def fromHeader : Bytes → Option Bytes
  | [] => none
  | byte :: rest => if (word? "%PDF-" (byte :: rest)).isSome then some (byte :: rest) else fromHeader rest

/-- The version stands on a line of its own. -/
def hasVersion (file : Bytes) : Bool :=
  match word? "%PDF-" file with
  | none => false
  | some rest =>
    (Text.ofUtf8? (rest.takeWhile fun byte => !isLineEnd byte)).isSome && (comment? rest).isSome

/-- The last place of a word; `index` is where the text begins. -/
def lastIndex? (word : String) : Nat → Bytes → Option Nat
  | _, [] => none
  | index, byte :: rest =>
    (lastIndex? word (index + 1) rest).or
      (if (word? word (byte :: rest)).isSome then some index else none)

/-- How far from the end of the file its end mark may be. -/
def endWindow : Nat := 512

/-- How far before the end mark the pointer to the table may be. -/
def pointerWindow : Nat := 25

def tableOffset? (file : Bytes) : Option Nat := do
  let windowStart := file.length - endWindow
  let ending ← lastIndex? "%%EOF" windowStart (file.drop windowStart)
  if ending ≤ pointerWindow then none
  else
    let pointerStart := ending - pointerWindow
    let pointer ← lastIndex? "startxref" pointerStart (file.drop pointerStart)
    let rest ← lineEnd? (← word? "startxref" (file.drop pointer))
    let (offset, rest) ← integer? (rest.dropWhile (· == 0x20))
    let rest ← lineEnd? (rest.dropWhile (· == 0x20))
    let _ ← word? "%%EOF" rest
    if 0 ≤ offset ∧ offset ≤ file.length then some offset.toNat else none

/-- Offsets count from the header mark. -/
def Document.ofFile (file : Bytes) : Except FileFault Document :=
  match (fromHeader file).filter hasVersion with
  | none => .error .header
  | some file =>
    match tableOffset? file with
    | none => .error .tableStart
    | some offset => do
      let table ← tablesFrom file offset
      .ok (.ofPlaces file table.places table.trailer)

end Letterhead.Pdf
