import Letterhead.Pdf.Document
import Letterhead.Pdf.Filter.Ascii85
import Letterhead.Pdf.Filter.Lzw
import Letterhead.Pdf.Filter.Predictor
import Letterhead.Pdf.Filter.Zlib

/-!
The data behind a stream's filters, and the content of a page: the data of its content streams,
one after the other with nothing between them.
-/

namespace Letterhead.Pdf

/-- One name or an array of names, in the order of decoding. -/
def filters? (entries : Dictionary) : Option (List Bytes) :=
  match Dictionary.get? entries (ascii "Filter") with
  | some (.name name) => some [name]
  | some (.array names) => names.mapM Object.asName?
  | _ => none

/-- One dictionary for all filters, given in place. -/
def parameters (entries : Dictionary) : Dictionary :=
  match Dictionary.get? entries (ascii "DecodeParms") with
  | some (.dictionary parameters) => parameters
  | _ => []

/-- Codes grow early unless the parameters say otherwise. -/
def earlyChange (parameters : Dictionary) : Bool :=
  match Dictionary.get? parameters (ascii "EarlyChange") with
  | some (.integer value) => value != 0
  | _ => true

def applyFilter? (parameters : Dictionary) (data filter : Bytes) : Option Bytes :=
  if filter = ascii "FlateDecode" then Predictor.undo? parameters (Zlib.decode data)
  else if filter = ascii "LZWDecode" then
    Predictor.undo? parameters (Lzw.decode (earlyChange parameters) data)
  else if filter = ascii "ASCII85Decode" then Ascii85.decode? data
  else none

/-- Without any filter in the chain nothing is decoded, so there is no data. -/
def decodeChain? (entries : Dictionary) (data : Bytes) : List Bytes → Option Bytes
  | [] => some []
  | filters => filters.foldlM (applyFilter? (parameters entries)) data

/-- Images are left to the reader of the file. -/
def isImage (entries : Dictionary) : Bool :=
  entries.name? "Subtype" == some (ascii "Image")

def decoded? (entries : Dictionary) (data : Bytes) : Option Bytes :=
  if isImage entries then none else (filters? entries).bind (decodeChain? entries data)

/-- Data that cannot be decoded stands as it is. -/
def streamData (entries : Dictionary) (data : Bytes) : Bytes := (decoded? entries data).getD data

namespace Document

/-- References to streams, or to nothing, are kept; those to other objects are followed. -/
def contentIds (document : Document) : Nat → Object → List ObjectId
  | steps, .reference id =>
    match document.get? id with
    | none | some (.stream _ _) => [id]
    | some object =>
      match steps with
      | 0 => []
      | steps + 1 => document.contentIds steps object
  | _, .array items => items.filterMap Object.asReference?
  | _, _ => []

/-- What a reference to a content stream contributes. -/
def contentOf (document : Document) (id : ObjectId) : Bytes :=
  match document.lookup id with
  | .ok (.stream entries data) => streamData entries data
  | _ => []

def pageContent (document : Document) (page : ObjectId) : Bytes :=
  match (document.dictionary? page).bind (Dictionary.get? · (ascii "Contents")) with
  | none => []
  | some contents =>
    (document.contentIds (referenceLimit - 1) contents).flatMap document.contentOf

end Document

end Letterhead.Pdf
