import Letterhead.Pdf.Notation

/-!
Page content: painting operators with their operands, and how both are written. Every operand is
followed by a space, the operator comes last, and operators stand on lines of their own.
-/

namespace Letterhead.Pdf

inductive Operation where
  | save
  | restore
  | paintForm (name : Bytes)
  | beginText
  | endText
  | selectFont (name : Bytes) (size : Float32)
  | moveText (x y : Float32)
  | showText (bytes : Bytes)
  | setGray (level : Float32)
  | setLineWidth (width : Float32)
  | rectangle (x y width height : Float32)
  | moveTo (x y : Float32)
  | lineTo (x y : Float32)
  | stroke
  | fill
  | fillAndStroke
  | endPath

namespace Operation

def operator : Operation → String
  | save => "q"
  | restore => "Q"
  | paintForm _ => "Do"
  | beginText => "BT"
  | endText => "ET"
  | selectFont _ _ => "Tf"
  | moveText _ _ => "Td"
  | showText _ => "Tj"
  | setGray _ => "g"
  | setLineWidth _ => "w"
  | rectangle _ _ _ _ => "re"
  | moveTo _ _ => "m"
  | lineTo _ _ => "l"
  | stroke => "S"
  | fill => "f"
  | fillAndStroke => "B"
  | endPath => "n"

def operands : Operation → List Object
  | paintForm name => [.name name]
  | selectFont name size => [.name name, .real size]
  | moveText x y => [.real x, .real y]
  | showText bytes => [.literal bytes]
  | setGray level => [.real level]
  | setLineWidth width => [.real width]
  | rectangle x y width height => [.real x, .real y, .real width, .real height]
  | moveTo x y => [.real x, .real y]
  | lineTo x y => [.real x, .real y]
  | _ => []

def bytes (operation : Operation) : Bytes :=
  operation.operands.flatMap (fun operand => operand.bytes ++ [0x20]) ++ ascii operation.operator

end Operation

def contentBytes (operations : List Operation) : Bytes :=
  [0x0A].intercalate (operations.map Operation.bytes)

end Letterhead.Pdf
