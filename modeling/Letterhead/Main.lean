import Letterhead.CommandLine.Run
import Letterhead.Pdf.File

/-!
The program: the command line over the files of the system.
-/

namespace Letterhead

open CommandLine (Environment)

/-- The system's words for a failure, and its number. -/
def failureReason : IO.Error → String
  | .noFileOrDirectory _ code details | .interrupted _ code details
  | .alreadyExists _ code details | .invalidArgument _ code details
  | .permissionDenied _ code details | .resourceExhausted _ code details
  | .inappropriateType _ code details | .noSuchThing _ code details
  | .otherError code details | .resourceBusy code details | .resourceVanished code details
  | .unsupportedOperation code details | .hardwareFault code details
  | .unsatisfiedConstraints code details | .illegalOperation code details
  | .protocolError code details | .timeExpired code details =>
    details ++ " (os error " ++ toString code ++ ")"
  | .unexpectedEof => "unexpected end of file"
  | .userError reason => reason

def attempt {α : Type} (action : IO α) : IO (Except String α) := do
  match ← action.toBaseIO with
  | .ok value => return .ok value
  | .error failure => return .error (failureReason failure)

partial def readAll (stream : IO.FS.Stream) (sofar : ByteArray) : IO ByteArray := do
  let chunk ← stream.read 65536
  if chunk.isEmpty then return sofar else readAll stream (sofar ++ chunk)

def system : Environment IO where
  input := attempt do return (← readAll (← IO.getStdin) ByteArray.empty).data.toList
  load path := attempt <| IO.FS.withFile path .read fun file => do
    return (← file.readBinToEnd).data.toList
  save path document := attempt (IO.FS.writeBinFile path ⟨document.fileBytes.toArray⟩)

end Letterhead

def main (arguments : List String) : IO UInt32 := do
  let outcome ← Letterhead.CommandLine.run Letterhead.system arguments
  (← IO.getStdout).putStr outcome.output
  let errors ← IO.getStderr
  outcome.errors.forM fun line => errors.putStr (line ++ "\n")
  return outcome.exitCode.toUInt32
