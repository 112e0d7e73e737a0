import Letterhead.Config
import Letterhead.Pdf.Load
import Letterhead.Rendering

/-!
A job: one text with its settings and its template, and what keeps it from being done at all.
Problems within a text do not; they are in the report of the finished job.
-/

namespace Letterhead

inductive JobFault where
  | templateUnreadable (reason : String)
  | templateMalformed (fault : Pdf.FileFault)
  | configMalformed (fault : Json.Fault)
  | configInvalid (fault : ConfigFault)
  | io (reason : String)

def Json.Fault.message : Json.Fault → String
  | .ended => "the text ends too early"
  | .malformed => "the text is not JSON"
  | .unexpected => "a value is not of the expected kind"

def JobFault.message : JobFault → String
  | .templateUnreadable reason => "Template could not be loaded: PDF error: IO error: " ++ reason
  | .templateMalformed fault => "Template could not be loaded: PDF error: " ++ fault.message
  | .configMalformed fault => "Configuration is invalid: " ++ fault.message
  | .configInvalid fault => "Invalid layout setting: " ++ fault.message
  | .io reason => "I/O error: " ++ reason

structure Job where
  text : List Char
  destination : String
  template : Option Template := none
  config : Config := {}

namespace Job

def templatePages (job : Job) : Nat :=
  match job.template with
  | none => 0
  | some template => template.size

def setTemplateFile (job : Job) (file : Pdf.Bytes) : Except JobFault Job :=
  match Pdf.Document.ofFile file with
  | .error fault => .error (.templateMalformed fault)
  | .ok document => .ok { job with template := some (.ofDocument document) }

def setFontSize (job : Job) (fontSize : Float32) : Job :=
  { job with config := { job.config with fontSize } }

def setSmallFontSize (job : Job) (smallFontSize : Float32) : Job :=
  { job with config := { job.config with smallFontSize } }

/-- The right margin follows the left one. -/
def setMargins (job : Job) (top left bottom : Float32) : Job :=
  { job with config := { job.config with margins := .symmetric top left bottom } }

/-- Draws the text, whether or not the settings are valid. -/
def draw (job : Job) (destination : Destination) : Pass Paper :=
  render (Paper.surface destination) ⟨job.config.lineHeight, job.templatePages⟩
    (.ofSizes job.config.fontSize job.config.smallFontSize)
    (.new job.config.paperSettings job.template) job.text

def run (job : Job) (destination : Destination) : Except JobFault (Pass Paper) :=
  match job.config.fault? with
  | some fault => .error (.configInvalid fault)
  | none => .ok (job.draw destination)

end Job

end Letterhead
