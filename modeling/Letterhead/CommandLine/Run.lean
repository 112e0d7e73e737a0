import Letterhead.CommandLine.Arguments
import Letterhead.Job

/-!
The command line in any monad that can read and write files. Three exit codes tell whether the
document is in order, whether something went wrong with it, and whether the arguments were refused.
-/

namespace Letterhead.CommandLine

structure Environment (m : Type → Type) where
  input : m (Except String Pdf.Bytes)
  load : String → m (Except String Pdf.Bytes)
  save : String → Pdf.Document → m (Except String Unit)

structure Outcome where
  exitCode : Nat
  output : String := ""
  errors : List String := []

def Setting.option : Setting → String
  | .template => "--template <TEMPLATE>"
  | .config => "--config <CONFIG>"
  | .fontSize => "--default-font-size <DEFAULT_FONT_SIZE>"
  | .smallFontSize => "--small-font-size <SMALL_FONT_SIZE>"

def Misuse.message : Misuse → String
  | .unknownOption argument => "unexpected argument '" ++ argument ++ "' found"
  | .repeatedOption setting => "the argument '" ++ setting.option ++ "' cannot be used multiple times"
  | .missingValue setting => "a value is required for '" ++ setting.option ++ "' but none was supplied"
  | .invalidValue value => "invalid value '" ++ value ++ "'"
  | .needlessValue option => "unexpected value for '--" ++ option ++ "' found; no more were expected"
  | .tooManyArguments argument => "unexpected argument '" ++ argument ++ "' found"
  | .missingArguments => "the following required arguments were not provided: <INPUT> <OUTPUT>"

def usage : String := "Usage: pdfmaker [OPTIONS] <INPUT> <OUTPUT>"

def helpLines : List String :=
  ["Render marked-up text into a PDF, optionally over a template document",
   "",
   usage,
   "",
   "Arguments:",
   "  <INPUT>   Text file with the markup to render, or `-` for stdin",
   "  <OUTPUT>  Where to write the PDF",
   "",
   "Options:",
   "  -t, --template <TEMPLATE>                    PDF whose pages are drawn behind the generated ones",
   "  -c, --config <CONFIG>                        JSON layout settings (page size, margins, fonts)",
   "      --default-font-size <DEFAULT_FONT_SIZE>  Body font size in points",
   "      --small-font-size <SMALL_FONT_SIZE>      Font size inside <SMALL> in points",
   "  -h, --help                                   Print help",
   "  -V, --version                                Print version"]

def helpText : String := String.join (helpLines.map (· ++ "\n"))

def versionText : String := "pdfmaker 0.1.0\n"

def textOf (bytes : Except String Pdf.Bytes) : Except JobFault (List Char) :=
  match bytes with
  | .error reason => .error (.io reason)
  | .ok bytes =>
    match Text.ofUtf8? bytes with
    | some text => .ok text
    | none => .error (.io "stream did not contain valid UTF-8")

def configOf (bytes : Except String Pdf.Bytes) : Except JobFault Config := do
  (Config.ofJson (← textOf bytes)).mapError .configMalformed

def addTemplate (job : Job) (bytes : Except String Pdf.Bytes) : Except JobFault Job := do
  job.setTemplateFile (← bytes.mapError .templateUnreadable)

section
variable {m : Type → Type} [Monad m] (environment : Environment m)

/-- A single dash stands for standard input. -/
def readText (path : String) : ExceptT JobFault m (List Char) :=
  .mk (textOf <$> if path = "-" then environment.input else environment.load path)

def readConfig (path : String) : ExceptT JobFault m Config :=
  .mk (configOf <$> environment.load path)

def readTemplate (job : Job) (path : String) : ExceptT JobFault m Job :=
  .mk (addTemplate job <$> environment.load path)

/-- Font sizes given as options go before those of the settings. -/
def prepare (input output : String) (options : Options) : ExceptT JobFault m Job := do
  let text ← readText environment input
  let config ← match options.config with
    | some path => readConfig environment path
    | none => pure {}
  let job : Job := { text, destination := output }
  let job ← match options.template with
    | some path => readTemplate environment job path
    | none => pure job
  let job := { job with config }
  let job := (options.fontSize.map job.setFontSize).getD job
  return (options.smallFontSize.map job.setSmallFontSize).getD job

def produce (job : Job) : ExceptT JobFault m Report := do
  match job.run fun _ => .ok () with
  | .error fault => throw fault
  | .ok pass =>
    match pass.surface.written with
    | none => return pass.report
    | some document =>
      match ← environment.save job.destination document with
      | .error reason => throw (.io reason)
      | .ok () => return pass.report

def renderFile (input output : String) (options : Options) : ExceptT JobFault m Report := do
  produce environment (← prepare environment input output options)

def Outcome.ofReport : Except JobFault Report → Outcome
  | .ok report => { exitCode := if report.isClean then 0 else 1, errors := report.messages }
  | .error fault => { exitCode := 1, errors := ["Error: " ++ fault.message] }

def run (arguments : List String) : m Outcome :=
  match Request.ofArguments arguments with
  | .help => pure { exitCode := 0, output := helpText }
  | .version => pure { exitCode := 0, output := versionText }
  | .refuse misuse =>
    pure { exitCode := 2, errors := ["error: " ++ misuse.message, "", usage, "",
      "For more information, try '--help'."] }
  | .render input output options => Outcome.ofReport <$> (renderFile environment input output options).run

end

end Letterhead.CommandLine
