import Letterhead.Decimal.Read

/-!
Command-line arguments, read from left to right. The first thing that decides ends the reading: a
request for help or for the version, or an argument that does not fit. The value of an option is
attached to it or is the next argument, which then begins with no dash unless it is a single one.
-/

namespace Letterhead.CommandLine

inductive Setting where
  | template
  | config
  | fontSize
  | smallFontSize
deriving DecidableEq, Repr

def Setting.ofLong? : String → Option Setting
  | "template" => some .template
  | "config" => some .config
  | "default-font-size" => some .fontSize
  | "small-font-size" => some .smallFontSize
  | _ => none

def Setting.ofShort? : Char → Option Setting
  | 't' => some .template
  | 'c' => some .config
  | _ => none

structure Options where
  template : Option String := none
  config : Option String := none
  fontSize : Option Float32 := none
  smallFontSize : Option Float32 := none

inductive Misuse where
  | unknownOption (argument : String)
  | repeatedOption (setting : Setting)
  | missingValue (setting : Setting)
  | invalidValue (value : String)
  | needlessValue (option : String)
  | tooManyArguments (argument : String)
  | missingArguments
deriving Repr

inductive Request where
  | render (input output : String) (options : Options)
  | help
  | version
  | refuse (misuse : Misuse)

def path? (value : String) : Option String := if value.isEmpty then none else some value

namespace Options

def isSet (options : Options) : Setting → Bool
  | .template => options.template.isSome
  | .config => options.config.isSome
  | .fontSize => options.fontSize.isSome
  | .smallFontSize => options.smallFontSize.isSome

def with? (options : Options) (value : String) : Setting → Option Options
  | .template => (path? value).map fun path => { options with template := some path }
  | .config => (path? value).map fun path => { options with config := some path }
  | .fontSize => (Decimal.parse? value.toList).map fun size => { options with fontSize := some size }
  | .smallFontSize =>
    (Decimal.parse? value.toList).map fun size => { options with smallFontSize := some size }

/-- An option is given at most once. -/
def set (options : Options) (setting : Setting) (value : String) : Except Misuse Options :=
  if options.isSet setting then .error (.repeatedOption setting)
  else
    match options.with? value setting with
    | some options => .ok options
    | none => .error (.invalidValue value)

end Options

/-- The arguments so far, and those without an option in order. -/
structure Reading where
  options : Options := {}
  free : List String := []

namespace Reading

/-- There are two free arguments: the input and the output. -/
def addFree (reading : Reading) (argument : String) : Except Misuse Reading :=
  if 2 ≤ reading.free.length then .error (.tooManyArguments argument)
  else
    match path? argument with
    | some path => .ok { reading with free := reading.free ++ [path] }
    | none => .error (.invalidValue argument)

def request (reading : Reading) : Request :=
  match reading.free with
  | [input, output] => .render input output reading.options
  | _ => .refuse .missingArguments

def addAllFree (reading : Reading) (arguments : List String) : Request :=
  match arguments.foldlM addFree reading with
  | .ok reading => reading.request
  | .error misuse => .refuse misuse

end Reading

inductive Argument where
  | free
  /-- All arguments after this one are free. -/
  | divider
  | help
  | version
  | option (setting : Setting) (attached : Option String)
  | unfit (misuse : Misuse)

namespace Argument

/-- For text after a double dash. -/
def ofLong (argument : String) (text : List Char) : Argument :=
  let name := String.ofList (text.takeWhile (· != '='))
  let attached := match text.dropWhile (· != '=') with
    | [] => none
    | _ :: value => some (String.ofList value)
  if name = "help" ∨ name = "version" then
    if attached.isSome then .unfit (.needlessValue name)
    else if name = "help" then .help else .version
  else
    match Setting.ofLong? name with
    | some setting => .option setting attached
    | none => .unfit (.unknownOption argument)

/-- For a letter after a dash, and the text behind it. An equals sign before the value does not
count. -/
def ofShort (argument : String) (letter : Char) (text : List Char) : Argument :=
  if letter = 'h' then .help
  else if letter = 'V' then .version
  else
    match Setting.ofShort? letter with
    | none => .unfit (.unknownOption argument)
    | some setting =>
      .option setting <|
        match text with
        | [] => none
        | '=' :: value => some (String.ofList value)
        | value => some (String.ofList value)

def of (argument : String) : Argument :=
  match argument.toList with
  | ['-', '-'] => .divider
  | '-' :: '-' :: text => ofLong argument text
  | '-' :: letter :: text => ofShort argument letter text
  | _ => .free

/-- Whether the argument can be the value of the option before it. -/
def isValue (argument : String) : Bool :=
  match of argument with
  | .free => true
  | _ => false

end Argument

def readFrom (reading : Reading) : List String → Request
  | [] => reading.request
  | argument :: rest =>
    match Argument.of argument with
    | .free =>
      match reading.addFree argument with
      | .ok reading => readFrom reading rest
      | .error misuse => .refuse misuse
    | .divider => reading.addAllFree rest
    | .help => .help
    | .version => .version
    | .unfit misuse => .refuse misuse
    | .option setting (some value) =>
      match reading.options.set setting value with
      | .ok options => readFrom { reading with options } rest
      | .error misuse => .refuse misuse
    | .option setting none =>
      match rest with
      | [] => .refuse (.missingValue setting)
      | value :: rest =>
        if Argument.isValue value then
          match reading.options.set setting value with
          | .ok options => readFrom { reading with options } rest
          | .error misuse => .refuse misuse
        else .refuse (.missingValue setting)

def Request.ofArguments (arguments : List String) : Request := readFrom {} arguments

end Letterhead.CommandLine
