import Closedness.Check
import Closedness.Config.Toml
import Closedness.Trace

/-!
# The command line

`CommandLine.run` is a whole run of the program as a function: from the arguments, the files, the
words of the parsers and whether to trace, to an exit status and the two texts written. Options may
stand anywhere among the units to check; the first argument that makes no sense ends the run. All
units are checked before anything is printed, so a unit that cannot be loaded leaves nothing on
standard output.
-/

namespace Closedness.CommandLine

def programName : String := "dblity"

def version : String := "0.1.0"

/-- The configuration file that is used when none is named. -/
def defaultConfig : String := "dblity.toml"

/-- The environment variable that turns on the trace. -/
def traceVariable : String := "DBLITY_TRACE"

/-! ## Arguments -/

/-- What the arguments ask for. -/
structure Request where
  /-- The files of the units to check. -/
  inputs : List String := []
  /-- The configuration file. -/
  config : Option String := none
  /-- Reports are printed as JSON. -/
  json : Bool := false
  /-- Warnings count as failures. -/
  denyWarnings : Bool := false
  showHelp : Bool := false
  showVersion : Bool := false
deriving DecidableEq

/-- An argument that makes no sense. -/
inductive UsageError where
  /-- The option needs a file. -/
  | missingFile (option : String)
  | unknownOption (option : String)
  /-- There is no unit to check. -/
  | noInput
deriving DecidableEq

/-- The error, worded for a reader. -/
def UsageError.message : UsageError → String
  | .missingFile option => option ++ " needs a file argument"
  | .unknownOption option => "Unknown option: " ++ option
  | .noInput => "No input unit provided"

/-- The argument is written as an option. -/
def isOption (arg : String) : Bool :=
  arg.toList.head? = some '-'

/-- Reads the arguments in order. -/
def Request.parse (request : Request) : List String → Except UsageError Request
  | [] => .ok request
  | arg :: rest =>
    if arg = "-h" ∨ arg = "--help" then parse { request with showHelp := true } rest
    else if arg = "-v" ∨ arg = "--version" then parse { request with showVersion := true } rest
    else if arg = "-c" ∨ arg = "--config" then
      match rest with
      | path :: rest => parse { request with config := some path } rest
      | [] => .error (.missingFile arg)
    else if arg = "--json" then parse { request with json := true } rest
    else if arg = "--deny-warnings" then parse { request with denyWarnings := true } rest
    else if isOption arg then .error (.unknownOption arg)
    else parse { request with inputs := request.inputs ++ [arg] } rest

/-! ## Files -/

/-- What reading a file gives. -/
inductive FileContent where
  | text (content : String)
  /-- The file cannot be read. -/
  | unreadable (reason : String)
  /-- A directory: there is something, but no file. -/
  | directory
deriving DecidableEq

/-- Why a path cannot be read when nothing is there. -/
def missingReason : String := "No such file or directory (os error 2)"

/-- Why a directory cannot be read. -/
def directoryReason : String := "Is a directory (os error 21)"

/-- The files that are there, by path; `none` where nothing is. -/
abbrev Files := String → Option FileContent

/-- The text of a file, or why it cannot be read. -/
def readFile (files : Files) (path : String) : Except String String :=
  match files path with
  | some (.text content) => .ok content
  | some (.unreadable reason) => .error reason
  | some .directory => .error directoryReason
  | none => .error missingReason

/-- There is a file at the path. -/
def isFile (files : Files) (path : String) : Bool :=
  match files path with
  | some .directory | none => false
  | some _ => true

/-! ## Loading -/

/-- What the parsers say of the texts that they refuse. -/
structure Reasons where
  /-- Why a text describes no unit. -/
  unit : String → String
  /-- Why a text is no configuration. -/
  config : String → String

/-- Loads the configuration at a path. -/
def readConfig (reasons : Reasons) (files : Files) (path : String) : Except ConfigError Config :=
  match readFile files path with
  | .ok text => (Config.load reasons.config text).mapError (ConfigError.withPath path)
  | .error reason => .error (.unreadable path reason)

/-- Loads the configuration of a run: the one named, or else the default file if it is there. -/
def loadConfig (reasons : Reasons) (files : Files) (path : Option String) :
    Except ConfigError Config :=
  match path with
  | some path => readConfig reasons files path
  | none =>
    if isFile files defaultConfig then readConfig reasons files defaultConfig else .ok {}

/-- Why a unit cannot be checked. -/
inductive LoadError where
  | unreadable (path reason : String)
  | unit (error : UnitError)
deriving DecidableEq

/-- The error, worded for a reader; where it points into the unit, the place comes last. -/
def LoadError.message : LoadError → String
  | .unreadable path reason => "cannot read '" ++ path ++ "': " ++ reason
  | .unit error =>
    match error.span? with
    | some span => error.message ++ " (at " ++ span.position ++ ")"
    | none => error.message

/-- Loads the unit at a path. -/
def loadUnit (reasons : Reasons) (files : Files) (path : String) :
    Except LoadError CompilationUnit :=
  match readFile files path with
  | .ok text => (CompilationUnit.load reasons.unit text).mapError .unit
  | .error reason => .error (.unreadable path reason)

/-! ## Running -/

/-- What a run leaves: its exit status and what it wrote. -/
structure Result where
  status : Nat
  stdout : String := ""
  stderr : String := ""
deriving DecidableEq

/-- The exit status of a run without failing findings. -/
def statusOk : Nat := 0

/-- The exit status of a run with failing findings. -/
def statusFindings : Nat := 1

/-- The exit status of a run that could not be done. -/
def statusUsage : Nat := 2

def helpText : String :=
  programName ++ " v" ++ version ++ "\n" ++
  "\n" ++
  "USAGE:\n" ++
  "    " ++ programName ++ " [OPTIONS] <unit.json>...\n" ++
  "\n" ++
  "OPTIONS:\n" ++
  "    -h, --help        Show this help message\n" ++
  "    -v, --version     Show version information\n" ++
  "    -c, --config      Configuration file (default: ./" ++ defaultConfig ++ " when present)\n" ++
  "    --json            Print reports as JSON\n" ++
  "    --deny-warnings   Exit with status 1 on warnings, not only on errors\n" ++
  "\n" ++
  "EXIT STATUS:\n" ++
  "    0  no failing findings\n" ++
  "    1  an error (or, with --deny-warnings, a warning) was reported\n" ++
  "    2  usage, configuration or input error\n" ++
  "\n"

/-- The result of a run whose arguments make no sense. -/
def usageResult (error : UsageError) : Result :=
  { status := statusUsage
    stderr := "Error: " ++ error.message ++ "\nUse --help for usage information\n" }

/-- The units of a run, checked: the reports in order, what was traced, and the error of the first
unit that could not be loaded. -/
structure Checked where
  reports : List Report := []
  trace : String := ""
  error : Option (String × LoadError) := none

/-- The trace of a unit. -/
def traceText (config : Config) (u : CompilationUnit) : String :=
  String.join ((traceNotes config u).map Note.traceLine)

/-- Checks the units at the given paths, up to the first that cannot be loaded. -/
def checkAll (reasons : Reasons) (files : Files) (traced : Bool) (config : Config) :
    List String → Checked
  | [] => {}
  | path :: rest =>
    match loadUnit reasons files path with
    | .error e => { error := some (path, e) }
    | .ok u =>
      let others := checkAll reasons files traced config rest
      { others with
        reports := check config u :: others.reports
        trace := (if traced then traceText config u else "") ++ others.trace }

/-- What is printed about the reports of a run. -/
def reportText (json : Bool) (reports : List Report) : String :=
  if json then Report.listText reports ++ "\n"
  else String.join (reports.flatMap fun r => r.lines.map fun line => line ++ "\n")

/-- The exit status that the reports of a run call for. -/
def reportStatus (denyWarnings : Bool) (reports : List Report) : Nat :=
  let threshold : Severity := if denyWarnings then .warning else .error
  if reports.any fun r => 0 < r.countAtLeast threshold then statusFindings else statusOk

/-- Checks the units of a request under a configuration. -/
def checkInputs (reasons : Reasons) (files : Files) (traced : Bool) (request : Request)
    (config : Config) : Result :=
  let checked := checkAll reasons files traced config request.inputs
  match checked.error with
  | some (path, e) =>
    { status := statusUsage
      stderr := checked.trace ++ "Error: " ++ path ++ ": " ++ e.message ++ "\n" }
  | none =>
    { status := reportStatus request.denyWarnings checked.reports
      stdout := reportText request.json checked.reports
      stderr := checked.trace }

/-- Does what a request asks for. -/
def runRequest (reasons : Reasons) (files : Files) (traced : Bool) (request : Request) : Result :=
  if request.showHelp then { status := statusOk, stdout := helpText }
  else if request.showVersion then
    { status := statusOk, stdout := programName ++ " v" ++ version ++ "\n" }
  else if request.inputs = [] then usageResult .noInput
  else
    match loadConfig reasons files request.config with
    | .ok config => checkInputs reasons files traced request config
    | .error e => { status := statusUsage, stderr := "Error: " ++ e.message ++ "\n" }

/-- A whole run. -/
def run (reasons : Reasons) (files : Files) (traced : Bool) (args : List String) : Result :=
  match Request.parse {} args with
  | .ok request => runRequest reasons files traced request
  | .error e => usageResult e

/-- The paths that a run may read. -/
def paths (args : List String) : List String :=
  match Request.parse {} args with
  | .ok request => request.config.getD defaultConfig :: request.inputs
  | .error _ => []

end Closedness.CommandLine
