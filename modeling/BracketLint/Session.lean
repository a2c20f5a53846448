import BracketLint.CommandLine
import BracketLint.Lint
import BracketLint.Logger
import BracketLint.Report.Printer
import BracketLint.Settings.Discovery

/-! A run of the program, from its arguments and the files around it to its exit code and what
it writes. How reports are drawn and events are written depends on where they are read. -/

namespace BracketLint

/-- Read a file and check it. -/
def lintFile (files : Files) (settings : Settings) (input : String) :
    Logged (Except LintError Unit) := do
  .note (.checkingFile input)
  match files.read input with
  | .error e => return .error (.io e.message)
  | .ok source =>
    match ← lint settings source fun _ => .plenty with
    | .error e => return .error e
    | .ok () =>
      .note (.noProblems input)
      return .ok ()

namespace Session

/-- How a run ends. -/
structure Outcome where
  exitCode : Nat
  stdout : String := ""
  stderr : String := ""
  deriving DecidableEq

def accepted : Nat := 0

def failed : Nat := 1

def badUsage : Nat := 2

/-- Where a run is read: what draws its reports, and what writes its events. -/
structure Terminal where
  handler : Handler
  logger : Logger

/-- A reader that is no terminal. -/
def Terminal.plain : Terminal := ⟨.ascii, .plain⟩

/-- Report an error, each piece by an event of its own. -/
def report (handler : Handler) (settings : ReportSettings) (path : String) (e : LintError) :
    Logged Nat :=
  ⟨((⟨handler, settings, path⟩ : Printer).print e).map .failure, failed⟩

/-- The work of a run, and its exit code. -/
def work (handler : Handler) (files : Files) (systemPath : Option String)
    (verbosity : Verbosity) (a : Arguments) : Logged Nat := do
  .note (.starting verbosity)
  .note (.parsedArguments a)
  match ← Settings.load files systemPath a.config with
  | .error e => report handler {} a.input e
  | .ok settings =>
    match ← lintFile files settings a.input with
    | .error e => report handler settings.report a.input e
    | .ok () =>
      .note .completed
      return accepted

/-- The level that is in force when a name means none. -/
def fallbackVerbosity : Verbosity := .upTo .warn

def badLevelText (name : String) : String :=
  "Invalid log level: " ++ name ++ ". Using 'warn' instead.\n"

def start (t : Terminal) (files : Files) (systemPath : Option String) (a : Arguments) : Outcome :=
  let named := Verbosity.ofName? a.logLevel
  let verbosity := named.getD fallbackVerbosity
  let complaint := if named.isSome then "" else badLevelText a.logLevel
  let done := work t.handler files systemPath verbosity a
  let shown := done.events.filter fun e => verbosity.shows e.level
  { exitCode := done.value, stderr := complaint ++ String.join (shown.mapIdx t.logger.line) }

def runOn (t : Terminal) (files : Files) (systemPath : Option String) (arguments : List String) :
    Outcome :=
  match CommandLine.read arguments with
  | .help => { exitCode := accepted, stdout := CommandLine.helpText }
  | .version => { exitCode := accepted, stdout := CommandLine.versionText }
  | .invalid fault => { exitCode := badUsage, stderr := fault.message }
  | .run a => start t files systemPath a

def run (files : Files) (systemPath : Option String) (arguments : List String) : Outcome :=
  runOn .plain files systemPath arguments

end Session

end BracketLint
