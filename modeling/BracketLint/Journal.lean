import BracketLint.Arguments
import BracketLint.Text.Quoted

/-! What the program notes down while it works. Every event has a level, the part of the
program it comes from, a message, and named values. -/

namespace BracketLint

inductive Level where
  | error
  | warn
  | info
  | debug
  | trace
  deriving DecidableEq

namespace Level

def all : List Level := [error, warn, info, debug, trace]

def name : Level → String
  | error => "ERROR"
  | warn => "WARN"
  | info => "INFO"
  | debug => "DEBUG"
  | trace => "TRACE"

/-- The number of the level, the gravest one first. -/
def rank : Level → Nat
  | error => 1
  | warn => 2
  | info => 3
  | debug => 4
  | trace => 5

end Level

/-- The least grave level that is shown, or none when nothing is. -/
inductive Verbosity where
  | off
  | upTo (level : Level)
  deriving DecidableEq

namespace Verbosity

def all : List Verbosity := off :: Level.all.map upTo

def shows : Verbosity → Level → Bool
  | off, _ => false
  | upTo most, level => level.rank ≤ most.rank

def name : Verbosity → String
  | off => "Off"
  | upTo .error => "Error"
  | upTo .warn => "Warn"
  | upTo .info => "Info"
  | upTo .debug => "Debug"
  | upTo .trace => "Trace"

/-- Reads a name in upper or lower case. -/
def ofName? (s : String) : Option Verbosity :=
  all.find? fun v => v.name.toList.map Char.toLower == s.toList.map Char.toLower

end Verbosity

/-- Where a configuration file was found. -/
inductive ConfigOrigin where
  | explicit
  | project
  | system
  deriving DecidableEq

def ConfigOrigin.name : ConfigOrigin → String
  | explicit => "explicit"
  | project => "local"
  | system => "system"

inductive Event where
  /-- A record is in the list. -/
  | recorded (position : UInt32) (messageLength : Nat)
  | clearing (count : Nat)
  | releasing (count : Nat)
  | mismatchedPair (openedAt position : UInt32)
  | scanFinished (tokens records : Nat)
  | sourceRejected (records : Nat)
  | checkingSource (bytes : Nat)
  | sourceAccepted
  | loadingConfig (origin : ConfigOrigin) (path : String)
  | noSystemConfig (path : String)
  | noSystemDirectory
  | defaultConfig
  | checkingFile (path : String)
  | noProblems (path : String)
  | starting (verbosity : Verbosity)
  | parsedArguments (arguments : Arguments)
  /-- One piece of the report of what went wrong. -/
  | failure (report : String)
  | completed
  deriving DecidableEq

namespace Event

def level : Event → Level
  | failure _ => .error
  | sourceRejected _ | checkingSource _ | loadingConfig .. | checkingFile _ | noProblems _
  | starting _ | completed => .info
  | scanFinished .. | sourceAccepted | noSystemConfig _ | noSystemDirectory | defaultConfig
  | parsedArguments _ => .debug
  | recorded .. | clearing _ | releasing _ | mismatchedPair .. => .trace

/-- The part of the program an event comes from. -/
def target : Event → String
  | recorded .. | clearing _ | releasing _ => "quire_diag::list"
  | mismatchedPair .. | scanFinished .. => "quire_parser::scanner"
  | sourceRejected _ => "quire_parser"
  | loadingConfig .. | noSystemConfig _ | noSystemDirectory | defaultConfig =>
    "quire_cli::config"
  | checkingFile _ | noProblems _ => "quire_cli"
  | checkingSource _ | sourceAccepted | starting _ | parsedArguments _ | failure _
  | completed => "quire"

def message : Event → String
  | recorded .. => "Recorded diagnostic"
  | clearing _ => "Clearing diagnostics"
  | releasing _ => "Releasing diagnostics"
  | mismatchedPair .. => "Mismatched bracket pair"
  | scanFinished .. => "Scan finished"
  | sourceRejected _ => "Source rejected"
  | checkingSource _ => "Checking source"
  | sourceAccepted => "Source checked successfully"
  | loadingConfig origin _ => "Loading configuration from " ++ origin.name ++ " path"
  | noSystemConfig _ => "System configuration file not found"
  | noSystemDirectory => "Could not determine platform-specific config directory"
  | defaultConfig => "No configuration file found, using default configuration"
  | checkingFile _ => "Checking file"
  | noProblems _ => "No problems found"
  | starting _ => "Starting Quire"
  | parsedArguments _ => "Parsed arguments"
  | failure report => report
  | completed => "Completed successfully"

def argumentsText (a : Arguments) : String :=
  let config := match a.config with
    | none => "None"
    | some path => "Some(" ++ Quoted.encode path ++ ")"
  "Args \x7b input: " ++ Quoted.encode a.input ++ ", config: " ++ config ++
    ", log_level: " ++ Quoted.encode a.logLevel ++ " \x7d"

def fields : Event → List (String × String)
  | recorded position length =>
    [("position", toString position.toNat), ("message_len", toString length)]
  | clearing count | releasing count => [("count", toString count)]
  | mismatchedPair openedAt position =>
    [("opened_at", toString openedAt.toNat), ("pos", toString position.toNat)]
  | scanFinished tokens records =>
    [("tokens_len", toString tokens), ("diagnostics_len", toString records)]
  | sourceRejected records => [("diagnostics_len", toString records)]
  | checkingSource bytes => [("source_len", toString bytes)]
  | loadingConfig _ path | noSystemConfig path => [("path", path)]
  | checkingFile path | noProblems path => [("input_path", path)]
  | starting verbosity => [("log_level", verbosity.name)]
  | parsedArguments a => [("args", argumentsText a)]
  | sourceAccepted | noSystemDirectory | defaultConfig | failure _ | completed => []

/-- Named values, each after a blank. -/
def valuesText (values : List (String × String)) : String :=
  String.join (values.map fun v => " " ++ v.1 ++ "=" ++ v.2)

def line (e : Event) : String :=
  e.level.name ++ " " ++ e.target ++ " " ++ e.message ++ valuesText e.fields

end Event

/-- A result and the events on the way to it, in order. -/
structure Logged (α : Type) where
  events : List Event
  value : α

namespace Logged

def note (e : Event) : Logged Unit := ⟨[e], ()⟩

instance : Monad Logged where
  pure x := ⟨[], x⟩
  bind x f := ⟨x.events ++ (f x.value).events, (f x.value).value⟩

variable {α β : Type}

@[simp] theorem value_pure (x : α) : (pure x : Logged α).value = x := rfl

@[simp] theorem events_pure (x : α) : (pure x : Logged α).events = [] := rfl

@[simp] theorem value_bind (x : Logged α) (f : α → Logged β) :
    (x >>= f).value = (f x.value).value := rfl

@[simp] theorem events_bind (x : Logged α) (f : α → Logged β) :
    (x >>= f).events = x.events ++ (f x.value).events := rfl

@[simp] theorem events_note (e : Event) : (note e).events = [e] := rfl

@[simp] theorem value_note (e : Event) : (note e).value = () := rfl

end Logged

end BracketLint
