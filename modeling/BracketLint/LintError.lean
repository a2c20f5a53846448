import BracketLint.Check
import BracketLint.Toml.Error

/-! Everything that can go wrong in a run. -/

namespace BracketLint

inductive ConfigError where
  | malformed (path : String) (cause : Toml.Error)
  | missingFile (path : String)

namespace ConfigError

/-- The configuration file this is about. -/
def path : ConfigError → String
  | malformed path _ => path
  | missingFile path => path

def message : ConfigError → String
  | malformed path cause =>
    "Failed to parse TOML configuration in " ++ path ++ ": " ++ cause.message
  | missingFile path => "Missing configuration file: " ++ path

/-- The error with its fields, for debugging. -/
def inspect : ConfigError → String
  | malformed path cause =>
    "Parse \x7b path: " ++ Quoted.encode path ++ ", message: " ++ Quoted.encode cause.message ++
      " \x7d"
  | missingFile path => "MissingFile(" ++ Quoted.encode path ++ ")"

end ConfigError

inductive LintError where
  | io (text : String)
  | config (cause : ConfigError)
  /-- A check of `source` failed. -/
  | check (cause : CheckError) (source : String)

namespace LintError

def message : LintError → String
  | io text => "I/O error: " ++ text
  | config cause => "Configuration error: " ++ cause.message
  | check cause _ => cause.message

/-- The name of the kind of error, if it is not about the source. -/
def code? : LintError → Option String
  | io _ => some "quire::io"
  | config _ => some "quire::config"
  | check (.outOfMemory _) _ => some "quire::alloc"
  | check (.rejected _) _ => none

/-- The message of the error below this one. -/
def cause? : LintError → Option String
  | io text => some text
  | config cause => some cause.message
  | check .. => none

/-- The error with its fields, for debugging. -/
def inspect : LintError → String
  | io text => "Io(Custom \x7b kind: Other, error: " ++ Quoted.encode text ++ " \x7d)"
  | config cause => "Config(" ++ cause.inspect ++ ")"
  | check cause source =>
    "Parse \x7b err: " ++ cause.inspect ++ ", src: " ++ Quoted.encode source ++ " \x7d"

end LintError

end BracketLint
