import BracketLint.Session

/-! The command line. The files that a run can look at are read before it starts. -/

namespace BracketLint.Main

/-- The system's number for an attempt to read a directory. -/
def directoryCode : UInt32 := 21

/-- Why an attempt to read fails. -/
def reason : IO.Error → FileError
  | .noFileOrDirectory .. => .notFound
  | .permissionDenied .. => .permissionDenied
  | .inappropriateType _ code _ => if code = directoryCode then .isADirectory else .notADirectory
  | e => .other (toString e)

/-- Whether a path leads anywhere. What it leads to need not be readable. -/
def isThere (path : String) : IO Bool := do
  try
    let _ ← IO.FS.realPath path
    return true
  catch _ => return false

/-- What a path leads to on disk. -/
def entry (path : String) : IO (Except FileError Entry) := do
  try
    return .ok (.file (← IO.FS.readBinFile path).toList)
  catch e =>
    let why := reason e
    if why = .isADirectory then return .ok .directory
    else if ← isThere path then return .ok (.unreadable why)
    else return .error why

/-- The configuration file of the system, below the directory for configurations. -/
def systemPath : IO (Option String) := do
  let below (directory : String) : String := directory ++ "/quire/config.toml"
  match ← IO.getEnv "XDG_CONFIG_HOME" with
  | some directory =>
    if "/".isPrefixOf directory then return some (below directory)
  | none => pure ()
  match ← IO.getEnv "HOME" with
  | some home => return if home.isEmpty then none else some (below (home ++ "/.config"))
  | none => return none

/-- The paths that a run with these arguments can look at. -/
def paths (system : Option String) (arguments : List String) : List String :=
  match CommandLine.read arguments with
  | .run a => [a.input, Settings.projectPath] ++ a.config.toList ++ system.toList
  | _ => []

def run (arguments : List String) : IO UInt32 := do
  let system ← systemPath
  let found ← (paths system arguments).mapM fun path => do
    return (path, ← entry path)
  let files : Files := fun path => (found.lookup path).getD (.error .notFound)
  let outcome := Session.run files system arguments
  IO.print outcome.stdout
  IO.eprint outcome.stderr
  return UInt32.ofNat outcome.exitCode

end BracketLint.Main

def main (arguments : List String) : IO UInt32 := BracketLint.Main.run arguments
