import BracketLint.Files
import BracketLint.LintError
import BracketLint.Settings.Decode

/-! Which configuration file counts: the one that was asked for, or else that of the project,
or else that of the system. The first one that is there decides, also when it is broken. -/

namespace BracketLint.Settings

/-- The configuration file of a project. -/
def projectPath : String := "quire/config.toml"

def ofFile (files : Files) (path : String) : Except LintError Settings :=
  if files.contains path then
    match files.read path with
    | .error e => .error (.io e.message)
    | .ok text =>
      match ofText text with
      | .error cause => .error (.config (.malformed path cause))
      | .ok settings => .ok settings
  else .error (.config (.missingFile path))

/-- Load the settings that count. The system may have no place for a configuration file. -/
def load (files : Files) (systemPath explicitPath : Option String) :
    Logged (Except LintError Settings) := do
  match explicitPath with
  | some path =>
    .note (.loadingConfig .explicit path)
    return ofFile files path
  | none =>
    if files.contains projectPath then
      .note (.loadingConfig .project projectPath)
      return ofFile files projectPath
    match systemPath with
    | some path =>
      if files.contains path then
        .note (.loadingConfig .system path)
        return ofFile files path
      .note (.noSystemConfig path)
    | none => .note .noSystemDirectory
    .note .defaultConfig
    return .ok {}

end BracketLint.Settings
