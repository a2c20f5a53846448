import BracketLint.LintError
import BracketLint.Settings

/-! Checking a source under the settings of a configuration. -/

namespace BracketLint

/-- The error keeps the source, so that excerpts of it can be shown. -/
def lint (settings : Settings) (source : String) (memory : Nat → Memory) :
    Logged (Except LintError Unit) := do
  .note (.checkingSource source.utf8ByteSize)
  match ← check settings.scan source.toList memory with
  | .ok () =>
    .note .sourceAccepted
    return .ok ()
  | .error e => return .error (.check e source)

end BracketLint
