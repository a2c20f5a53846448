import BracketLint.Recording

/-! The verdict on one source: accepted, or rejected with everything found, or given up for
lack of memory. -/

namespace BracketLint

inductive CheckError where
  | rejected (records : RecordList)
  | outOfMemory (cause : OutOfMemory)

namespace CheckError

/-- The first message, and how many follow it. -/
def summary (l : RecordList) : String :=
  match l.first? with
  | none => "no diagnostics recorded"
  | some d =>
    String.ofList d.text ++
      if 1 < l.size then " (+" ++ toString (l.size - 1) ++ " more)" else ""

def message : CheckError → String
  | rejected l => summary l
  | outOfMemory e => e.message

/-- What was recorded, if the scan came to its end. -/
def records? : CheckError → Option RecordList
  | rejected l => some l
  | outOfMemory _ => none

/-- The error with its fields, for debugging. -/
def inspect : CheckError → String
  | rejected l => "Rejected(" ++ l.inspect ++ ")"
  | outOfMemory e => "Diagnostic(" ++ e.inspect ++ ")"

end CheckError

/-- Scan a source into a list of its own. -/
def check (o : ScanOptions) (source : List Char) (memory : Nat → Memory) :
    Logged (Except CheckError Unit) := do
  let (outcome, l) ← scanInto o source memory .empty
  match outcome with
  | .error e => return .error (.outOfMemory e)
  | .ok () =>
    if l.isEmpty then
      l.release
      return .ok ()
    else
      .note (.sourceRejected l.size)
      return .error (.rejected l)

end BracketLint
