import BracketLint.LineMap
import BracketLint.LintError

/-! What an error gives to report. A rejected source gives an item for each record, in order,
and any other error gives one. -/

namespace BracketLint

/-- One thing to report. -/
inductive ReportItem where
  /-- A record about a place in a source. -/
  | record (r : Record) (source : String) (place : LineColumn)
  | error (e : LintError)

/-- A place in a source that a report points at. -/
structure Label where
  offset : Nat
  length : Nat
  isPrimary : Bool
  text : Option String

namespace ReportItem

def text : ReportItem → String
  | record r _ _ => String.ofList r.text
  | error e => e.message

def code? : ReportItem → Option String
  | record .. => none
  | error e => e.code?

def cause? : ReportItem → Option String
  | record .. => none
  | error e => e.cause?

def source? : ReportItem → Option String
  | record _ source _ => some source
  | error _ => none

def labels? : ReportItem → Option (List Label)
  | record r _ _ => some [⟨r.start.toNat, r.stop.toNat - r.start.toNat, true, none⟩]
  | error _ => none

def place? : ReportItem → Option LineColumn
  | record _ _ p => some p
  | error _ => none

/-- The item with its fields, for debugging. -/
def inspect : ReportItem → String
  | record r _ _ => "Diagnostic(DiagnosticAdapter \x7b diag: " ++ r.inspect ++ " \x7d)"
  | error e => "Error(" ++ e.inspect ++ ")"

end ReportItem

/-- The items that an error gives, in order. -/
def LintError.items : LintError → List ReportItem
  | check (.rejected l) source =>
    let lines := LineMap.ofBytes (Utf8.encode source.toList)
    l.toList.map fun r => .record r source (lines.location r.start)
  | e => [.error e]

end BracketLint
