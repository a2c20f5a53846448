import BracketLint.Settings
import BracketLint.Toml.Decode
import BracketLint.Toml.Document

/-! The settings that a document describes. What it leaves out keeps its usual value, and what
it says beyond them is ignored. -/

namespace BracketLint

open Toml (Mismatch Placed Value)

def ScanOptions.ofValue : Value → Except (Placed Mismatch) ScanOptions :=
  Value.toGroup "struct ScanSection"
    [("strings", fun v o => do return { o with strings := ← v.toBool }),
      ("line_comment", fun v o => do return { o with lineComment := some (← v.toText) })]
    {}

def ReportSettings.ofValue : Value → Except (Placed Mismatch) ReportSettings :=
  Value.toGroup "struct ReportSection"
    [("style", fun v r => do
        return { r with style := ← v.toVariant (ReportStyle.all.map fun s => (s.name, s)) }),
      ("limit", fun v r => do return { r with limit := some (← v.toCount "usize") })]
    {}

namespace Settings

def ofValue : Value → Except (Placed Mismatch) Settings :=
  Value.toGroup "a document"
    [("scan", fun v s => do return { s with scan := ← ScanOptions.ofValue v }),
      ("report", fun v s => do return { s with report := ← ReportSettings.ofValue v })]
    {}

/-- Read settings from the text of a document. -/
def ofText (text : String) : Except Toml.Error Settings :=
  match Toml.Document.parse text with
  | .error why => .error (.malformed text why)
  | .ok document =>
    match ofValue document.toValue with
    | .error why => .error (.mismatch text why)
    | .ok settings => .ok settings

end Settings

end BracketLint
