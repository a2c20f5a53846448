import BracketLint.Report.Drawing
import BracketLint.Report.Item
import BracketLint.Settings

/-! Printing what an error gives to report, in the style of the settings. Items past the limit
are only counted. -/

namespace BracketLint

/-- Draws an item over several lines, each with its end. It may fail to draw one. -/
structure Handler where
  draw : ReportItem → Option String
  newline_mem : ∀ {x s}, draw x = some s → '\n' ∈ s.toList

namespace Handler

/-- Draws in one colour with the characters of a theme. -/
def ofTheme (theme : Theme) : Handler where
  draw
    | .record r source _ =>
      some (String.ofList (Drawing.excerpt theme source r.text r.start.toNat))
    | .error e => some (String.ofList (Drawing.error theme e.code? e.cause? e.message.toList))
  newline_mem := by
    intro x s h
    cases x with
    | record r source place =>
      cases h
      rw [String.toList_ofList]
      exact Drawing.newline_mem_excerpt ..
    | error e =>
      cases h
      rw [String.toList_ofList]
      exact Drawing.newline_mem_error ..

instance : Coe Theme Handler := ⟨ofTheme⟩

def unicode : Handler := Theme.unicode

def ascii : Handler := Theme.ascii

end Handler

structure Printer where
  handler : Handler
  settings : ReportSettings
  /-- The name of the source in one-line reports. -/
  path : String

namespace Printer

/-- An item as it is drawn. One that cannot be drawn has its text shown alone. -/
def fancy (p : Printer) (x : ReportItem) : String :=
  (p.handler.draw x).getD (p.path ++ ": " ++ x.text)

def short (p : Printer) : ReportItem → String
  | .record r _ place => p.path ++ ":" ++ place.text ++ ": " ++ String.ofList r.text
  | .error e => p.path ++ ": " ++ e.message

def item (p : Printer) (x : ReportItem) : String :=
  match p.settings.style with
  | .fancy => p.fancy x
  | .short => p.short x

/-- The last line when the limit leaves out so many items. -/
def note (hidden : Nat) : String := toString hidden ++ " more diagnostics not shown"

/-- How many of so many items are shown. -/
def shown (p : Printer) (total : Nat) : Nat :=
  match p.settings.limit with
  | none => total
  | some limit => min limit total

def print (p : Printer) (e : LintError) : List String :=
  let total := e.items.length
  let shown := p.shown total
  (e.items.take shown).map p.item ++ if shown < total then [note (total - shown)] else []

end Printer

end BracketLint
