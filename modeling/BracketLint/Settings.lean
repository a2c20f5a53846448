import BracketLint.ScanOptions

/-! The settings that a configuration file can change. -/

namespace BracketLint

inductive ReportStyle where
  /-- Excerpts of the source with a pointer at each problem. -/
  | fancy
  /-- One line for each problem. -/
  | short
  deriving DecidableEq

namespace ReportStyle

def all : List ReportStyle := [fancy, short]

def name : ReportStyle → String
  | fancy => "fancy"
  | short => "short"

def ofName? (s : String) : Option ReportStyle := all.find? (·.name == s)

end ReportStyle

structure ReportSettings where
  style : ReportStyle := .fancy
  /-- The most reports that are shown. -/
  limit : Option Nat := none
  deriving DecidableEq

structure Settings where
  scan : ScanOptions := {}
  report : ReportSettings := {}
  deriving DecidableEq

end BracketLint
