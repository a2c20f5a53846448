import BracketLint.Bracket

/-! What a scan finds wrong, where, and the words for it. -/

namespace BracketLint

inductive Problem where
  /-- A closing bracket with nothing open. -/
  | unexpectedClosing (found : BracketKind)
  /-- A closing bracket that meets an open one of another kind. -/
  | mismatchedClosing (found expected : BracketKind) (openedAt : Nat)
  | unterminatedString
  /-- An opening bracket that is still open at the end. -/
  | unclosed (opened : BracketKind)
  deriving DecidableEq

namespace Problem

def message : Problem → List Char
  | unexpectedClosing d => "unexpected closing \x60".toList ++ [d.closing, '\x60']
  | mismatchedClosing d e _ =>
    "mismatched closing \x60".toList ++ [d.closing] ++ "\x60, expected \x60".toList ++
      [e.closing, '\x60']
  | unterminatedString => "unterminated string literal".toList
  | unclosed d => "unclosed \x60".toList ++ [d.opening, '\x60']

def isUnclosed : Problem → Bool
  | unclosed _ => true
  | _ => false

end Problem

/-- A problem and the byte offset it is reported at. -/
structure Finding where
  problem : Problem
  offset : Nat
  deriving DecidableEq

end BracketLint
