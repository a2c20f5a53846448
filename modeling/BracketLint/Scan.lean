import BracketLint.Finding
import BracketLint.Lexing

/-! One pass over the tokens with a stack of open brackets. Every closing bracket takes the
innermost open one with it, of its own kind or not, so one pass reports everything. What is
still open at the end is reported last, in source order. -/

namespace BracketLint

structure Opener where
  kind : BracketKind
  offset : Nat
  deriving DecidableEq

/-- What a scan passes over. -/
def Token.isPlain : Token → Bool
  | .text _ | .comment _ | .string true => true
  | .bracket _ | .string false => false

namespace Scan

/-- The open brackets, innermost first, after a closing bracket at `offset`. -/
def close (opened : List Opener) (found : BracketKind) (offset : Nat) :
    List Opener × Option Finding :=
  match opened with
  | [] => ([], some ⟨.unexpectedClosing found, offset⟩)
  | o :: rest =>
    if o.kind = found then (rest, none)
    else (rest, some ⟨.mismatchedClosing found o.kind o.offset, offset⟩)

/-- What one token does to the open brackets, and what it reports. -/
def step (opened : List Opener) (t : PlacedToken) : List Opener × Option Finding :=
  match t.token with
  | .bracket (.opening d) => (⟨d, t.start⟩ :: opened, none)
  | .bracket (.closing d) => close opened d t.start
  | .string false => (opened, some ⟨.unterminatedString, t.start⟩)
  | .string true | .comment _ | .text _ => (opened, none)

section Step

variable {opened : List Opener} {t : PlacedToken} {d : BracketKind}

theorem step_of_plain (h : t.token.isPlain = true) : step opened t = (opened, none) := by
  obtain ⟨token, start, stop⟩ := t
  cases token with
  | bracket b => cases h
  | string terminated =>
    cases terminated with
    | false => cases h
    | true => rfl
  | comment body => rfl
  | text run => rfl

theorem step_of_opening (h : t.token = .bracket (.opening d)) :
    step opened t = (⟨d, t.start⟩ :: opened, none) := by
  simp only [step, h]

theorem step_of_closing (h : t.token = .bracket (.closing d)) :
    step opened t = close opened d t.start := by
  simp only [step, h]

theorem step_of_unterminated (h : t.token = .string false) :
    step opened t = (opened, some ⟨.unterminatedString, t.start⟩) := by
  simp only [step, h]

end Step

/-- The report of brackets left open, given innermost first. -/
def leftOpen (opened : List Opener) : List Finding :=
  opened.reverse.map fun o => ⟨.unclosed o.kind, o.offset⟩

def findings (opened : List Opener) : List PlacedToken → List Finding
  | [] => leftOpen opened
  | t :: rest => (step opened t).2.toList ++ findings (step opened t).1 rest

@[simp] theorem findings_nil (opened : List Opener) : findings opened [] = leftOpen opened := rfl

theorem findings_cons (opened : List Opener) (t : PlacedToken) (rest : List PlacedToken) :
    findings opened (t :: rest) =
      (step opened t).2.toList ++ findings (step opened t).1 rest := rfl

end Scan

/-- Everything wrong with a source, in the order of reporting. -/
def scan (o : ScanOptions) (source : List Char) : List Finding :=
  Scan.findings [] (tokens o source)

end BracketLint
