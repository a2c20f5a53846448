/-! The three kinds of bracket pair and the six characters that write them.
Reading a bracket and writing it are inverse to each other. -/

namespace BracketLint

inductive BracketKind where
  | paren
  | bracket
  | brace
  deriving DecidableEq

namespace BracketKind

def all : List BracketKind := [paren, bracket, brace]

def opening : BracketKind → Char
  | paren => '('
  | bracket => '['
  | brace => '{'

def closing : BracketKind → Char
  | paren => ')'
  | bracket => ']'
  | brace => '}'

def name : BracketKind → String
  | paren => "Paren"
  | bracket => "Bracket"
  | brace => "Brace"

theorem mem_all (d : BracketKind) : d ∈ all := by cases d <;> simp [all]

end BracketKind

/-- One half of a pair. -/
inductive Bracket where
  | opening (kind : BracketKind)
  | closing (kind : BracketKind)
  deriving DecidableEq

namespace Bracket

def kind : Bracket → BracketKind
  | opening d => d
  | closing d => d

def toChar : Bracket → Char
  | opening d => d.opening
  | closing d => d.closing

def ofChar? : Char → Option Bracket
  | '(' => some (opening .paren)
  | ')' => some (closing .paren)
  | '[' => some (opening .bracket)
  | ']' => some (closing .bracket)
  | '{' => some (opening .brace)
  | '}' => some (closing .brace)
  | _ => none

@[simp] theorem ofChar?_toChar (b : Bracket) : ofChar? b.toChar = some b := by
  rcases b with d | d <;> cases d <;> rfl

theorem toChar_of_ofChar? {c : Char} {b : Bracket} (h : ofChar? c = some b) : b.toChar = c := by
  unfold ofChar? at h
  split at h <;> simp_all [toChar, BracketKind.opening, BracketKind.closing] <;> subst h <;> rfl

theorem ofChar?_eq_some_iff {c : Char} {b : Bracket} : ofChar? c = some b ↔ c = b.toChar :=
  ⟨fun h => (toChar_of_ofChar? h).symm, fun h => h ▸ ofChar?_toChar b⟩

theorem toChar_ne_quote (b : Bracket) : b.toChar ≠ '"' := by
  rcases b with d | d <;> cases d <;> decide

theorem toChar_ne_newline (b : Bracket) : b.toChar ≠ '\n' := by
  rcases b with d | d <;> cases d <;> decide

end Bracket

end BracketLint
