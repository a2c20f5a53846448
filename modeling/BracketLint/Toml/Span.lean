import BracketLint.Text.Utf8

/-! Where things stand in a document, and how such a place is shown. -/

namespace BracketLint.Toml

/-- The bytes `start ≤ i < stop` of a document. -/
structure Span where
  start : Nat
  stop : Nat
  deriving DecidableEq

/-- Something, and where it stands. -/
structure Placed (α : Type) where
  what : α
  span : Span
  deriving DecidableEq

namespace Span

/-- The empty span where a span starts. -/
def before (s : Span) : Span := ⟨s.start, s.start⟩

/-- The empty span where a span stops. -/
def after (s : Span) : Span := ⟨s.stop, s.stop⟩

/-- A span that was counted from `n` on. -/
def shift (n : Nat) (s : Span) : Span := ⟨n + s.start, n + s.stop⟩

/-- The line and the column of a byte, both from zero, in what is left of a document. A byte
beyond the end counts from the last one. Columns are characters before one that ends with the
byte, and bytes before one that goes on after it. -/
def lineColumn (byte line lineStart column position : Nat) : List Char → Nat × Nat
  | [] => (line, byte)
  | c :: rest =>
    let stop := position + c.utf8Size
    if byte < stop ∨ rest.isEmpty then
      let last := min byte (stop - 1)
      (line, (if last = stop - 1 then column else last - lineStart) + (byte - last))
    else if c = '\n' then lineColumn byte (line + 1) stop 0 stop rest
    else lineColumn byte line lineStart (column + 1) stop rest

/-- A line of a document. -/
def lineAt : Nat → List Char → List Char
  | 0, cs => cs.takeWhile (· ≠ '\n')
  | n + 1, cs => lineAt n ((cs.dropWhile (· ≠ '\n')).drop 1)

/-- The line where a span starts, with marks below the part of the span in it. There is always
a mark. -/
def excerpt (document : String) (s : Span) : String :=
  let (line, column) := lineColumn s.start 0 0 0 0 document.toList
  let content := lineAt line document.toList
  let number := toString (line + 1)
  let repeated (n : Nat) (c : Char) : String := String.ofList (List.replicate n c)
  let gutter := repeated (number.length + 1) ' ' ++ "|"
  let marks := min (s.stop - s.start) (Utf8.byteLength content - column)
  "TOML parse error at line " ++ number ++ ", column " ++ toString (column + 1) ++ "\n" ++
    gutter ++ "\n" ++ number ++ " | " ++ String.ofList content ++ "\n" ++
    gutter ++ repeated (column + 1) ' ' ++ repeated (max 1 marks) '^' ++ "\n"

end Span

end BracketLint.Toml
