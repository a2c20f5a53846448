import BracketLint.Text.Utf8

/-! The part of a source around an offset: the line it is on and some lines before and after.
An end of line is a newline, a carriage return, or both in that order. -/

namespace BracketLint

/-- The bytes `start ≤ i < stop` around an offset. The line before `start` is the one numbered
`line`, and `column` is that of the offset when no lines around it are wanted. -/
structure Excerpt where
  start : Nat
  stop : Nat
  line : Nat
  column : Nat
  deriving DecidableEq

namespace Excerpt

/-- Other bytes one by one, and ends of lines whole. -/
inductive Piece where
  | other
  | lineEnd (bytes : Nat)

def pieces : List UInt8 → List Piece
  | [] => []
  | [b] => [if b = 10 ∨ b = 13 then .lineEnd 1 else .other]
  | b :: c :: rest =>
    if b = 13 ∧ c = 10 then .lineEnd 2 :: pieces rest
    else (if b = 10 ∨ b = 13 then .lineEnd 1 else .other) :: pieces (c :: rest)

/-- What is known on the way through a source. -/
structure Walk where
  offset : Nat := 0
  /-- Lines before those that are kept. -/
  skipped : Nat := 0
  column : Nat := 0
  /-- The starts of the lines kept before the one of the offset. -/
  before : List Nat := []
  lineStart : Nat := 0
  /-- The byte before the offset has been passed. -/
  reached : Bool := false
  /-- The line of the offset has ended. -/
  lineDone : Bool := false
  linesAfter : Nat := 0

/-- Pass an end of line whose last byte is at `last`. -/
def Walk.endLine (w : Walk) (position context last : Nat) : Walk :=
  let w :=
    if last < position then
      let before := w.before ++ [w.lineStart]
      if context < before.length then
        { w with column := 0, skipped := w.skipped + 1, before := before.tail }
      else { w with column := 0, before }
    else if !w.reached then w
    else if w.lineDone then { w with column := 0, linesAfter := w.linesAfter + 1 }
    else { w with column := 0, lineDone := true }
  { w with lineStart := last + 1 }

/-- Pass a piece, and say whether the excerpt ends after it. -/
def Walk.pass (w : Walk) (position context : Nat) (p : Piece) : Walk × Bool :=
  let last := match p with
    | .other => w.offset
    | .lineEnd bytes => w.offset + bytes - 1
  let passed := match p with
    | .other => if last < position then { w with column := w.column + 1 } else w
    | .lineEnd _ => w.endLine position context last
  let reached := w.reached || position - 1 ≤ last
  ({ passed with reached, offset := last + 1 }, reached && context ≤ passed.linesAfter)

def walk (position context : Nat) (w : Walk) : List Piece → Walk
  | [] => w
  | p :: rest =>
    let (next, done) := w.pass position context p
    if done then next else walk position context next rest

/-- The excerpt with `context` lines before and after the line of a position, unless the
position is out of bounds. -/
def around? (source : List UInt8) (position context : Nat) : Option Excerpt :=
  let w := walk position context {} (pieces source)
  if w.offset < position - 1 then none
  else if context = 0 then some ⟨w.before.head?.getD position, w.offset, w.skipped, w.column⟩
  else some ⟨w.before.head?.getD 0, w.offset, w.skipped, 0⟩

def text (x : Excerpt) (source : List UInt8) : List Char :=
  Utf8.lossy ((source.drop x.start).take (x.stop - x.start))

end Excerpt

/-- A line of an excerpt: its number, the bytes it spans with its end, and its text. -/
structure ExcerptLine where
  number : Nat
  start : Nat
  length : Nat
  text : List Char

namespace ExcerptLine

/-- The lines of a text. The line before it has the number `number`, the current line starts
at `start` with the characters `front`, the last one first, and the next character is at
`offset`. A carriage return alone does not end a line here. -/
def split (number start offset : Nat) (front : List Char) : List Char → List ExcerptLine
  | [] => []
  | '\r' :: '\n' :: rest =>
    ⟨number + 1, start, offset + 2 - start, front.reverse⟩ ::
      split (number + 1) (offset + 2) (offset + 2) [] rest
  | '\n' :: rest =>
    ⟨number + 1, start, offset + 1 - start, front.reverse⟩ ::
      split (number + 1) (offset + 1) (offset + 1) [] rest
  | [c] =>
    [⟨if c = '\r' then number else number + 1, start, offset + c.utf8Size - start,
      (c :: front).reverse⟩]
  | c :: rest => split number start (offset + c.utf8Size) (c :: front) rest

end ExcerptLine

end BracketLint
