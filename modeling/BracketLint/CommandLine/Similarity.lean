import BracketLint.Decimal

/-! How alike two words are: the share of letters they have in common at nearby places, counted
in both words, and how many of these letters come in the same order. Every step rounds to the
nearest double, which decides between scores that are equal but for it. -/

namespace BracketLint.Similarity

/-- The first position from `low` up to, not including, `high` that holds `c` and is still
free, in a word whose letters come with whether they are taken. -/
def findFree? (c : Char) (low high : Nat) (word : List (Char × Bool)) : Option Nat :=
  (List.range' low (high - low)).find? fun i => word[i]? == some (c, false)

/-- The letters of a word, each with its position, that find one in the other word at a
distance below `reach`, and the other word with the letters they took. -/
def matchLetters (reach : Nat) :
    Nat → List Char → List (Char × Bool) → List Char × List (Char × Bool)
  | _, [], other => ([], other)
  | i, c :: rest, other =>
    match findFree? c (i + 1 - reach) (min other.length (i + reach)) other with
    | some j =>
      let (found, taken) := matchLetters reach (i + 1) rest (other.set j (c, true))
      (c :: found, taken)
    | none => matchLetters reach (i + 1) rest other

/-- The sum of two fractions. -/
def add (a b : Nat × Nat) : Nat × Nat := (a.1 * b.2 + b.1 * a.2, a.2 * b.2)

def less (a b : Nat × Nat) : Bool := a.1 * b.2 < b.1 * a.2

/-- The mean of the three shares, as a fraction. -/
def score (a b : List Char) : Nat × Nat :=
  let reach := max 1 (max a.length b.length / 2)
  let (found, taken) := matchLetters reach 0 a (b.map fun c => (c, false))
  let partners := (taken.filter (·.2)).map (·.1)
  let moved := ((found.zip partners).filter fun p => p.1 ≠ p.2).length / 2
  let m := found.length
  if m = 0 then (0, 1)
  else
    let shares := Double.rounded (add (Double.rounded (m, a.length)) (Double.rounded (m, b.length)))
    let sum := Double.rounded (add shares (Double.rounded (m - moved, m)))
    Double.rounded (sum.1, 3 * sum.2)

/-- Words have to be more alike than seven tenths. -/
def threshold : Nat × Nat := Double.rounded (7, 10)

/-- The word most like the one given, the later one of equals, if one is alike enough. -/
def closest? (word : String) (candidates : List String) : Option String :=
  let scored := candidates.map fun c => (c, score word.toList c.toList)
  let alike := scored.filter fun x => less threshold x.2
  (alike.foldl (fun best x =>
    match best with
    | none => some x
    | some y => if less x.2 y.2 then some y else some x) none).map (·.1)

end BracketLint.Similarity
