import BracketLint.Toml.Moment
import BracketLint.Toml.Quotation
import BracketLint.Toml.Value

/-! Values written without quotes: booleans, numbers, dates and times. Places count from the
start of the value. -/

namespace BracketLint.Toml.Scalar

open Quotation (fail hexDigit?)

def isDecimalDigit (c : Char) : Bool := '0' ≤ c && c ≤ '9'

def isHexDigit (c : Char) : Bool := (hexDigit? c).isSome

def isDigitBelow (base : Nat) (c : Char) : Bool := (hexDigit? c).any (· < base)

/-- The value of digits, the first one most significant. -/
def ofDigits (base : Nat) (cs : List Char) : Nat :=
  cs.foldl (fun n c => base * n + (hexDigit? c).getD 0) 0

def signed (negative : Bool) (n : Nat) : Int := if negative then -n else n

/-- Whether a text starts with a minus sign, and what comes after its sign if it has one. -/
def splitSign : List Char → Bool × List Char
  | '-' :: rest => (true, rest)
  | '+' :: rest => (false, rest)
  | cs => (false, cs)

/-- The place of the first underscore that is not between digits. An underscore after another
one is such a one, and not the one before it. -/
def misplaced? (isDigit : Char → Bool) (position : Nat) (afterDigit : Bool) :
    List Char → Option Nat
  | [] => none
  | c :: rest =>
    if c = '_' then
      if afterDigit && rest.head?.any fun d => d == '_' || isDigit d then
        misplaced? isDigit (position + 1) false rest
      else some position
    else misplaced? isDigit (position + c.utf8Size) (isDigit c) rest

/-- A text without its underscores, each of which stands between digits. What else is in it
does not matter. One at either end is looked for first. -/
def joined (isDigit : Char → Bool) (position : Nat) (s : List Char) :
    Except (Placed Malformed) (List Char) :=
  let last := position + Utf8.byteLength s.dropLast
  let place :=
    if s.head? = some '_' then some position
    else if s.getLast? = some '_' then some last
    else misplaced? isDigit position false s
  match place with
  | some n => fail .underscore n (n + 1)
  | none => .ok (s.filter (· ≠ '_'))

/-- The first digit of several is not zero. -/
def noLeadingZero (position : Nat) (s : List Char) : Except (Placed Malformed) Unit :=
  if s.head? = some '0' ∧ 1 < s.length then fail .leadingZero position (position + 1) else .ok ()

/-- A number in base ten with a sign that takes so many bytes. The letters of base sixteen
count as digits beside underscores, so that not all such numbers are legible. -/
def wholeNumber (span : Span) (signLength : Nat) (s : List Char) :
    Except (Placed Malformed) Value := do
  noLeadingZero signLength (s.drop signLength)
  let cs ← joined isHexDigit 0 s
  let (negative, ds) := splitSign cs
  if ds.all isDecimalDigit then return .integer span (signed negative (ofDigits 10 ds))
  else return .illegible span

/-- What follows the digits of a part of a number, and where. -/
def afterDigits (part : String) (zeroAllowed : Bool) (position : Nat) (s : List Char) :
    Except (Placed Malformed) (Nat × List Char) :=
  let run := s.takeWhile fun c => isDecimalDigit c || c == '_'
  let count := (run.filter isDecimalDigit).length
  if count = 0 then fail (.noDigits part) position position
  else if 1 < count ∧ s.head? = some '0' ∧ !zeroAllowed then
    fail .leadingZero position (position + 1)
  else .ok (position + run.length, s.drop run.length)

/-- What follows the fraction of a number, if it has one, and where. -/
def afterFraction (position : Nat) (s : List Char) :
    Except (Placed Malformed) (Nat × List Char) :=
  match s with
  | '.' :: rest => afterDigits "fraction" true (position + 1) rest
  | _ => .ok (position, s)

/-- What follows the exponent of a number, if it has one, and where. -/
def afterExponent (position : Nat) (s : List Char) :
    Except (Placed Malformed) (Nat × List Char) :=
  match s with
  | c :: rest =>
    if c = 'e' ∨ c = 'E' then
      let digits := (splitSign rest).2
      afterDigits "exponent" true (position + (s.length - digits.length)) digits
    else .ok (position, s)
  | [] => .ok (position, s)

/-- The number that a whole part with a fraction, an exponent, or both stands for. -/
def decimal (s : List Char) : Decimal :=
  let (negative, body) := splitSign s
  let mantissa := body.takeWhile fun c => c != 'e' && c != 'E'
  let whole := mantissa.takeWhile isDecimalDigit
  let fraction := mantissa.drop (whole.length + 1)
  let (below, digits) := splitSign (body.drop (mantissa.length + 1))
  let exponent := signed below (ofDigits 10 digits)
  ⟨negative, ofDigits 10 (whole ++ fraction), exponent - fraction.length⟩

def float (span : Span) (signLength : Nat) (s : List Char) : Except (Placed Malformed) Value := do
  let (position, rest) ← afterDigits "mantissa" false signLength (s.drop signLength)
  let (position, rest) ← afterFraction position rest
  let (position, rest) ← afterExponent position rest
  unless rest.isEmpty do fail .float position (Utf8.byteLength s)
  let cs ← joined isDecimalDigit 0 s
  return .float span (.finite (decimal cs))

def unquoted {α : Type} (s : List Char) : Except (Placed Malformed) α :=
  fail .unquoted 0 (Utf8.byteLength s)

def moment (span : Span) (s : List Char) : Except (Placed Malformed) Value :=
  match Moment.check s with
  | .ok () => .ok (.dateTime span)
  | .error why => fail why 0 (Utf8.byteLength s)

/-- What starts with a digit or an underscore, or has a sign before it. What comes after the
first digits decides what it is. -/
def numeric (span : Span) (signLength : Nat) (s : List Char) : Except (Placed Malformed) Value :=
  match (s.drop signLength).dropWhile isDecimalDigit with
  | [] => wholeNumber span signLength s
  | c :: rest =>
    let tail := c :: rest
    if c = '-' ∨ c = ':' ∨ tail.contains ' ' then moment span s
    else if tail.any fun d => d == '.' || d == 'e' || d == 'E' then float span signLength s
    else if c = '_' then wholeNumber span signLength s
    else unquoted s

def radix? : Char → Option (Radix × Nat)
  | 'b' => some (.two, 2)
  | 'o' => some (.eight, 8)
  | 'd' => some (.ten, 10)
  | 'x' => some (.sixteen, 16)
  | _ => none

/-- The digits of a number in a base, with underscores between them. -/
def digitsIn (r : Radix) (base position : Nat) (s : List Char) :
    Except (Placed Malformed) Unit :=
  match s with
  | '+' :: _ | '-' :: _ => fail .signAfterRadix position (position + 1)
  | _ =>
    let front := s.takeWhile fun c => c == '_' || isDigitBelow base c
    let place := position + front.length
    unless front = s do fail (.digit r) place place

/-- A number whose base comes after a zero. Without digits there is none to read. -/
def inRadix (span : Span) (signLength : Nat) (letter : Char) (r : Radix) (base : Nat)
    (digits : List Char) : Except (Placed Malformed) Value := do
  let start := signLength + 2
  if signLength ≠ 0 then fail .signedRadix 0 1
  if r = .ten then fail .radixOfTen signLength start
  if letter ≠ letter.toLower then fail (.capitalRadix letter.toLower) signLength start
  digitsIn r base start digits
  let ds ← joined isHexDigit start digits
  if ds.isEmpty then return .illegible span else return .integer span (ofDigits base ds)

/-- What starts with a zero after a sign that takes so many bytes. -/
def fromZero (span : Span) (signLength : Nat) (s : List Char) : Except (Placed Malformed) Value :=
  match s.drop (signLength + 1) with
  | letter :: digits =>
    match radix? letter.toLower with
    | some (r, base) => inRadix span signLength letter r base digits
    | none => numeric span signLength s
  | [] => numeric span signLength s

/-- A word that is known, or is refused as a value of its type. -/
def word (type known : String) (v : Value) (start : Nat) (s : List Char) :
    Except (Placed Malformed) Value :=
  if s = known.toList then .ok v
  else fail (.word type known) start (start + Utf8.byteLength s)

/-- A value after a sign. -/
def afterSign (span : Span) (negative : Bool) (s : List Char) : Except (Placed Malformed) Value :=
  match s.drop 1 with
  | [] => unquoted s
  | c :: rest =>
    if c = '+' ∨ c = '-' then fail .secondSign 1 2
    else if c = '0' then fromZero span 1 s
    else if isDecimalDigit c then numeric span 1 s
    else if c = '.' then float span 1 s
    else if c = 'i' ∨ c = 'I' then
      word "float" "inf" (.float span (.infinite negative)) 1 (c :: rest)
    else if c = 'n' ∨ c = 'N' then word "float" "nan" (.float span .nan) 1 (c :: rest)
    else unquoted s

/-- A value by its first character. A blank in a word shows that quotes are missing. -/
def value (span : Span) (s : List Char) : Except (Placed Malformed) Value :=
  let known (type name : String) (v : Value) : Except (Placed Malformed) Value :=
    if s.contains ' ' then unquoted s else word type name v 0 s
  match s with
  | [] => unquoted s
  | c :: _ =>
    if c = '+' ∨ c = '-' then afterSign span (c = '-') s
    else if c = '0' then fromZero span 0 s
    else if isDecimalDigit c ∨ c = '_' then numeric span 0 s
    else if c = '.' then float span 0 s
    else if c = 't' ∨ c = 'T' then known "boolean" "true" (.boolean span true)
    else if c = 'f' ∨ c = 'F' then known "boolean" "false" (.boolean span false)
    else if c = 'i' ∨ c = 'I' then known "float" "inf" (.float span (.infinite false))
    else if c = 'n' ∨ c = 'N' then known "float" "nan" (.float span .nan)
    else unquoted s

end BracketLint.Toml.Scalar
