import BracketLint.Toml.Error

/-! The text that a string in quotes stands for. Double quotes allow escapes, single ones do
not, and three of either kind allow newlines. Places count from the start of the string. -/

namespace BracketLint.Toml.Quotation

def fail {α : Type} (why : Malformed) (start stop : Nat) : Except (Placed Malformed) α :=
  .error ⟨why, ⟨start, stop⟩⟩

def hexDigit? (c : Char) : Option Nat :=
  if '0' ≤ c ∧ c ≤ '9' then some (c.toNat - '0'.toNat)
  else if 'a' ≤ c ∧ c ≤ 'f' then some (c.toNat - 'a'.toNat + 10)
  else if 'A' ≤ c ∧ c ≤ 'F' then some (c.toNat - 'A'.toNat + 10)
  else none

/-- What a letter after a backslash stands for. -/
def escaped? : Char → Option Char
  | 'b' => some '\x08'
  | 't' => some '\t'
  | 'n' => some '\n'
  | 'f' => some '\x0c'
  | 'r' => some '\r'
  | 'e' => some '\x1b'
  | '"' => some '"'
  | '\\' => some '\\'
  | _ => none

/-- How many digits of a character's number follow a letter after a backslash. -/
def numberLength? : Char → Option Nat
  | 'x' => some 2
  | 'u' => some 4
  | 'U' => some 8
  | _ => none

/-- A character by its number, and how many digits there are. -/
def numbered (length position : Nat) (s : List Char) : Except (Placed Malformed) (Char × Nat) :=
  let digits := (s.takeWhile fun c => (hexDigit? c).isSome).take length
  let stop := position + digits.length
  let value := digits.foldl (fun n c => 16 * n + (hexDigit? c).getD 0) 0
  if digits.length < length then fail .shortNumber stop stop
  else if value.isValidChar then .ok (Char.ofNat value, length)
  else fail .noCharacter position stop

/-- What is left after blanks and newlines. -/
def afterMargin : List Char → List Char
  | [] => []
  | '\r' :: '\n' :: rest => afterMargin rest
  | c :: rest => if c = '\n' ∨ isBlank c then afterMargin rest else c :: rest

/-- An escape, what it stands for and how many characters follow the backslash in it. An
escaped newline stands for nothing, with the blanks and newlines around it. -/
def escape (q : Quotation) (position : Nat) (s : List Char) :
    Except (Placed Malformed) (List Char × Nat) :=
  match s with
  | [] => fail .escape position position
  | c :: rest =>
    if q.multiline ∧ (isBlank c ∨ c = '\n' ∨ c = '\r') then
      let line := s.dropWhile isBlank
      let place := position + (s.length - line.length)
      if ['\n'].isPrefixOf line ∨ ['\r', '\n'].isPrefixOf line then
        .ok ([], s.length - (afterMargin line).length)
      else if line.head? = some '\r' then fail .carriageReturn place (place + 1)
      else fail (.noNewline q) place place
    else match escaped? c, numberLength? c with
      | some d, _ => .ok ([d], 1)
      | none, some n => do
        let (d, count) ← numbered n (position + 1) rest
        return ([d], count + 1)
      | none, none => fail .escape position position

/-- Whether a character may stand in a string as it is. -/
def isPlain (q : Quotation) (c : Char) : Bool :=
  c == '\t' || (0x20 ≤ c.toNat && c.toNat != 0x7F && (c != q.quote || q.multiline)) ||
    (c == '\n' && q.multiline)

/-- A character of a string or an escape, what it stands for and how many characters follow
the first one in it. -/
def piece (q : Quotation) (position : Nat) (c : Char) (rest : List Char) :
    Except (Placed Malformed) (List Char × Nat) :=
  if c = '\\' ∧ q.quote = '"' then q.escape (position + 1) rest
  else if c = '\r' ∧ q.multiline then
    if rest.head? = some '\n' then .ok ([c], 0) else fail .carriageReturn position (position + 1)
  else if q.isPlain c then .ok ([c], 0)
  else fail (.stringCharacter q) position position

/-- The text between the quotes. -/
def contentsFrom (q : Quotation) (position : Nat) (s : List Char) :
    Except (Placed Malformed) (List Char) :=
  match s with
  | [] => .ok []
  | c :: rest => do
    let (text, count) ← q.piece position c rest
    let stop := position + Utf8.byteLength (c :: rest.take count)
    return text ++ (← contentsFrom q stop (rest.drop count))
termination_by s.length
decreasing_by
  simp only [List.length_drop, List.length_cons]
  omega

/-- A newline right after three quotes does not count. -/
def withoutFirstNewline (q : Quotation) : List Char → List Char
  | '\r' :: '\n' :: rest => if q.multiline then rest else '\r' :: '\n' :: rest
  | '\n' :: rest => if q.multiline then rest else '\n' :: rest
  | s => s

/-- The text of a string that is given with its opening quotes. -/
def decode (q : Quotation) (s : List Char) : Except (Placed Malformed) String := do
  let opened := s.drop q.delimiter.length
  let body := q.withoutFirstNewline opened
  let start := s.length - body.length
  if q.delimiter.isSuffixOf body then
    let cs ← q.contentsFrom start (body.take (body.length - q.delimiter.length))
    return String.ofList cs
  else fail (.openString q) (Utf8.byteLength s) (Utf8.byteLength s)

end BracketLint.Toml.Quotation
