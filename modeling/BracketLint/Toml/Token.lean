import BracketLint.Toml.Span

/-! A document as a list of tokens. Nothing is refused yet: each character belongs to a token,
and the last token is the stop, which is empty. -/

namespace BracketLint.Toml

/-- How a string is quoted: with which quote, and whether with three of them. -/
structure Quotation where
  quote : Char
  multiline : Bool
  deriving DecidableEq

inductive Token.Kind where
  /-- One of `. = , [ ]` or a brace. -/
  | sign (c : Char)
  | blank
  | newline
  | comment
  | quoted (q : Quotation)
  /-- A run of anything else. -/
  | plain
  | stop
  deriving DecidableEq

structure Token where
  kind : Token.Kind
  text : List Char
  start : Nat

def isBlank (c : Char) : Bool := c == ' ' || c == '\t'

namespace Token

def span (t : Token) : Span := ⟨t.start, t.start + Utf8.byteLength t.text⟩

def isSign (c : Char) : Bool := ".=,[]\x7b\x7d".toList.contains c

/-- Characters that end a plain run. Quotes do not. -/
def isEdge (c : Char) : Bool := isSign c || isBlank c || c == '#' || c == '\r' || c == '\n'

/-- Whether a backslash takes a character with it while the end of a string is looked for. -/
def isTaken (quote c : Char) : Bool := quote == '"' && (c == '"' || c == '\\')

/-- The rest of a string on one line after its opening quote. -/
def lineString (quote : Char) : List Char → List Char
  | [] => []
  | '\\' :: c :: rest =>
    if isTaken quote c then '\\' :: c :: lineString quote rest
    else '\\' :: lineString quote (c :: rest)
  | c :: rest =>
    if c = '\n' then [] else if c = quote then [c] else c :: lineString quote rest

/-- The rest of a string after its three opening quotes. Up to two quotes may stand before the
three that close it. -/
def blockString (quote : Char) : List Char → List Char
  | [] => []
  | '\\' :: c :: rest =>
    if isTaken quote c then '\\' :: c :: blockString quote rest
    else '\\' :: blockString quote (c :: rest)
  | c :: rest =>
    if [quote, quote, quote].isPrefixOf (c :: rest) then
      ((c :: rest).takeWhile (· = quote)).take 5
    else c :: blockString quote rest

/-- The kind of the token that starts with `c`, and its characters after `c`. -/
def first (c : Char) (rest : List Char) : Kind × List Char :=
  if isSign c then (.sign c, [])
  else if isBlank c then (.blank, rest.takeWhile isBlank)
  else if c = '#' then (.comment, rest.takeWhile fun d => d ≠ '\r' ∧ d ≠ '\n')
  else if c = '\n' then (.newline, [])
  else if c = '\r' then (.newline, (rest.take 1).filter (· = '\n'))
  else if c = '"' ∨ c = '\'' then
    if [c, c].isPrefixOf rest then
      (.quoted ⟨c, true⟩, c :: c :: blockString c (rest.drop 2))
    else (.quoted ⟨c, false⟩, lineString c rest)
  else (.plain, rest.takeWhile (!isEdge ·))

/-- The tokens of what is left of a document from a byte on. -/
def allFrom (start : Nat) (s : List Char) : List Token :=
  match s with
  | [] => [⟨.stop, [], start⟩]
  | c :: rest =>
    let (kind, more) := first c rest
    ⟨kind, c :: more, start⟩ ::
      allFrom (start + Utf8.byteLength (c :: more)) (rest.drop more.length)
termination_by s.length
decreasing_by
  simp only [List.length_drop, List.length_cons]
  omega

/-- The tokens of a document. A byte order mark at its start is in none. -/
def all (document : String) : List Token :=
  match document.toList with
  | '\ufeff' :: rest => allFrom (Utf8.byteLength ['\ufeff']) rest
  | cs => allFrom 0 cs

end Token

end BracketLint.Toml
