import BracketLint.Text.Quoted
import BracketLint.Toml.Token

/-! Why a document could not be read: it is not well formed, or a value in it is not of the
kind that was asked for. The message shows the place. -/

namespace BracketLint.Toml

/-- What stands between an opening sign and a closing one. -/
inductive Enclosure where
  | table
  | tableArray
  | array
  | braces
  deriving DecidableEq

namespace Enclosure

def name : Enclosure → String
  | table => "table"
  | tableArray => "array table"
  | array => "array"
  | braces => "inline table"

def closing : Enclosure → String
  | table | array => "]"
  | tableArray => "]]"
  | braces => "\x7d"

def opening : Enclosure → String
  | table | array => "["
  | tableArray => "[["
  | braces => "\x7b"

end Enclosure

/-- What comes next between braces. -/
inductive Part where
  | key
  | equals
  | value
  | comma
  deriving DecidableEq

/-- The bases that are named by a letter after a zero, and ten. -/
inductive Radix where
  | two
  | eight
  | ten
  | sixteen
  deriving DecidableEq

def Radix.name : Radix → String
  | two => "binary"
  | eight => "octal"
  | ten => "integer"
  | sixteen => "hexadecimal"

/-- What stands in the way of reading a document at all. -/
inductive Malformed where
  /-- A control character in a comment. -/
  | comment
  /-- A carriage return that ends no line. -/
  | carriageReturn
  | noOpening (e : Enclosure)
  | unclosed (e : Enclosure) (closing : String)
  | noKey
  | noEquals
  | doubleEquals
  | noLineEnd
  | doubleComma
  | equalsInArray
  | noComma
  | commaInBraces (awaited : Part)
  | equalsInBraces (awaited : Part)
  | noKeyInBraces (awaited : Part)
  | noEqualsInBraces
  | noCommaInBraces
  | noValueInBraces (awaited : Part)
  | nesting
  | longPath
  | emptyKey
  | bareKey
  | keyOfManyLines (q : Quotation)
  | duplicate
  /-- A key goes through something that is not an open table. -/
  | notATable (found : String)
  /-- A string is not closed. -/
  | openString (q : Quotation)
  /-- A character that may not stand in a string as it is. -/
  | stringCharacter (q : Quotation)
  /-- An escaped blank with no newline after it. -/
  | noNewline (q : Quotation)
  | escape
  | shortNumber
  | noCharacter
  | unquoted
  /-- A word that has only the beginning of the one that is known. -/
  | word (type known : String)
  | underscore
  | leadingZero
  | secondSign
  | signedRadix
  | capitalRadix (letter : Char)
  | radixOfTen
  | signAfterRadix
  | digit (r : Radix)
  | noDigits (part : String)
  | float
  /-- A date or a time, or what else is named. -/
  | moment (what : String) (expected : Option String)
  deriving DecidableEq

/-- What could have stood at a place: a text as it is, or a kind of thing. -/
inductive Expected where
  | text (s : String)
  | kind (s : String)

def Expected.words : Expected → String
  | text s => "\x60" ++ s ++ "\x60"
  | kind s => s

def Part.expected : Part → Expected
  | key => .kind "key"
  | equals => .text "="
  | value => .kind "value"
  | comma => .text ","

namespace Quotation

def name (q : Quotation) : String :=
  (if q.multiline then "multi-line " else "") ++
    (if q.quote = '"' then "basic string" else "literal string")

/-- The quotes at either end. -/
def delimiter (q : Quotation) : List Char := List.replicate (if q.multiline then 3 else 1) q.quote

/-- What may stand in a string. -/
def contents (q : Quotation) : List Expected :=
  let visible := if q.multiline then "characters" else "visible characters"
  if q.quote = '"' then [.kind ("non-double-quote " ++ visible), .text "\\"]
  else [.kind ("non-single-quote " ++ visible)]

end Quotation

namespace Malformed

def description : Malformed → String
  | comment => "invalid comment character"
  | carriageReturn => "carriage return must be followed by newline"
  | noOpening .table => "missing table open"
  | noOpening e => "missing " ++ e.name ++ " opening"
  | unclosed e _ => "unclosed " ++ e.name
  | noKey => "invalid key"
  | noEquals => "key with no value"
  | doubleEquals => "extra \x60=\x60"
  | noLineEnd => "unexpected key or value"
  | doubleComma => "extra comma in array"
  | equalsInArray => "unexpected \x60=\x60 in array"
  | noComma => "missing comma between array elements"
  | commaInBraces _ => "extra comma in inline table"
  | equalsInBraces _ => "extra assignment between key-value pairs"
  | noKeyInBraces _ => "missing key for inline table element"
  | noEqualsInBraces => "missing assignment between key-value pairs"
  | noCommaInBraces => "missing comma between key-value pairs"
  | noValueInBraces _ => "missing value for inline table element"
  | nesting => "cannot recurse further; max recursion depth met"
  | longPath => "recursion limit"
  | emptyKey => "unquoted keys cannot be empty"
  | bareKey => "invalid unquoted key"
  | keyOfManyLines q => "keys cannot be " ++ q.name ++ "s"
  | duplicate => "duplicate key"
  | notATable found => "cannot extend value of type " ++ found ++ " with a dotted key"
  | openString q | stringCharacter q | noNewline q => "invalid " ++ q.name
  | escape => "missing escaped value"
  | shortNumber => "too few unicode value digits"
  | noCharacter => "invalid value"
  | unquoted => "string values must be quoted"
  | word type _ => "invalid " ++ type
  | underscore => "\x60_\x60 may only go between digits"
  | leadingZero => "unexpected leading zero"
  | secondSign => "redundant numeric sign"
  | signedRadix => "integers with a radix cannot be signed"
  | capitalRadix _ => "radix must be lowercase"
  | radixOfTen => "redundant integer number prefix"
  | signAfterRadix => "unexpected sign"
  | digit r => "invalid " ++ r.name ++ " number"
  | noDigits part => "invalid " ++ part
  | float => "invalid float"
  | moment what _ => "invalid " ++ what

/-- What could have stood there, if the message says so. -/
def expected? : Malformed → Option (List Expected)
  | comment => some [.kind "printable characters"]
  | carriageReturn | noNewline _ => some [.kind "newline"]
  | noOpening e => some [.text e.opening]
  | unclosed _ closing => some [.text closing]
  | noKey => some [.kind "key"]
  | noEquals | noEqualsInBraces => some [.text "="]
  | noLineEnd => some [.kind "newline", .text "#"]
  | doubleComma => some [.kind "value"]
  | equalsInArray => some [.kind "value", .text "]"]
  | noComma | noCommaInBraces => some [.text ","]
  | commaInBraces p | equalsInBraces p | noKeyInBraces p | noValueInBraces p => some [p.expected]
  | nesting | longPath | duplicate | notATable _ => none
  | emptyKey | bareKey => some [.kind "letters", .kind "numbers", .text "-", .text "_"]
  | keyOfManyLines _ => some [.kind "basic string", .kind "literal string"]
  | openString q => some [.text (String.ofList q.delimiter)]
  | stringCharacter q => some q.contents
  | escape => some (["b", "e", "f", "n", "r", "\\", "\"", "x", "u", "U"].map .text)
  | shortNumber | noCharacter => some [.kind "unicode hexadecimal value"]
  | unquoted => some [.kind "literal string"]
  | word _ known => some [.text known]
  | doubleEquals | underscore | leadingZero | secondSign | signedRadix | radixOfTen
  | signAfterRadix | digit _ | float => some []
  | capitalRadix letter => some [.text (String.ofList ['0', letter])]
  | noDigits _ => some [.kind "digits"]
  | moment _ e => e.map fun s => [.kind s]

def words (m : Malformed) : String :=
  m.description ++ match m.expected? with
    | none => ""
    | some [] => ", expected nothing"
    | some es => ", expected " ++ ", ".intercalate (es.map Expected.words)

end Malformed

/-- What is wrong with a value. -/
inductive Mismatch where
  | wrongType (found expected : String)
  | wrongValue (found expected : String)
  | unknownVariant (found : String) (expected : List String)
  /-- A number of a type, none of whose widths holds it. -/
  | overflow (type : String)
  /-- A value that names no variant. -/
  | noVariant
  /-- A table that names no variant, or several. -/
  | variantCount (isEmpty : Bool)
  /-- A variant with contents of a type. -/
  | contents (found : String)
  deriving DecidableEq

def Mismatch.words : Mismatch → String
  | wrongType found expected => "invalid type: " ++ found ++ ", expected " ++ expected
  | wrongValue found expected => "invalid value: " ++ found ++ ", expected " ++ expected
  | unknownVariant found expected =>
    let quote (s : String) := "\x60" ++ s ++ "\x60"
    "unknown variant " ++ quote found ++ ", expected " ++ " or ".intercalate (expected.map quote)
  | overflow type => type ++ " number overflowed"
  | noVariant => "wanted string or table"
  | variantCount isEmpty =>
    "wanted exactly 1 element, " ++ if isEmpty then "found 0 elements" else "more than 1 element"
  | contents found =>
    if found = "array" ∨ found = "table" then "expected empty " ++ found
    else "expected table, found " ++ found

/-- What is wrong with a document, and where. -/
inductive Error where
  | malformed (document : String) (why : Placed Malformed)
  | mismatch (document : String) (why : Placed Mismatch)
  /-- Words of another reader. -/
  | other (reason : String)
  deriving DecidableEq

namespace Error

def message : Error → String
  | malformed document why => why.span.excerpt document ++ why.what.words ++ "\n"
  | mismatch document why => why.span.excerpt document ++ why.what.words ++ "\n"
  | other reason => reason

/-- What the line about a value that cannot be used begins with. -/
def detailOpenings : List String :=
  ["invalid type: ", "invalid value: ", "invalid length ", "unknown variant "]

def lastLine (s : String) : String :=
  String.ofList (s.toList.reverse.takeWhile (· ≠ '\n')).reverse

/-- The line about a value that cannot be used. It is the last one, and since the name of a
variant is not quoted, a line break in it can leave a rest that does not begin like one. -/
def detail? : Error → Option String
  | mismatch _ why =>
    let line := lastLine why.what.words
    if detailOpenings.any (·.isPrefixOf line) then some line else none
  | malformed .. | other _ => none

end Error

end BracketLint.Toml
