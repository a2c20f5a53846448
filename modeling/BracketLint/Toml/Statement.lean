import BracketLint.Toml.Error

/-! A document as headers and entries, with keys and values as they are written. What is in a
key or in a single value is not looked at yet. -/

namespace BracketLint.Toml

/-- A key or a single value as it is written, in quotes or not. One that is missing is empty. -/
structure Word where
  quotation : Option Quotation
  text : List Char
  span : Span

inductive Node where
  | single (w : Word)
  | array (span : Span) (items : List Node)
  | braces (span : Span) (entries : List (List Word × Node))

/-- Paths are never empty. -/
inductive Statement where
  | header (span : Span) (ofArray : Bool) (path : List Word)
  | entry (path : List Word) (value : Node)

/-- The most arrays and braces that a value may be nested in, and the most keys of a path. -/
def nestingLimit : Nat := 80

namespace Statement

/-- The tokens to be read, the last of which is the stop, and the span of the last one that was
read and was no gap. -/
structure Cursor where
  rest : List Token
  last : Span

abbrev Reader := StateT Cursor (Except (Placed Malformed))

def fail {α : Type} (why : Malformed) (span : Span) : Reader α := throw ⟨why, span⟩

/-- Characters that may stand in comments. -/
def isPlain (c : Char) : Bool := c == '\t' || (0x20 ≤ c.toNat && c.toNat != 0x7F)

/-- Whether a token is a gap between others. The characters of comments and the ends of lines
are looked at when they are read. -/
def isGap (t : Token) : Except (Placed Malformed) Bool :=
  match t.kind with
  | .comment =>
    let front := t.text.takeWhile isPlain
    if front = t.text then .ok true
    else
      let place := t.start + Utf8.byteLength front
      .error ⟨.comment, ⟨place, place⟩⟩
  | .newline =>
    if t.text = ['\r'] then .error ⟨.carriageReturn, t.span.after⟩ else .ok true
  | .blank => .ok true
  | .sign _ | .quoted _ | .plain | .stop => .ok false

/-- The next token, which stays. -/
def peek : Reader Token := return (← get).rest.head?.getD ⟨.stop, [], 0⟩

/-- The next token. The stop is never passed. -/
def next : Reader Token := do
  let t ← peek
  if t.kind = .stop then return t
  let gap ← isGap t
  modify fun s => ⟨s.rest.tail, if gap then s.last else t.span⟩
  return t

def skip? (c : Char) : Reader Bool := do
  if (← peek).kind = .sign c then
    let _ ← next
    return true
  return false

def blanks : Reader Unit := do
  if (← peek).kind = .blank then
    let _ ← next

/-- Whatever is left of a line, up to a comment, which is left too. -/
def skipLine : Nat → Reader Unit
  | 0 => return
  | fuel + 1 => do
    match (← peek).kind with
    | .newline | .comment | .stop => return
    | .sign _ | .blank | .quoted _ | .plain =>
      let _ ← next
      skipLine fuel

/-- What may stand after a header or a value. -/
def lineEnd : Reader Unit := do
  blanks
  let t ← peek
  match t.kind with
  | .newline | .comment | .stop => return
  | .sign _ | .blank | .quoted _ | .plain => fail .noLineEnd t.span.before

def missingWord (t : Token) : Word := ⟨none, [], t.span.before⟩

def word? (t : Token) : Option Word :=
  match t.kind with
  | .quoted q => some ⟨some q, t.text, t.span⟩
  | .plain => some ⟨none, t.text, t.span⟩
  | .sign _ | .blank | .newline | .comment | .stop => none

/-- A path, and whether its last key is there. -/
def path : Nat → Reader (List Word × Bool)
  | 0 => return ([], true)
  | fuel + 1 => do
    let t ← peek
    let w := word? t
    if w.isSome then
      let _ ← next
    blanks
    if ← skip? '.' then
      blanks
      let (more, complete) ← path fuel
      return (w.getD (missingWord t) :: more, complete)
    return ([w.getD (missingWord t)], w.isSome)

/-- The tokens that go on with a value without quotes. There may be blanks in it, since a date
and its time may have one between them. Those that may turn out to be in it are given. -/
def continuation (blanks : List Token) : List Token → List Token
  | [] => []
  | t :: rest =>
    match t.kind with
    | .plain | .sign '.' => blanks ++ t :: continuation [] rest
    | .blank => continuation (blanks ++ [t]) rest
    | .sign _ | .newline | .comment | .quoted _ | .stop => []

/-- A value without quotes. -/
def unquoted : Reader Word := do
  let s ← get
  let t ← next
  let more := continuation [] s.rest.tail
  let stop := (more.getLast?.getD t).span
  modify fun s => ⟨s.rest.drop more.length, stop⟩
  return ⟨none, t.text ++ more.flatMap Token.text, ⟨t.start, stop.stop⟩⟩

/-- Where the reader is between braces. -/
inductive Awaited where
  | key
  | equals (path : List Word)
  | value (path : List Word)
  | comma

def Awaited.part : Awaited → Part
  | key => .key
  | equals _ => .equals
  | value _ => .value
  | comma => .comma

mutual

/-- A value that may still hold `depth` levels of arrays and braces. -/
def value (depth : Nat) : Nat → Reader Node
  | 0 => do fail .nesting (← peek).span
  | fuel + 1 => do
    let t ← peek
    match t.kind with
    | .quoted q =>
      let _ ← next
      return .single ⟨some q, t.text, t.span⟩
    | .plain | .sign '.' => return .single (← unquoted)
    | .sign '[' =>
      if depth = 0 then fail .nesting t.span
      let _ ← next
      let (vs, stop) ← items (depth - 1) false fuel
      return .array ⟨t.start, stop⟩ vs
    | .sign '\x7b' =>
      if depth = 0 then fail .nesting t.span
      let _ ← next
      let (es, stop) ← entries (depth - 1) .key fuel
      return .braces ⟨t.start, stop⟩ es
    | .sign '=' => fail .doubleEquals t.span
    | .sign ']' => fail (.noOpening .array) t.span.before
    | .sign '\x7d' => fail (.noOpening .braces) t.span.before
    | .sign _ | .blank | .newline | .comment | .stop => return .single (missingWord t)

/-- The items of an array from a place on, and where it stops. A comma may have to come
first. -/
def items (depth : Nat) (afterItem : Bool) : Nat → Reader (List Node × Nat)
  | 0 => do fail .nesting (← peek).span
  | fuel + 1 => do
    let t ← peek
    match t.kind with
    | .blank | .newline | .comment =>
      let _ ← next
      items depth afterItem fuel
    | .stop => fail (.unclosed .array Enclosure.array.closing) t.span
    | .sign ',' =>
      unless afterItem do fail .doubleComma t.span
      let _ ← next
      items depth false fuel
    | .sign '=' => fail .equalsInArray t.span
    | .sign ']' =>
      let _ ← next
      return ([], t.span.stop)
    | .sign _ | .quoted _ | .plain =>
      if afterItem then fail .noComma t.span.before
      let v ← value depth fuel
      let (vs, stop) ← items depth true fuel
      return (v :: vs, stop)

/-- The entries between braces from a place on, and where they stop. -/
def entries (depth : Nat) (awaited : Awaited) : Nat → Reader (List (List Word × Node) × Nat)
  | 0 => do fail .nesting (← peek).span
  | fuel + 1 => do
    let t ← peek
    match t.kind, awaited with
    | .blank, _ | .newline, _ | .comment, _ =>
      let _ ← next
      entries depth awaited fuel
    | .stop, _ => fail (.unclosed .braces Enclosure.braces.closing) t.span
    | .sign ',', .comma =>
      let _ ← next
      entries depth .key fuel
    | .sign ',', _ => fail (.commaInBraces awaited.part) t.span.before
    | .sign '=', .key =>
      let _ ← next
      entries depth (.value [missingWord t]) fuel
    | .sign '=', .equals keys =>
      let _ ← next
      entries depth (.value keys) fuel
    | .sign '=', _ => fail (.equalsInBraces awaited.part) t.span.before
    | .sign '\x7d', .key | .sign '\x7d', .comma =>
      let _ ← next
      return ([], t.span.stop)
    | .sign '\x7d', _ => fail (.noValueInBraces awaited.part) t.span.before
    | .quoted _, .key | .plain, .key | .sign '.', .key =>
      let (keys, _) ← path fuel
      entries depth (.equals keys) fuel
    | _, .key => fail (.noKeyInBraces awaited.part) t.span.before
    | _, .equals _ => fail .noEqualsInBraces t.span.before
    | _, .value keys =>
      let v ← value depth fuel
      let (es, stop) ← entries depth .comma fuel
      return ((keys, v) :: es, stop)
    | _, .comma => fail .noCommaInBraces t.span.before

end

/-- A header, whose first bracket is next. One without a key is refused later. -/
def readHeader (fuel : Nat) : Reader Statement := do
  let opening ← next
  let ofArray ← skip? '['
  blanks
  let (keys, complete) ← path fuel
  let e : Enclosure := if ofArray then .tableArray else .table
  let closing ← peek
  if closing.kind = .sign ']' then
    let _ ← next
    if ofArray then
      unless ← skip? ']' do fail (.unclosed e Enclosure.table.closing) closing.span.after
    lineEnd
  else if complete then fail (.unclosed e e.closing) (← get).last.after
  else skipLine fuel
  return .header ⟨opening.start, closing.span.stop + if ofArray then 1 else 0⟩ ofArray keys

def readEntry (fuel : Nat) : Reader Statement := do
  let (keys, _) ← path fuel
  let t ← peek
  unless ← skip? '=' do fail .noEquals t.span.before
  blanks
  let v ← value nestingLimit fuel
  lineEnd
  return .entry keys v

/-- What is left of a document. Each token takes up at most two steps, so that twice their
number is enough. -/
def readAll : Nat → Reader (List Statement)
  | 0 => return []
  | fuel + 1 => do
    let t ← peek
    match t.kind with
    | .stop => return []
    | .blank | .newline | .comment =>
      let _ ← next
      readAll fuel
    | .sign '[' =>
      let s ← readHeader fuel
      return s :: (← readAll fuel)
    | .sign ']' => fail (.noOpening .table) t.span.before
    | .sign ',' | .sign '\x7b' | .sign '\x7d' => fail .noKey t.span.before
    | .sign _ | .quoted _ | .plain =>
      let s ← readEntry fuel
      return s :: (← readAll fuel)

/-- The statements of a document. -/
def all (document : String) : Except (Placed Malformed) (List Statement) := do
  let ts := Token.all document
  let (ss, _) ← (readAll (2 * ts.length + 2)).run ⟨ts, ⟨0, 0⟩⟩
  return ss

end Statement

end BracketLint.Toml
