import BracketLint.Toml.Scalar
import BracketLint.Toml.Statement

/-! A document as the table it describes. Its statements are carried out in order: headers say
which table is being filled, and entries fill it. A table joins the document when the next
header or the end is reached. -/

namespace BracketLint.Toml

namespace Word

/-- A fault in a word, whose place counts from the start of the word. -/
def atStart {α : Type} (w : Word) : Except (Placed Malformed) α → Except (Placed Malformed) α
  | .ok a => .ok a
  | .error why => .error { why with span := why.span.shift w.span.start }

def isBareKeyChar (c : Char) : Bool := c.isAlphanum || c == '_' || c == '-'

def bareKey (s : List Char) : Except (Placed Malformed) String :=
  let front := s.takeWhile isBareKeyChar
  let place := Utf8.byteLength front
  if s.isEmpty then Quotation.fail .emptyKey 0 0
  else if front = s then .ok (String.ofList s)
  else Quotation.fail .bareKey place place

/-- A word as a key. Its string may not be of many lines. -/
def toName (w : Word) : Except (Placed Malformed) Name := do
  let text ← w.atStart <|
    match w.quotation with
    | none => bareKey w.text
    | some q =>
      if q.multiline then Quotation.fail (.keyOfManyLines q) 0 (Utf8.byteLength w.text)
      else q.decode w.text
  return ⟨text, w.span⟩

def toValue (w : Word) : Except (Placed Malformed) Value :=
  w.atStart <|
    match w.quotation with
    | none => Scalar.value w.span w.text
    | some q => (.string w.span ·) <$> q.decode w.text

/-- The keys of a path, and the one at its end. -/
def toPath (ws : List Word) : Except (Placed Malformed) (List Name × Name) := do
  let keys ← ws.mapM toName
  match keys.getLast? with
  | some key =>
    if nestingLimit < keys.length then throw ⟨.longPath, key.span⟩
    return (keys.dropLast, key)
  | none => throw ⟨.emptyKey, ⟨0, 0⟩⟩

end Word

mutual

def Node.toValue : Node → Except (Placed Malformed) Value
  | .single w => w.toValue
  | .array span items => do return .array span false (← Node.itemValues items)
  | .braces span entries => do return (← Node.fill (.empty span .braces) entries).toValue

def Node.itemValues : List Node → Except (Placed Malformed) (List Value)
  | [] => .ok []
  | v :: rest => do return (← v.toValue) :: (← Node.itemValues rest)

/-- A table with entries added to it, one after the other. -/
def Node.fill (t : Table) : List (List Word × Node) → Except (Placed Malformed) Table
  | [] => .ok t
  | (keys, v) :: rest => do
    let (path, key) ← Word.toPath keys
    Node.fill (← t.assign path key (← v.toValue)) rest

end

namespace Document

/-- A header. -/
structure Header where
  span : Span
  ofArray : Bool
  path : List Name
  key : Name

/-- What has been read so far: the tables that are done, the one being filled, and its header,
which the document itself does not have. -/
structure State where
  root : Table
  current : Table
  header : Option Header

def State.start (whole : Span) : State := ⟨.empty whole .header, .empty whole .header, none⟩

/-- The document with the table that was being filled in it. -/
def State.finish (s : State) : Except (Placed Malformed) Table :=
  match s.header with
  | none => .ok s.current
  | some h =>
    let put (parent : Table) : Except (Placed Malformed) (Unit × Table) :=
      let v := s.current.toValue
      if h.ofArray then
        match parent.get? h.key.text with
        | none => .ok ((), parent.insert h.key (.array h.span true [v]))
        | some (.array span true rows) =>
          .ok ((), parent.insert h.key (.array span true (rows ++ [v])))
        | some _ => .error ⟨.duplicate, h.key.span⟩
      else .ok ((), parent.insert h.key v)
    (·.2) <$> Table.change false put h.path s.root

/-- Begin a table. One that was only implied so far keeps what it holds, and is taken out of
the document until it is finished. -/
def State.enter (s : State) (h : Header) : Except (Placed Malformed) State := do
  let root ← s.finish
  let look (parent : Table) : Except (Placed Malformed) (Table × Table) :=
    match parent.get? h.key.text, h.ofArray with
    | none, _ | some (.array _ true _), true => .ok (.empty h.span .header, parent)
    | some (.table _ .implied held), false =>
      .ok (⟨h.span, .header, held⟩, parent.erase h.key.text)
    | some _, _ => .error ⟨.duplicate, h.key.span⟩
  let (current, root) ← Table.change false look h.path root
  return ⟨root, current, some h⟩

def State.perform (s : State) : Statement → Except (Placed Malformed) State
  | .header span ofArray keys => do
    let (path, key) ← Word.toPath keys
    s.enter ⟨span, ofArray, path, key⟩
  | .entry keys v => do
    let (path, key) ← Word.toPath keys
    return { s with current := ← s.current.assign path key (← v.toValue) }

def parse (text : String) : Except (Placed Malformed) Table := do
  let statements ← Statement.all text
  let s ← statements.foldlM State.perform (.start ⟨0, text.utf8ByteSize⟩)
  s.finish

end Document

end BracketLint.Toml
