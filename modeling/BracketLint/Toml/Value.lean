import BracketLint.Decimal
import BracketLint.Toml.Error

/-! The values of a document, and where they stand. A table keeps its entries in the order of
their keys and remembers what made it, because that decides what may still be added to it. -/

namespace BracketLint.Toml

/-- What made a table. -/
inductive Origin where
  /-- A header of its own, or the document itself. -/
  | header
  /-- The header of a table within it. -/
  | implied
  /-- A key with dots. -/
  | dotted
  /-- Braces. -/
  | braces
  deriving DecidableEq

/-- A number as it is written. -/
inductive Number where
  | finite (d : Decimal)
  | infinite (negative : Bool)
  | nan
  deriving DecidableEq

/-- A key, and where it stands. -/
structure Name where
  text : String
  span : Span
  deriving DecidableEq

inductive Value where
  | string (span : Span) (s : String)
  | integer (span : Span) (n : Int)
  | float (span : Span) (x : Number)
  | boolean (span : Span) (b : Bool)
  /-- What is written like an integer but is none. -/
  | illegible (span : Span)
  /-- A date, a time, or both. -/
  | dateTime (span : Span)
  /-- Arrays made by headers can grow. -/
  | array (span : Span) (ofTables : Bool) (items : List Value)
  | table (span : Span) (origin : Origin) (entries : List (Name × Value))

namespace Value

def span : Value → Span
  | string p _ | integer p _ | float p _ | boolean p _ | illegible p | dateTime p
  | array p _ _ | table p _ _ => p

/-- The name of a value's type. -/
def type : Value → String
  | string .. => "string"
  | integer .. | illegible _ => "integer"
  | float .. => "float"
  | boolean .. => "boolean"
  | dateTime _ => "datetime"
  | array .. => "array"
  | table _ .braces _ => "inline table"
  | table .. => "table"

mutual

/-- Whether two values are the same and stand at the same places. -/
def same : Value → Value → Bool
  | .string p s, .string p' s' => p == p' && s == s'
  | .integer p n, .integer p' n' => p == p' && n == n'
  | .float p x, .float p' x' => p == p' && x == x'
  | .boolean p b, .boolean p' b' => p == p' && b == b'
  | .illegible p, .illegible p' | .dateTime p, .dateTime p' => p == p'
  | .array p o vs, .array p' o' vs' => p == p' && o == o' && sameItems vs vs'
  | .table p o es, .table p' o' es' => p == p' && o == o' && sameEntries es es'
  | _, _ => false

def sameItems : List Value → List Value → Bool
  | [], [] => true
  | v :: vs, w :: ws => v.same w && sameItems vs ws
  | _, _ => false

def sameEntries : List (Name × Value) → List (Name × Value) → Bool
  | [], [] => true
  | (k, v) :: es, (l, w) :: fs => k == l && v.same w && sameEntries es fs
  | _, _ => false

end

mutual

theorem same_iff : ∀ v w : Value, v.same w = true ↔ v = w
  | .string _ _, w | .integer _ _, w | .float _ _, w | .boolean _ _, w | .illegible _, w
  | .dateTime _, w => by cases w <;> simp [same]
  | .array _ _ vs, w => by cases w <;> simp [same, sameItems_iff vs, and_assoc]
  | .table _ _ es, w => by cases w <;> simp [same, sameEntries_iff es, and_assoc]

theorem sameItems_iff : ∀ vs ws : List Value, sameItems vs ws = true ↔ vs = ws
  | [], ws => by cases ws <;> simp [sameItems]
  | v :: vs, ws => by cases ws <;> simp [sameItems, same_iff v, sameItems_iff vs]

theorem sameEntries_iff : ∀ es fs : List (Name × Value), sameEntries es fs = true ↔ es = fs
  | [], fs => by cases fs <;> simp [sameEntries]
  | (k, v) :: es, fs => by
    cases fs <;> simp [sameEntries, same_iff v, sameEntries_iff es, Prod.ext_iff]

end

instance : DecidableEq Value := fun v w => decidable_of_iff _ (v.same_iff w)

end Value

structure Table where
  span : Span
  origin : Origin
  entries : List (Name × Value)
  deriving DecidableEq

namespace Table

def empty (span : Span) (origin : Origin) : Table := ⟨span, origin, []⟩

def toValue (t : Table) : Value := .table t.span t.origin t.entries

def get? (t : Table) (key : String) : Option Value :=
  (t.entries.find? (·.1.text == key)).map (·.2)

/-- Put an entry in its place, or put it for the one with its key. -/
def insertEntry (key : Name) (v : Value) : List (Name × Value) → List (Name × Value)
  | [] => [(key, v)]
  | (k, w) :: rest =>
    if key.text < k.text then (key, v) :: (k, w) :: rest
    else if key.text = k.text then (k, v) :: rest
    else (k, w) :: insertEntry key v rest

def insert (t : Table) (key : Name) (v : Value) : Table :=
  { t with entries := insertEntry key v t.entries }

def erase (t : Table) (key : String) : Table :=
  { t with entries := t.entries.filter (·.1.text != key) }

/-- Insert an entry whose key is not there yet. -/
def insertNew (t : Table) (key : Name) (v : Value) : Except (Placed Malformed) Table :=
  match t.get? key.text with
  | none => .ok (t.insert key v)
  | some _ => .error ⟨.duplicate, key.span⟩

/-- What made a table, after a dotted path has passed through it or not. -/
def passed (dotted : Bool) (origin : Origin) : Origin :=
  if dotted ∧ origin = .implied then .dotted else origin

/-- Change the table that a path leads to, and make the tables on the way that are missing.
A path may pass through the last table of an array that can grow. It may not pass through
braces, and a dotted one not through a table with a header of its own. A table that was only
implied belongs to dotted keys once a dotted path has passed through it. -/
def change {α : Type} (dotted : Bool) (f : Table → Except (Placed Malformed) (α × Table)) :
    List Name → Table → Except (Placed Malformed) (α × Table)
  | [], t => f t
  | key :: path, t =>
    match t.get? key.text with
    | none => do
      let origin : Origin := if dotted then .dotted else .implied
      let (a, inner) ← change dotted f path (empty key.span origin)
      return (a, t.insert key inner.toValue)
    | some (.table span origin entries) =>
      if origin = .braces then throw ⟨.notATable "inline table", key.span⟩
      else if dotted ∧ origin = .header then throw ⟨.duplicate, key.span⟩
      else do
        let (a, inner) ← change dotted f path ⟨span, passed dotted origin, entries⟩
        return (a, t.insert key inner.toValue)
    | some (.array span true items) =>
      match items.getLast? with
      | some (.table last origin entries) => do
        let (a, inner) ← change dotted f path ⟨last, origin, entries⟩
        return (a, t.insert key (.array span true (items.dropLast ++ [inner.toValue])))
      | _ => throw ⟨.notATable "array", key.span⟩
    | some v => throw ⟨.notATable v.type, key.span⟩

/-- Give a value to a key, which may come after a dotted path. Such a path has to end in a table
of dotted keys. -/
def assign (t : Table) (path : List Name) (key : Name) (v : Value) :
    Except (Placed Malformed) Table := do
  if path.isEmpty then t.insertNew key v
  else
    let put (inner : Table) : Except (Placed Malformed) (Unit × Table) := do
      if inner.origin ≠ .dotted then throw ⟨.duplicate, key.span⟩
      return ((), ← inner.insertNew key v)
    return (← change true put path t).2

end Table

end BracketLint.Toml
