import BracketLint.Toml.Value

/-! Values as the kinds that a program asks for. A number is read only when it is looked at,
and one that is too large then fails, whatever was asked for. -/

namespace BracketLint.Toml.Value

/-- The words for a value in messages, unless it is a number that cannot be read. Integers
beyond 64 bits are named with the width that holds them. -/
def described? : Value → Option String
  | string _ s => some ("string " ++ Quoted.encode s)
  | integer _ n =>
    let text := "integer \x60" ++ toString n ++ "\x60"
    if -Int.pow 2 63 ≤ n ∧ n < Int.pow 2 64 then some text
    else if -Int.pow 2 127 ≤ n ∧ n < Int.pow 2 127 then some (text ++ " as i128")
    else if 0 ≤ n ∧ n < Int.pow 2 128 then some (text ++ " as u128")
    else none
  | float _ (.finite d) => (d.doubleText?).map fun t => "floating point \x60" ++ t ++ "\x60"
  | float _ (.infinite negative) =>
    some ("floating point \x60" ++ (if negative then "-inf" else "inf") ++ "\x60")
  | float _ .nan => some "floating point \x60NaN\x60"
  | boolean _ b => some ("boolean \x60" ++ (if b then "true" else "false") ++ "\x60")
  | illegible _ => none
  | dateTime _ => some "map"
  | array .. => some "sequence"
  | table .. => some "map"

/-- The fault of a number that cannot be read. -/
def overflow (v : Value) : Placed Mismatch :=
  ⟨.overflow (match v with
    | float .. => "floating-point"
    | _ => "integer"), v.span⟩

/-- The fault of a value that is not what was expected. -/
def unexpected (v : Value) (expected : String) : Placed Mismatch :=
  match v.described? with
  | some found => ⟨.wrongType found expected, v.span⟩
  | none => v.overflow

mutual

/-- The first number in a value that cannot be read. -/
def unreadable? : Value → Option Value
  | array _ _ items => firstUnreadable? items
  | table _ _ entries => firstUnreadableValue? entries
  | integer p n => if (described? (integer p n)).isSome then none else some (integer p n)
  | float p x => if (described? (float p x)).isSome then none else some (float p x)
  | illegible p => some (illegible p)
  | string .. | boolean .. | dateTime _ => none

def firstUnreadable? : List Value → Option Value
  | [] => none
  | v :: rest => unreadable? v <|> firstUnreadable? rest

def firstUnreadableValue? : List (Name × Value) → Option Value
  | [] => none
  | (_, v) :: rest => unreadable? v <|> firstUnreadableValue? rest

end

/-- Look at a value that does not matter. -/
def ignore (v : Value) : Except (Placed Mismatch) Unit :=
  match v.unreadable? with
  | none => .ok ()
  | some w => .error w.overflow

def toBool : Value → Except (Placed Mismatch) Bool
  | boolean _ b => .ok b
  | v => .error (v.unexpected "a boolean")

def toText : Value → Except (Placed Mismatch) String
  | string _ s => .ok s
  | v => .error (v.unexpected "a string")

/-- A number of things, in 64 bits. -/
def toCount (expected : String) : Value → Except (Placed Mismatch) Nat
  | integer p n =>
    if 0 ≤ n ∧ n < Int.pow 2 64 then .ok n.toNat
    else if -Int.pow 2 63 ≤ n ∧ n < 0 then
      .error ⟨.wrongValue ("integer \x60" ++ toString n ++ "\x60") expected, p⟩
    else .error ((integer p n).unexpected expected)
  | v => .error (v.unexpected expected)

/-- A group of fields, named in messages. It is a table, whose entries change the usual group
one after the other, or an array of the fields in order, of which the last may be missing and
any others do not matter. A date is a group without entries. -/
def toGroup {α : Type} (name : String)
    (fields : List (String × (Value → α → Except (Placed Mismatch) α))) (usual : α) :
    Value → Except (Placed Mismatch) α
  | table _ _ entries =>
    entries.foldlM (fun a e =>
      match fields.lookup e.1.text with
      | some set => set e.2 a
      | none => do
        e.2.ignore
        return a) usual
  | array _ _ items => (fields.zip items).foldlM (fun a f => f.1.2 f.2 a) usual
  | dateTime _ => .ok usual
  | v => .error (v.unexpected name)

def choose {α : Type} (words : List (String × α)) (s : Name) : Except (Placed Mismatch) α :=
  match words.lookup s.text with
  | some a => .ok a
  | none => .error ⟨.unknownVariant s.text (words.map (·.1)), s.span⟩

/-- A variant has no contents. -/
def isEmptyContents : Value → Except (Placed Mismatch) Unit
  | table _ _ [] | array _ _ [] => .ok ()
  | table p _ _ => .error ⟨.contents "table", p⟩
  | v => .error ⟨.contents v.type, v.span⟩

/-- One of several words, or a table with one of them for its only key and nothing for it. -/
def toVariant {α : Type} (words : List (String × α)) : Value → Except (Placed Mismatch) α
  | string p s => choose words ⟨s, p⟩
  | table _ _ [(word, contents)] => do
    let a ← choose words word
    contents.isEmptyContents
    return a
  | table p _ entries => .error ⟨.variantCount entries.isEmpty, p⟩
  | v => .error ⟨.noVariant, v.span⟩

end BracketLint.Toml.Value
