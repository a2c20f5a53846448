/-! Text as bytes. `encode` writes characters, and `decode` reads any bytes at all: each
maximal run that begins a character without completing it, and each stray byte, reads as
`none`. Lossy reading puts one replacement character for each `none`. -/

namespace BracketLint.Utf8

def encode (s : List Char) : List UInt8 := s.flatMap String.utf8EncodeChar

/-- The number of bytes that a text takes. -/
def byteLength : List Char → Nat
  | [] => 0
  | c :: s => c.utf8Size + byteLength s

/-- A character whose first bytes have been read: the value they carry, how many bytes are
still to come after the next one, and the range in which the next one has to lie. -/
structure Partial where
  value : Nat
  after : Nat
  low : UInt8
  high : UInt8

/-- What a byte at the start of a character says about it. -/
inductive Start where
  | whole (c : Char)
  | lead (p : Partial)
  | stray

/-- The ranges of the second byte leave out overlong forms, surrogates and values past the
last character. -/
def start (b : UInt8) : Start :=
  let n := b.toNat
  if n < 0x80 then .whole (Char.ofNat n)
  else if n < 0xC2 then .stray
  else if n < 0xE0 then .lead ⟨n - 0xC0, 0, 0x80, 0xBF⟩
  else if n = 0xE0 then .lead ⟨0, 1, 0xA0, 0xBF⟩
  else if n = 0xED then .lead ⟨0xD, 1, 0x80, 0x9F⟩
  else if n < 0xF0 then .lead ⟨n - 0xE0, 1, 0x80, 0xBF⟩
  else if n = 0xF0 then .lead ⟨0, 2, 0x90, 0xBF⟩
  else if n < 0xF4 then .lead ⟨n - 0xF0, 2, 0x80, 0xBF⟩
  else if n = 0xF4 then .lead ⟨4, 2, 0x80, 0x8F⟩
  else .stray

def Partial.accepts (p : Partial) (b : UInt8) : Bool := p.low ≤ b && b ≤ p.high

def Partial.push (p : Partial) (b : UInt8) : Nat := p.value * 64 + (b.toNat - 0x80)

def decodeFrom : Option Partial → List UInt8 → List (Option Char)
  | none, [] => []
  | some _, [] => [none]
  | none, b :: bs =>
    match start b with
    | .whole c => some c :: decodeFrom none bs
    | .lead p => decodeFrom (some p) bs
    | .stray => none :: decodeFrom none bs
  | some p, b :: bs =>
    if p.accepts b then
      match p.after with
      | 0 => some (Char.ofNat (p.push b)) :: decodeFrom none bs
      | n + 1 => decodeFrom (some ⟨p.push b, n, 0x80, 0xBF⟩) bs
    else
      none :: match start b with
        | .whole c => some c :: decodeFrom none bs
        | .lead q => decodeFrom (some q) bs
        | .stray => none :: decodeFrom none bs

def decode (bytes : List UInt8) : List (Option Char) := decodeFrom none bytes

/-- Every invalid sequence becomes one replacement character. -/
def lossy (bytes : List UInt8) : List Char := (decode bytes).map (·.getD '\ufffd')

/-- Refuses bytes that hold an invalid sequence. -/
def strict? (bytes : List UInt8) : Option (List Char) := (decode bytes).mapM id

@[simp] theorem encode_nil : encode [] = [] := rfl

theorem encode_append (s t : List Char) : encode (s ++ t) = encode s ++ encode t := by
  simp [encode]

@[simp] theorem byteLength_nil : byteLength [] = 0 := rfl

@[simp] theorem byteLength_cons (c : Char) (s : List Char) :
    byteLength (c :: s) = c.utf8Size + byteLength s := rfl

@[simp] theorem byteLength_append (s t : List Char) :
    byteLength (s ++ t) = byteLength s + byteLength t := by
  induction s with
  | nil => simp
  | cons c s ih => rw [List.cons_append, byteLength_cons, byteLength_cons, ih, Nat.add_assoc]

theorem byteLength_pos {s : List Char} (h : s ≠ []) : 0 < byteLength s := by
  cases s with
  | nil => exact absurd rfl h
  | cons c s =>
    have := c.utf8Size_pos
    simp only [byteLength_cons]
    omega

theorem length_encode (s : List Char) : (encode s).length = byteLength s := by
  induction s with
  | nil => rfl
  | cons c s ih =>
    rw [← List.singleton_append, encode_append, List.length_append, ih]
    simp [encode]

end BracketLint.Utf8
