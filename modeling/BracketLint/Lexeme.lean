import BracketLint.Bracket
import BracketLint.Text.Utf8

/-! The tokens of a source, alone, with the text they cover, and with the bytes they span.
Spans follow from the texts: each token starts where the one before it stops. -/

namespace BracketLint

inductive Token where
  | bracket (b : Bracket)
  | string (terminated : Bool)
  | comment (body : List Char)
  | text (run : List Char)
  deriving DecidableEq

/-- A token and the characters it covers. -/
structure Lexeme where
  token : Token
  source : List Char
  deriving DecidableEq

/-- A token and the bytes `start ≤ i < stop` it spans. -/
structure PlacedToken where
  token : Token
  start : Nat
  stop : Nat
  deriving DecidableEq

/-- Place lexemes one after the other, the first one at `start`. -/
def Lexeme.place (start : Nat) : List Lexeme → List PlacedToken
  | [] => []
  | l :: rest =>
    let stop := start + Utf8.byteLength l.source
    ⟨l.token, start, stop⟩ :: place stop rest

namespace Lexeme

@[simp] theorem place_nil (n : Nat) : place n [] = [] := rfl

theorem place_cons (n : Nat) (l : Lexeme) (rest : List Lexeme) :
    place n (l :: rest) = ⟨l.token, n, n + Utf8.byteLength l.source⟩ ::
      place (n + Utf8.byteLength l.source) rest := rfl

@[simp] theorem length_place (n : Nat) (ls : List Lexeme) : (place n ls).length = ls.length := by
  induction ls generalizing n with
  | nil => rfl
  | cons l rest ih => simp [place_cons, ih]

end Lexeme

end BracketLint
