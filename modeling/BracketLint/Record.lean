import BracketLint.Text.Utf8

/-! One recorded problem: the bytes it is about and a message, which may be any bytes. -/

namespace BracketLint

structure Record where
  start : UInt32
  stop : UInt32
  message : List UInt8
  deriving DecidableEq

namespace Record

/-- A record that spans no bytes. -/
def point (message : List UInt8) (position : UInt32) : Record :=
  ⟨position, position, message⟩

def text (r : Record) : List Char := Utf8.lossy r.message

/-- The record with its fields, for debugging. -/
def inspect (r : Record) : String :=
  "Diagnostic \x7b start: " ++ toString r.start.toNat ++ ", end: " ++ toString r.stop.toNat ++
    ", message: [" ++ ", ".intercalate (r.message.map fun b => toString b.toNat) ++ "] \x7d"

end Record

end BracketLint
