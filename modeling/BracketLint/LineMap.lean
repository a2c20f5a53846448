import BracketLint.Offset

/-! Lines and columns of byte offsets. The offsets at which lines start are kept in order, and
the line of an offset is found by halving. Offsets past the end lie on the last line. -/

namespace BracketLint

/-- A line, counted from one, and a byte column in it, counted from zero. -/
structure LineColumn where
  line : Nat
  column : UInt32
  deriving DecidableEq

/-- The line and the column, both counted from one. -/
def LineColumn.text (p : LineColumn) : String :=
  toString p.line ++ ":" ++ toString (p.column.toNat + 1)

structure LineMap where
  starts : Array UInt32
  size_pos : 0 < starts.size

namespace LineMap

/-- The offsets just after newlines, the first byte being at `offset`. -/
def afterNewlines (offset : Nat) : List UInt8 → List UInt32
  | [] => []
  | b :: rest =>
    if b = 10 then Offset.ofNat (offset + 1) :: afterNewlines (offset + 1) rest
    else afterNewlines (offset + 1) rest

def ofBytes (source : List UInt8) : LineMap :=
  ⟨(0 :: afterNewlines 0 source).toArray, by simp⟩

/-- The empty line after a final newline counts. -/
def lineCount (x : LineMap) : Nat := x.starts.size

/-- The first `i` with `low ≤ i ≤ high` whose line starts after `offset`, if the line starts
before `low` do not and those from `high` on do. -/
def firstAfter (starts : Array UInt32) (offset : UInt32) (low high : Nat)
    (h : high ≤ starts.size) : Nat :=
  if hlt : low < high then
    have hmid : (low + high) / 2 < starts.size := by omega
    if starts[(low + high) / 2] ≤ offset then
      firstAfter starts offset ((low + high) / 2 + 1) high h
    else firstAfter starts offset low ((low + high) / 2) (by omega)
  else low
termination_by high - low

theorem firstAfter_le (starts : Array UInt32) (offset : UInt32) {low high : Nat}
    (h : high ≤ starts.size) (hlh : low ≤ high) :
    firstAfter starts offset low high h ≤ high := by
  fun_induction firstAfter starts offset low high h with
  | case1 low high h hlt hmid hle ih => exact ih (by omega)
  | case2 low high h hlt hmid hle ih => exact Nat.le_trans (ih (by omega)) (by omega)
  | case3 low high h hlt => exact hlh

def line (x : LineMap) (offset : UInt32) : Nat :=
  firstAfter x.starts offset 0 x.starts.size (Nat.le_refl _)

theorem line_le (x : LineMap) (offset : UInt32) : x.line offset ≤ x.lineCount :=
  firstAfter_le _ _ _ (Nat.zero_le _)

def location (x : LineMap) (offset : UInt32) : LineColumn :=
  have : x.line offset - 1 < x.starts.size := by
    have := x.line_le offset
    have := x.size_pos
    unfold lineCount at *
    omega
  ⟨x.line offset, offset - x.starts[x.line offset - 1]⟩

end LineMap

end BracketLint
