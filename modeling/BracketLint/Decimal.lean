/-! Decimal numerals and the floating-point numbers nearest to them, with 53 bits of mantissa.
A floating-point number is written with the fewest digits that still read as it, and of those
with the nearest. All of it is exact arithmetic on natural numbers. -/

namespace BracketLint

/-- The number `digits * 10 ^ exponent`, or its negation. -/
structure Decimal where
  negative : Bool
  digits : Nat
  exponent : Int
  deriving DecidableEq

/-- The number `mantissa * 2 ^ exponent`. -/
structure Double where
  mantissa : Nat
  exponent : Int
  deriving DecidableEq

namespace Double

/-- The least exponent, that of the smallest numbers. -/
def leastExponent : Int := -1074

def greatestExponent : Int := 971

/-- `num / den` to the nearest whole number, and to the even one of two. -/
def roundHalfEven (num den : Nat) : Nat :=
  let q := num / den
  let twice := 2 * (num % den)
  if twice < den ∨ (twice = den ∧ q % 2 = 0) then q else q + 1

/-- `base ^ n` as a fraction. -/
def power (base : Nat) (n : Int) : Nat × Nat :=
  if 0 ≤ n then (base.pow n.toNat, 1) else (1, base.pow (-n).toNat)

/-- The double nearest to `num / den`, if it is within range. -/
def ofFraction? (num den : Nat) : Option Double :=
  let guess : Int := (num.log2 : Int) - (den.log2 : Int) - 52
  let at53 (q : Int) : Nat :=
    let (up, down) := power 2 (-q)
    (num * up) / (den * down)
  let fitted := if at53 guess < Nat.pow 2 52 then guess - 1 else guess
  let q := max fitted leastExponent
  let (up, down) := power 2 (-q)
  let m := roundHalfEven (num * up) (den * down)
  let (m, q) := if m = Nat.pow 2 53 then (Nat.pow 2 52, q + 1) else (m, q)
  if greatestExponent < q then none else some ⟨m, q⟩

/-- A double as a fraction. -/
def toFraction (x : Double) : Nat × Nat :=
  let (up, down) := power 2 x.exponent
  (x.mantissa * up, down)

/-- The double nearest to a fraction, as a fraction. One beyond all doubles stays as it is. -/
def rounded (q : Nat × Nat) : Nat × Nat := ((ofFraction? q.1 q.2).map toFraction).getD q

/-- A numeral with no digits is zero, one beyond all doubles has none, and one below half of
the least is zero, whatever the size of its exponent. -/
def ofDecimal? (d : Decimal) : Option Double :=
  let length : Int := (Nat.toDigits 10 d.digits).length
  if d.digits = 0 then some ⟨0, leastExponent⟩
  else if 310 < d.exponent + length then none
  else if d.exponent + length < -330 then some ⟨0, leastExponent⟩
  else
    let (up, down) := power 10 d.exponent
    ofFraction? (d.digits * up) down

/-- The ends of the interval of numbers nearest to a double, in quarters of its last place.
Below a power of two the places are half as far apart. -/
def quarterBounds (x : Double) : Nat × Nat :=
  let below := if x.mantissa = Nat.pow 2 52 ∧ leastExponent < x.exponent then 1 else 2
  (4 * x.mantissa - below, 4 * x.mantissa + 2)

/-- The multiple of `10 ^ k` nearest to a double, if it reads as the double. -/
def onGrid? (x : Double) (k : Int) : Option Nat :=
  let (up2, down2) := power 2 (x.exponent - 2)
  let (up10, down10) := power 10 k
  let step := up10 * down2
  let scale (quarters : Nat) : Nat := quarters * up2 * down10
  let (low, high) := quarterBounds x
  let inside (c : Nat) : Bool :=
    if x.mantissa % 2 = 0 then scale low ≤ c * step && c * step ≤ scale high
    else scale low < c * step && c * step < scale high
  let value := scale (4 * x.mantissa)
  let floor := value / step
  let nearest := if 2 * (value % step) < step then [floor, floor + 1] else [floor + 1, floor]
  nearest.find? inside

/-- The fewest digits that read as a double, and the power of ten they count. -/
def shortest (x : Double) : Nat × Int :=
  let grids := (List.range 640).map fun (i : Nat) => 310 - (i : Int)
  (grids.findSome? fun k => (onGrid? x k).map fun c => (c, k)).getD (0, 0)

/-- A double in positional notation, with a fraction also when it is whole. -/
def text (x : Double) : String :=
  if x.mantissa = 0 then "0.0"
  else
    let (c, k) := shortest x
    let digits := Nat.toDigits 10 c
    if 0 ≤ k then String.ofList (digits ++ List.replicate k.toNat '0' ++ ['.', '0'])
    else
      let places := (-k).toNat
      let padded := List.replicate (places + 1 - digits.length) '0' ++ digits
      let whole := padded.length - places
      String.ofList (padded.take whole ++ ['.'] ++ padded.drop whole)

end Double

/-- The text of the double nearest to a decimal, if there is one. -/
def Decimal.doubleText? (d : Decimal) : Option String :=
  (Double.ofDecimal? d).map fun x => (if d.negative then "-" else "") ++ x.text

end BracketLint
