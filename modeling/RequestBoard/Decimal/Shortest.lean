/-!
# The shortest decimal of a binary64

A finite binary64 is the only one that a whole interval of reals rounds to.  Among the decimals
`digits · 10 ^ exponent` of that interval, `Float.shortest` takes one from the coarsest decimal grid
that meets the interval, and of the two neighbours of the value on that grid the nearer one.  The
arithmetic is exact, on naturals.
-/

namespace RequestBoard

/-- A nonnegative decimal: `digits · 10 ^ exponent`. -/
structure Decimal where
  digits : Nat
  exponent : Int
  deriving DecidableEq, Repr

namespace Decimal

/-- A positive binary fraction together with the reals that round to it.  The value is
`mid / den`, the interval runs from `low / den` to `high / den`, and its ends belong to it
when `closed` holds. -/
structure Cell where
  low : Nat
  mid : Nat
  high : Nat
  den : Nat
  closed : Bool

/-- The cell of `mantissa · 2 ^ exponent`.  Below a power of two the gap to the next smaller value
is half as wide as the gap above it, which is what `halved` says. -/
def Cell.ofBinary (mantissa : Nat) (exponent : Int) (halved : Bool) : Cell :=
  let up := Nat.pow 2 (exponent - 2).toNat
  { low := (4 * mantissa - if halved then 1 else 2) * up
    mid := 4 * mantissa * up
    high := (4 * mantissa + 2) * up
    den := Nat.pow 2 (2 - exponent).toNat
    closed := mantissa % 2 == 0 }

/-- Whether `digits · num / scale` lies in the cell. -/
def Cell.holds (cell : Cell) (num scale digits : Nat) : Bool :=
  let point := digits * num * cell.den
  if cell.closed then cell.low * scale ≤ point && point ≤ cell.high * scale
  else cell.low * scale < point && point < cell.high * scale

/-- The point of the grid of step `10 ^ exponent` that lies in the cell and is nearest to its value,
if there is one.  Of two equally near points it is the even one. -/
def Cell.onGrid? (cell : Cell) (exponent : Int) : Option Nat :=
  let num := Nat.pow 10 exponent.toNat
  let scale := Nat.pow 10 (-exponent).toNat
  let below := cell.mid * scale / (num * cell.den)
  let above := below + 1
  let belowHolds := below != 0 && cell.holds num scale below
  let aboveHolds := cell.holds num scale above
  match belowHolds, aboveHolds with
  | false, false => none
  | true, false => some below
  | false, true => some above
  | true, true =>
    let toBelow := cell.mid * scale - below * num * cell.den
    let toAbove := above * num * cell.den - cell.mid * scale
    if toBelow < toAbove || (toBelow == toAbove && below % 2 == 0) then some below else some above

/-- Tries ever finer grids, at most `steps` of them.  Twenty steps from `coarsest` always suffice,
since seventeen significant digits tell any two values apart. -/
def Cell.search (cell : Cell) : (steps : Nat) → (exponent : Int) → Decimal
  | 0, exponent => ⟨0, exponent⟩
  | steps + 1, exponent =>
    match cell.onGrid? exponent with
    | some digits => ⟨digits, exponent⟩
    | none => cell.search steps (exponent - 1)

/-- Number of decimal digits of `n`; zero has one. -/
def width (n : Nat) : Nat := (Nat.toDigits 10 n).length

/-- The exponent of a grid on which the value of the cell lies below the second point, so that no
coarser grid has to be tried. -/
def Cell.coarsest (cell : Cell) : Int :=
  if cell.den ≤ cell.high then width (cell.high / cell.den)
  else 1 - (width (cell.den / cell.high) : Int)

end Decimal

/-- The number of fractions that a binary64 can store, `2 ^ 52`. -/
def Decimal.fractions : Nat := 4503599627370496

/-- The fewest digits that read back as the magnitude of a finite number; zero is `0 · 10 ^ 0`. -/
def shortestDecimal (x : Float) : Decimal :=
  let bits : Nat := x.toBits.toNat
  let fraction : Nat := bits % Decimal.fractions
  let stored : Nat := bits / Decimal.fractions % 2048
  if stored == 0 && fraction == 0 then ⟨0, 0⟩
  else
    let mantissa := if stored == 0 then fraction else Decimal.fractions + fraction
    let exponent : Int := (if stored == 0 then 1 else (stored : Int)) - 1075
    let cell := Decimal.Cell.ofBinary mantissa exponent (fraction == 0 && 1 < stored)
    cell.search 20 cell.coarsest

end RequestBoard
