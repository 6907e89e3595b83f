import RequestBoard.Decimal.Shortest

/-!
# JSON numbers

A number is kept in one of two forms.  A whole number that fits a 64-bit word, signed or unsigned,
is exact; every other number is a finite binary64.  `Number.Literal` is the spelling of a number in
a text, and `Number.Literal.toNumber?` says which number it denotes: a literal without fraction and
exponent that fits is whole (`-0` is not), any other literal is a binary64, and one too large for a
binary64 denotes nothing.
-/

namespace RequestBoard

/-- Whether a whole number fits a 64-bit word: it is from `-2 ^ 63` to `2 ^ 64 - 1`. -/
def FitsWord (n : Int) : Prop := -9223372036854775808 ≤ n ∧ n < 18446744073709551616

instance (n : Int) : Decidable (FitsWord n) := inferInstanceAs (Decidable (_ ∧ _))

/-- A JSON number: exact where it is whole and fits 64 bits, a finite binary64 otherwise. -/
inductive Number where
  | whole (value : Int) (fits : FitsWord value)
  | float (value : Float) (finite : value.isFinite = true)

namespace Number

/-- The whole number `n`, if it fits 64 bits. -/
def ofInt? (n : Int) : Option Number :=
  if fits : FitsWord n then some (.whole n fits) else none

/-- The number `x`, if it is finite. -/
def ofFloat? (x : Float) : Option Number :=
  if finite : x.isFinite = true then some (.float x finite) else none

/-- The nearest binary64 to a whole number that fits 64 bits. -/
def nearestFloat (n : Int) : Float :=
  if 0 ≤ n then n.natAbs.toUInt64.toFloat else -n.natAbs.toUInt64.toFloat

/-- The number as a binary64. -/
def toFloat : Number → Float
  | .whole n _ => nearestFloat n
  | .float x _ => x

/-- Equality of numbers: whole numbers with whole numbers and floats with floats, each by value, so
that `1` differs from `1.0` and the two zeros of a binary64 agree. -/
def same : Number → Number → Bool
  | .whole m _, .whole n _ => m == n
  | .float x _, .float y _ => x == y
  | _, _ => false

/-! ## Literals -/

/-- How a number is spelled: `[-]whole[.fraction][e[-]exponent]`, each part a list of digits. -/
structure Literal where
  negative : Bool
  whole : List Nat
  fraction : Option (List Nat)
  exponent : Option (Bool × List Nat)

/-- The natural number that a list of decimal digits spells. -/
def ofDigits (digits : List Nat) : Nat := digits.foldl (fun n d => 10 * n + d) 0

/-- Appends digits to `n` as long as the result fits 64 bits; the digits from the first one that
does not fit are given back. -/
def appendFitting : Nat → List Nat → Nat × List Nat
  | n, [] => (n, [])
  | n, d :: ds => if 10 * n + d < 18446744073709551616 then appendFitting (10 * n + d) ds else (n, d :: ds)

/-- The power `10 ^ n` as a binary64. -/
def tenPow (n : Nat) : Float := Float.ofScientific 1 false n

/-- `x · 10 ^ exponent`, one rounding for each multiplication or division; `none` if the result is
too large.  Exponents below `-308` are taken in steps, because `10 ^ 309` is not a binary64. -/
def scale (x : Float) (exponent : Int) : Option Float :=
  if 308 < exponent then
    if x == 0 then some x else none
  else if 0 ≤ exponent then
    let y := x * tenPow exponent.toNat
    if y.isInf then none else some y
  else if -308 ≤ exponent then some (x / tenPow (-exponent).toNat)
  else if x == 0 then some x
  else scale (x / tenPow 308) (exponent + 308)
termination_by (-exponent).toNat
decreasing_by omega

namespace Literal

/-- The binary64 of a literal: its leading digits that fit 64 bits, scaled by a power of ten. -/
def toFloat? (l : Literal) : Option Float :=
  let (lead, excess) := appendFitting 0 l.whole
  let fraction := l.fraction.getD []
  let (significand, dropped) := appendFitting lead fraction
  let shift : Int := excess.length - (fraction.length - dropped.length : Nat)
  let exponent : Int := match l.exponent with
    | none => 0
    | some (true, digits) => -(ofDigits digits : Int)
    | some (false, digits) => ofDigits digits
  (scale significand.toUInt64.toFloat (shift + exponent)).map fun x => if l.negative then -x else x

/-- The whole number that the literal spells, if it has neither fraction nor exponent, is not `-0`
and fits 64 bits. -/
def toInt? (l : Literal) : Option Number :=
  match l.fraction, l.exponent with
  | none, none =>
    let n := ofDigits l.whole
    if l.negative then (if n == 0 then none else ofInt? (-n)) else ofInt? n
  | _, _ => none

/-- The number that the literal denotes, if it is in range. -/
def toNumber? (l : Literal) : Option Number :=
  l.toInt?.or (l.toFloat?.bind ofFloat?)

end Literal

/-! ## Text -/

/-- Numbers from `10 ^ (-5)` up to, but not including, `10 ^ 16` are written positionally. -/
def positional (point : Int) : Bool := -5 < point && point ≤ 16

/-- The text of a binary64: its shortest decimal, always with a fraction or an exponent, so that it
reads back as a float. -/
def floatText (x : Float) : String :=
  let decimal := shortestDecimal x
  let digits := Nat.toDigits 10 decimal.digits
  let point : Int := digits.length + decimal.exponent
  let sign := if x.toBits.toNat < 9223372036854775808 then [] else ['-']
  let text :=
    if positional point then
      if 0 < decimal.exponent then
        digits ++ List.replicate decimal.exponent.toNat '0' ++ ['.', '0']
      else if decimal.exponent == 0 then digits ++ ['.', '0']
      else if 0 < point then digits.take point.toNat ++ '.' :: digits.drop point.toNat
      else '0' :: '.' :: (List.replicate (-point).toNat '0' ++ digits)
    else
      let power := point - 1
      let mantissa := match digits with
        | d :: [] => [d]
        | d :: ds => d :: '.' :: ds
        | [] => []
      mantissa ++ 'e' :: (if power < 0 then '-' else '+') :: Nat.toDigits 10 power.natAbs
  String.ofList (sign ++ text)

/-- The text of a number. -/
def text : Number → String
  | .whole n _ => toString n
  | .float x _ => floatText x

end Number

end RequestBoard
