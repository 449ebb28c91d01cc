/-!
# Binary floating-point numbers of 64 bits

A finite number of this format is a significand below 2 ^ 53 times a power of two (`Binary64`).
`Binary64.nearest?` takes a fraction to the nearest such number, a tie to the even significand, and
is `none` if the fraction is too large. `Binary64.shortest` gives the fewest decimal digits that lie
nearer to a number than to any other: it tries the two neighbours of the number on the decimal grids
of 1, 2, … 17 digits, and all of its arithmetic is exact.
-/

namespace TableShell.Number

/-- A finite number: the significand times two to the exponent, with a sign. -/
structure Binary64 where
  negative : Bool
  significand : Nat
  exponent : Int
  deriving DecidableEq, Repr

/-- A fraction of natural numbers. -/
structure Fraction where
  num : Nat
  den : Nat
  deriving DecidableEq, Repr

namespace Fraction

/-- The fraction times a power of the base. -/
def scale (x : Fraction) (base : Nat) (exponent : Int) : Fraction :=
  match exponent with
  | .ofNat n => ⟨x.num * base.pow n, x.den⟩
  | .negSucc n => ⟨x.num, x.den * base.pow (n + 1)⟩

/-- The greatest natural number that is no greater. -/
def floor (x : Fraction) : Nat := x.num / x.den

/-- The nearest natural number, and of two the even one. -/
def round (x : Fraction) : Nat :=
  let quotient := x.num / x.den
  let rest := x.num % x.den
  if 2 * rest < x.den then quotient
  else if x.den < 2 * rest then quotient + 1
  else if quotient % 2 = 0 then quotient else quotient + 1

/-- One fraction is less than another, or equal to it where that is asked. -/
def below (orEqual : Bool) (x y : Fraction) : Bool :=
  x.num * y.den < y.num * x.den || (orEqual && x.num * y.den == y.num * x.den)

end Fraction

/-- The number of decimal digits of a natural number. -/
def decimalLength (n : Nat) : Nat := (Nat.toDigits 10 n).length

/-- The exponent of the leading decimal digit of a fraction other than zero. -/
def leadingExponent (x : Fraction) : Int :=
  let guess : Int := (decimalLength x.num : Int) - decimalLength x.den
  if 1 ≤ (x.scale 10 (-guess)).floor then guess else guess - 1

namespace Binary64

/-- All significands are less than this. -/
def significandBound : Nat := Nat.pow 2 53

/-- The exponent of the smallest numbers. -/
def minExponent : Int := -1074

/-- The exponent of the greatest numbers. -/
def maxExponent : Int := 971

/-- The exponent that leaves the significand of a fraction 53 bits, or fewer for a very small one.
-/
def exponentFor (x : Fraction) : Int :=
  let guess : Int := (Nat.log2 x.num : Int) - Nat.log2 x.den - 53
  let exponent := if significandBound ≤ (x.scale 2 (-guess)).floor then guess + 1 else guess
  max exponent minExponent

/-- The number nearest to a fraction with a sign, unless that is too large. -/
def nearest? (negative : Bool) (x : Fraction) : Option Binary64 :=
  if x.num = 0 then some ⟨negative, 0, minExponent⟩
  else
    let exponent := exponentFor x
    let significand := (x.scale 2 (-exponent)).round
    let (significand, exponent) :=
      if significand = significandBound then (significandBound / 2, exponent + 1)
      else (significand, exponent)
    if maxExponent < exponent then none else some ⟨negative, significand, exponent⟩

/-! ## The fewest digits -/

/-- Four times the number, and the ends of the interval of fractions nearest to it, all without
sign. -/
def fourfold (x : Binary64) : Fraction × Fraction × Fraction :=
  let m := x.significand
  let step (k : Nat) : Fraction := (Fraction.mk k 4).scale 2 x.exponent
  let low := if 2 * m = significandBound ∧ minExponent < x.exponent then 4 * m - 1 else 4 * m - 2
  (step (4 * m), step low, step (4 * m + 2))

/-- The neighbour of the number on a decimal grid that lies in the interval, the nearer one if both
do, and the even one of two equally near. -/
def onGrid? (x : Binary64) (grid : Int) : Option Nat :=
  let (value, low, high) := x.fourfold
  let even := x.significand % 2 = 0
  let scaled := value.scale 10 (-grid)
  let down := scaled.floor
  let point (n : Nat) : Fraction := (Fraction.mk n 1).scale 10 grid
  let inside (n : Nat) : Bool := low.below even (point n) && (point n).below even high
  match inside down, inside (down + 1) with
  | true, true => some scaled.round
  | true, false => some down
  | false, true => some (down + 1)
  | false, false => none

/-- The first grid of at most `count` more digits that has a point nearest to the number. -/
def firstGrid (x : Binary64) : Nat → Int → Nat × Int
  | 0, grid => ((x.fourfold.1.scale 10 (-grid)).round, grid)
  | count + 1, grid =>
    match x.onGrid? grid with
    | some n => (n, grid)
    | none => firstGrid x count (grid - 1)

/-- The digits without the zeros at the end, and the exponent of the last one. -/
def dropZeros : Nat → Nat → Int → Nat × Int
  | 0, n, e => (n, e)
  | fuel + 1, n, e => if n % 10 = 0 then dropZeros fuel (n / 10) (e + 1) else (n, e)

/-- The fewest digits that lie nearest to the number, as a natural number, and the exponent of the
last one. -/
def shortest (x : Binary64) : Nat × Int :=
  if x.significand = 0 then (0, 0)
  else
    let (n, e) := firstGrid x 16 (leadingExponent x.fourfold.1)
    dropZeros 17 n e

end Binary64

end TableShell.Number
