import TableShell.Number.Binary64
import TableShell.Number.Integer

/-!
# Numbers written in decimal

A decimal number is an optional sign, digits with or without a point among them, and an optional
exponent (`Decimal.read?`). There is at least one digit on either side of the point.
`Decimal.toBinary64?` is the nearest floating-point number. A floating-point number is written with
its fewest digits (`Binary64.text`), without an exponent if its first digit stands between 10 ^ (-5)
and 10 ^ 15, and with a sign in the exponent otherwise.
-/

namespace TableShell.Number

/-- The coefficient times ten to the exponent, with a sign. -/
structure Decimal where
  negative : Bool
  coefficient : Nat
  exponent : Int
  deriving DecidableEq, Repr

namespace Decimal

/-- The coefficient and the exponent of digits with at most one point among them. -/
def readUnsigned? (s : List Char) : Option (Nat × Int) :=
  let whole := s.takeWhile (· != '.')
  let places := (s.dropWhile (· != '.')).drop 1
  (readDigits (whole ++ places)).map fun n => (n, -(places.length : Int))

/-- A character before the exponent. -/
def isMark (c : Char) : Bool := c == 'e' || c == 'E'

/-- The number that a text writes. -/
def read? (s : List Char) : Option Decimal :=
  let (negative, unsigned) := match s with
    | '-' :: cs => (true, cs)
    | '+' :: cs => (false, cs)
    | cs => (false, cs)
  let mantissa := unsigned.takeWhile fun c => !isMark c
  let power := match unsigned.dropWhile fun c => !isMark c with
    | [] => some 0
    | _ :: cs => readInt cs
  match readUnsigned? mantissa, power with
  | some (coefficient, places), some power => some ⟨negative, coefficient, places + power⟩
  | _, _ => none

/-- The exponent of the first digit. -/
def firstExponent (d : Decimal) : Int := d.exponent + decimalLength d.coefficient - 1

/-- The nearest floating-point number, unless that is too large. A first digit beyond 10 ^ 400 or
below 10 ^ (-400) decides by itself. -/
def toBinary64? (d : Decimal) : Option Binary64 :=
  if d.coefficient = 0 ∨ d.firstExponent < -400 then some ⟨d.negative, 0, Binary64.minExponent⟩
  else if 400 < d.firstExponent then none
  else Binary64.nearest? d.negative ((Fraction.mk d.coefficient 1).scale 10 d.exponent)

end Decimal

namespace Binary64

/-- The digits of a natural number. -/
def digits (n : Nat) : List Char := Nat.toDigits 10 n

/-- The text of digits whose last one has the given exponent, without an exponent of its own. -/
def positional (ds : List Char) (last : Int) : List Char :=
  match last with
  | .ofNat n => ds ++ List.replicate n '0' ++ ['.', '0']
  | .negSucc n =>
    let places := n + 1
    let ds := List.replicate (places + 1 - ds.length) '0' ++ ds
    ds.take (ds.length - places) ++ '.' :: ds.drop (ds.length - places)

/-- The text of digits whose first one has the given exponent, with that exponent. -/
def scientific (ds : List Char) (first : Int) : List Char :=
  let places := match ds.tail with
    | [] => []
    | ds => '.' :: ds
  let sign := if first < 0 then '-' else '+'
  ds.take 1 ++ places ++ 'e' :: sign :: digits first.natAbs

/-- The text of a floating-point number. -/
def text (x : Binary64) : List Char :=
  let (n, last) := x.shortest
  let ds := digits n
  let first := last + ds.length - 1
  let unsigned := if -5 ≤ first ∧ first < 16 then positional ds last else scientific ds first
  if x.negative then '-' :: unsigned else unsigned

end Binary64

end TableShell.Number
