/-!
# Integers written in decimal

An integer is an optional sign and at least one ASCII digit. Leading zeros are allowed, and a reader
asks for a range: `readIntIn lo hi` is `none` outside of it.
-/

namespace TableShell.Number

/-- The number that a list of digits writes, continuing the number `n` written before it. -/
def digitsFrom (n : Nat) : List Char → Option Nat
  | [] => some n
  | c :: cs => if c.isDigit then digitsFrom (10 * n + (c.toNat - '0'.toNat)) cs else none

/-- The number that a non-empty list of digits writes. -/
def readDigits : List Char → Option Nat
  | [] => none
  | c :: cs => digitsFrom 0 (c :: cs)

/-- The natural number that a text writes, with a plus sign or none. -/
def readNat : List Char → Option Nat
  | '+' :: cs => readDigits cs
  | cs => readDigits cs

/-- The integer that a text writes, with a sign or none. -/
def readInt : List Char → Option Int
  | '-' :: cs => (readDigits cs).map (fun n => -(n : Int))
  | cs => (readNat cs).map Int.ofNat

/-- The integer that a text writes, if it lies in the range. -/
def readIntIn (lo hi : Int) (s : List Char) : Option Int :=
  (readInt s).filter fun n => decide (lo ≤ n) && decide (n ≤ hi)

/-- An integer of 32 bits. -/
def readInt32 : List Char → Option Int := readIntIn (-0x80000000) 0x7FFFFFFF

/-- An integer of 64 bits. -/
def readInt64 : List Char → Option Int := readIntIn (-0x8000000000000000) 0x7FFFFFFFFFFFFFFF

/-- A natural number of 64 bits. -/
def readNat64 (s : List Char) : Option Nat := (readNat s).filter (· ≤ 0xFFFFFFFFFFFFFFFF)

end TableShell.Number
