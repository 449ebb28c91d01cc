import TableShell.Template
import TableShell.Text.Hex

/-!
# A supply of fresh texts

Identifiers are written in the form of version 4: 32 hexadecimal digits in five groups, the first
digit of the third group 4, and that of the fourth group 8, 9, a or b. The digits come from a number
of 128 bits that is different for every draw.
-/

namespace TableShell

namespace Uuid

/-- The last `count` hexadecimal digits of a number, the highest first. -/
def hexDigits : Nat → Nat → List Char
  | 0, _ => []
  | count + 1, n => hexDigits count (n / 16) ++ [Text.hexDigit (n % 16)]

/-- The identifier of version 4 with the bits of a number. -/
def ofBits (n : Nat) : String :=
  let third := '4' :: hexDigits 3 (n >>> 64)
  let fourth := Text.hexDigit (8 + (n >>> 60) % 4) :: hexDigits 3 (n >>> 48)
  String.ofList <| List.intercalate ['-']
    [hexDigits 8 (n >>> 96), hexDigits 4 (n >>> 80), third, fourth, hexDigits 12 n]

/-- The bits of the draw with the given number. Its factor is odd, so that the first 2 ^ 128 draws
differ. -/
def bits (seed draw : Nat) : Nat :=
  (seed + draw) * 0xDA942042E4DD58B5F2C3A7B1906D44D3 % Nat.pow 2 128

end Uuid

/-- The supply that draws its identifiers from a seed, at a fixed time. -/
def Supply.seeded (seed : Nat) (tenths : Nat) : Supply where
  uuid draw := Uuid.ofBits (Uuid.bits seed draw)
  now _ := toString tenths

end TableShell
