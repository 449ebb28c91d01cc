/-!
# Hexadecimal digits

The sixteen digits, those above nine in small letters.
-/

namespace TableShell.Text

/-- The hexadecimal digit of a number below 16. -/
def hexDigit (n : Nat) : Char := if n < 10 then Char.ofNat (48 + n) else Char.ofNat (87 + n)

end TableShell.Text
