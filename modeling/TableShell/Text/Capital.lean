/-!
# Capital letters of keywords

Keywords are spelled with the letters A to Z. Two comparisons are in use: one that takes a letter
for its capital as the full Unicode mapping does (`capitals`), and one that folds the ASCII letters
only (`sameLetters`).

Ten characters outside ASCII have a capital form made of ASCII letters alone. A word with any other
character outside ASCII never becomes a keyword, so `capitals` leaves such a character as it is.
-/

namespace TableShell.Text

/-- The capital form of a character, where that form is ASCII; any other character stands for
itself. -/
def capital (c : Char) : List Char :=
  match c.toNat with
  | 0xDF => ['S', 'S']
  | 0x131 => ['I']
  | 0x17F => ['S']
  | 0xFB00 => ['F', 'F']
  | 0xFB01 => ['F', 'I']
  | 0xFB02 => ['F', 'L']
  | 0xFB03 => ['F', 'F', 'I']
  | 0xFB04 => ['F', 'F', 'L']
  | 0xFB05 => ['S', 'T']
  | 0xFB06 => ['S', 'T']
  | _ => [c.toUpper]

/-- A text in capitals, as far as keywords can tell. -/
def capitals (s : List Char) : List Char := s.flatMap capital

/-- A word spells the keyword in capitals. -/
def spells (word keyword : String) : Bool := capitals word.toList == keyword.toList

/-- Two words of the same letters, an ASCII letter counting as equal to its capital. -/
def sameLetters (a b : String) : Bool := a.toList.map Char.toUpper == b.toList.map Char.toUpper

@[simp] theorem capitals_cons (c : Char) (cs : List Char) :
    capitals (c :: cs) = capital c ++ capitals cs := rfl

/-- Every word has the same letters as itself. -/
theorem sameLetters_refl (a : String) : sameLetters a a = true := by simp [sameLetters]

end TableShell.Text
