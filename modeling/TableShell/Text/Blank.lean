/-!
# Blank characters

What the shell treats as white space around and between the words of a line: the characters with the
`White_Space` property. A line is read without the blanks at its ends (`trim`), a connect line is
cut into words at its blanks (`words`), and a script is cut into lines at its line feeds (`fields`).
The pieces that `fields` cuts a text into contain no separator, and with the separators put back
they are the text (`intercalate_fields`).
-/

namespace TableShell.Text

/-! ## The property -/

/-- A character with the `White_Space` property. -/
def isBlank (c : Char) : Bool :=
  let n := c.toNat
  (0x9 ≤ n && n ≤ 0xD) || n == 0x20 || n == 0x85 || n == 0xA0 || n == 0x1680 ||
    (0x2000 ≤ n && n ≤ 0x200A) || n == 0x2028 || n == 0x2029 || n == 0x202F || n == 0x205F ||
    n == 0x3000

/-! ## Both ends -/

/-- The text without the blanks it starts with. -/
def dropBlanks (s : List Char) : List Char := s.dropWhile isBlank

/-- The text without the characters of `p` that it ends with. -/
def dropEndWhile (p : Char → Bool) (s : List Char) : List Char := (s.reverse.dropWhile p).reverse

/-- The text without the blanks at either end. -/
def trimmed (s : List Char) : List Char := dropEndWhile isBlank (dropBlanks s)

/-- The text without the blanks at either end. -/
def trim (s : String) : String := String.ofList (trimmed s.toList)

/-- The text without the blanks it ends with. -/
def trimEnd (s : String) : String := String.ofList (dropEndWhile isBlank s.toList)

/-- Trimming a string trims its characters. -/
@[simp] theorem toList_trim (s : String) : (trim s).toList = trimmed s.toList := by simp [trim]

/-! ## Between separators -/

/-- The pieces of a text between its separators; there is always one more piece than separators. -/
def fields (sep : Char → Bool) : List Char → List (List Char)
  | [] => [[]]
  | c :: cs =>
    if sep c then [] :: fields sep cs
    else match fields sep cs with
      | [] => [[c]]
      | f :: fs => (c :: f) :: fs

/-- The blank-separated words of a text, none of them empty. -/
def words (s : List Char) : List (List Char) := (fields isBlank s).filter (!·.isEmpty)

/-- A text has at least one field, the empty text an empty one. -/
theorem fields_ne_nil (sep : Char → Bool) (s : List Char) : fields sep s ≠ [] := by
  induction s with
  | nil => simp [fields]
  | cons c cs ih =>
    rw [fields]
    split
    · simp
    · split <;> simp

/-- The pieces joined with the separator are the text. -/
theorem intercalate_fields (d : Char) (s : List Char) :
    List.intercalate [d] (fields (· == d) s) = s := by
  induction s with
  | nil => simp [fields]
  | cons c cs ih =>
    rw [fields]
    split
    · next h =>
      obtain ⟨f, fs, hf⟩ := List.exists_cons_of_ne_nil (fields_ne_nil (· == d) cs)
      rw [hf] at ih ⊢
      rw [beq_iff_eq] at h
      simpa [List.intercalate, List.intersperse, h] using ih
    · split
      · next h => exact absurd h (fields_ne_nil _ cs)
      · next f fs h =>
        rw [h] at ih
        cases fs <;> simp_all [List.intercalate, List.intersperse]

end TableShell.Text
