/-!
# How a text starts and ends

Whether a text starts with another one, or ends with a character, by their characters alone: letter
case counts, and so do blanks.
-/

namespace TableShell.Text

/-- The text starts with the other one. -/
def startsWith (s start : String) : Bool := start.toList.isPrefixOf s.toList

/-- The text ends with the character. -/
def endsWith (s : String) (c : Char) : Bool := s.toList.getLast? == some c

/-- A text starts with another exactly when it is that text with something behind it. -/
theorem startsWith_iff {s start : String} : startsWith s start = true ↔ ∃ t, s = start ++ t := by
  rw [startsWith, List.isPrefixOf_iff_prefix]
  constructor
  · rintro ⟨t, ht⟩
    exact ⟨String.ofList t, by rw [← String.toList_inj]; simp [ht]⟩
  · rintro ⟨t, rfl⟩
    exact ⟨t.toList, by simp⟩

end TableShell.Text
