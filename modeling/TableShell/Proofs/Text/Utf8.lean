/-!
# The order of texts by their bytes

Texts are ordered by the code points of their characters. In UTF-8 the bytes of a greater character
are greater than those of a smaller one at the first place where they differ, and neither are the
start of the other (`Text.utf8EncodeChar_append_lt`). So the bytes of texts are in the order of the
texts (`Text.bytes_lt_bytes`).
-/

namespace TableShell.Text

/-- The bytes of a text in UTF-8. -/
def bytes (s : String) : List UInt8 := s.toUTF8.data.toList

/-- The bytes of a string are those of its characters, one after the other. -/
theorem bytes_eq (s : String) : bytes s = s.toList.flatMap String.utf8EncodeChar := by
  rw [bytes, String.toUTF8_eq_toByteArray, ← String.utf8Encode_toList, List.utf8Encode,
    List.toList_data_toByteArray]

/-- Of two numbers, the smaller one has the smaller last digit in base 64 if all others agree. -/
theorem lt_by_digit {m n : Nat} (h : m < n) :
    m / 64 < n / 64 ∨ m / 64 = n / 64 ∧ m % 64 < n % 64 := by
  omega

/-- The bytes of characters differ in the order of the characters, whatever follows them. -/
theorem utf8EncodeChar_append_lt {c d : Char} (h : c < d) (s t : List UInt8) :
    String.utf8EncodeChar c ++ s < String.utf8EncodeChar d ++ t := by
  have hlt : c.val.toNat < d.val.toNat := h
  have hmax : d.val.toNat < 0x110000 := by rcases d.valid with hd | hd <;> omega
  -- one case for each number of bytes of either character
  fun_cases String.utf8EncodeChar c <;> fun_cases String.utf8EncodeChar d <;>
    simp only [List.cons_append, List.nil_append, List.cons_lt_cons_iff, UInt8.lt_iff_toNat_lt,
      ← UInt8.toNat_inj, UInt8.toNat_ofNat']
  case case4.case4 m _ _ _ n _ _ _ =>
    replace hlt : m < n := hlt
    replace hmax : n < 0x110000 := hmax
    obtain hlt | ⟨hall, hlast⟩ := lt_by_digit hlt
    · obtain hlt | ⟨hall, hlast⟩ := lt_by_digit hlt
      · obtain hlt | ⟨hall, hlast⟩ := lt_by_digit hlt <;> omega
      · omega
    · omega
  all_goals omega

/-- The bytes of texts are ordered as their characters are. -/
theorem flatMap_utf8EncodeChar_lt {s t : List Char} (h : s < t) :
    s.flatMap String.utf8EncodeChar < t.flatMap String.utf8EncodeChar := by
  induction h with
  | @nil c t =>
    obtain ⟨b, bs, hc⟩ := List.exists_cons_of_ne_nil (String.utf8EncodeChar_ne_nil (c := c))
    rw [List.flatMap_nil, List.flatMap_cons, hc]
    exact List.Lex.nil
  | rel h =>
    rw [List.flatMap_cons, List.flatMap_cons]
    exact utf8EncodeChar_append_lt h _ _
  | cons _ ih =>
    rw [List.flatMap_cons, List.flatMap_cons]
    exact List.append_left_lt ih

/-- The bytes of texts are in the order of the texts. -/
theorem bytes_lt_bytes {s t : String} (h : s < t) : bytes s < bytes t := by
  rw [bytes_eq, bytes_eq]
  exact flatMap_utf8EncodeChar_lt h

end TableShell.Text
