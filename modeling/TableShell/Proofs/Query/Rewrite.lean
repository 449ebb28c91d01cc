import TableShell.Proofs.Query.Form

/-!
# What a plain statement is sent as

An UPDATE, a DELETE or an INSERT whose table is a plain word is always accepted. It is sent with the
table in double quotes, and what follows the table, or the keyword VALUE, is sent tidy and with
single quotes only (`Query.ofSource_plain_table`).
-/

namespace TableShell

namespace Query

open Lexeme

/-! ## What follows the table -/

/-- A text in the form in which it is sent: tidy, and with single quotes only. -/
def normal (t : String) : String := singleQuotes (String.ofList (tidy t.toList))

/-- Copying the lexemes of a text gives its normal form. -/
theorem copyRest_lexemes (t : String) : copyRest (lexemes true t.toList) = normal t := by
  rw [copyRest_eq, flatMap_text_lexemes, normal]

/-- A source that starts with its verb. -/
theorem lexemesOf_eq {source verb : String} {ls : List Lexeme} (hverb : verb ≠ spaceToken)
    (h : lexemes true source.toList = .word verb.toList :: ls) :
    lexemesOf source = .word verb.toList :: ls := by
  rw [lexemesOf, h, List.dropWhile_cons_of_neg]
  simpa [bare_word] using hverb

/-! ## Statements with a plain table -/

section Plain

variable {w t : String}

/-- An UPDATE of a plain table is sent with the table quoted and the rest in normal form. -/
theorem ofSource_update (hw : IsWord w.toList) (ht : t.toList.head?.any isWordChar = false) :
    ofSource ("UPDATE " ++ w ++ t) = .ok ⟨"UPDATE " ++ quoted w ++ normal t, none⟩ := by
  have hls : lexemes true ("UPDATE " ++ w ++ t).toList =
      .word "UPDATE".toList :: .space :: .word w.toList :: lexemes true t.toList := by
    have hsplit : ("UPDATE " ++ w ++ t).toList =
        "UPDATE".toList ++ ' ' :: (w.toList ++ t.toList) := by simp
    rw [hsplit, lexemes_word_space (by decide +kernel) (hw.head_ne_space _),
      lexemes_word_append hw ht]
  have hsends := Sends.mk (lexemesOf_eq (by decide) hls) (by decide +kernel)
    (.update bare_space) ⟨rfl, rfl⟩
  rw [ofSource_eq_ok.2 ⟨_, _, _, hsends⟩, copyRest_lexemes, bare_word, bare_word]
  simp [← String.append_assoc]

/-- A DELETE from a plain table is sent with the table quoted and the rest in normal form. -/
theorem ofSource_delete (hw : IsWord w.toList) (ht : t.toList.head?.any isWordChar = false) :
    ofSource ("DELETE FROM " ++ w ++ t) = .ok ⟨"DELETE FROM " ++ quoted w ++ normal t, none⟩ := by
  have hls : lexemes true ("DELETE FROM " ++ w ++ t).toList =
      .word "DELETE".toList :: .space :: .word "FROM".toList :: .space :: .word w.toList ::
        lexemes true t.toList := by
    have hsplit : ("DELETE FROM " ++ w ++ t).toList =
        "DELETE".toList ++ ' ' :: ("FROM".toList ++ ' ' :: (w.toList ++ t.toList)) := by simp
    have hfrom : IsWord "FROM".toList := by decide +kernel
    rw [hsplit, lexemes_word_space (by decide +kernel) (hfrom.head_ne_space _),
      lexemes_word_space hfrom (hw.head_ne_space _), lexemes_word_append hw ht]
  have hsends := Sends.mk (lexemesOf_eq (by decide) hls) (by decide +kernel)
    (.delete bare_space (.inr (bare_word _)) bare_space) ⟨rfl, rfl⟩
  rw [ofSource_eq_ok.2 ⟨_, _, _, hsends⟩, copyRest_lexemes, bare_word, bare_word, bare_word]
  simp [← String.append_assoc]

/-- An INSERT into a plain table is sent with the table quoted, the keyword VALUE and the rest in
normal form. -/
theorem ofSource_insert {keyword : String} (hk : keyword = "VALUE" ∨ keyword = "VALUES")
    (hw : IsWord w.toList) (ht : t.toList.head?.any isWordChar = false) :
    ofSource ("INSERT INTO " ++ w ++ " " ++ keyword ++ t) =
      .ok ⟨"INSERT INTO " ++ quoted w ++ " VALUE" ++ normal t, none⟩ := by
  have hkeyword : IsWord keyword.toList := by
    rcases hk with rfl | rfl <;> decide +kernel
  have hls : lexemes true ("INSERT INTO " ++ w ++ " " ++ keyword ++ t).toList =
      .word "INSERT".toList :: .space :: .word "INTO".toList :: .space :: .word w.toList ::
        .space :: .word keyword.toList :: lexemes true t.toList := by
    have hsplit : ("INSERT INTO " ++ w ++ " " ++ keyword ++ t).toList =
        "INSERT".toList ++ ' ' :: ("INTO".toList ++ ' ' ::
          (w.toList ++ ' ' :: (keyword.toList ++ t.toList))) := by simp
    have hinto : IsWord "INTO".toList := by decide +kernel
    rw [hsplit, lexemes_word_space (by decide +kernel) (hinto.head_ne_space _),
      lexemes_word_space hinto (hw.head_ne_space _),
      lexemes_word_space hw (hkeyword.head_ne_space _), lexemes_word_append hkeyword ht]
  have hvalue : valueKeyword? (bare (.word keyword.toList)) = some "VALUE" := by
    rw [bare_word]
    rcases hk with rfl | rfl <;> decide
  have hhead : ∀ l ∈ [Lexeme.space], bare l ≠ "into" ∧ bare l ≠ "INTO" := by decide +kernel
  have hsends := Sends.mk (lexemesOf_eq (by decide) hls) (by decide +kernel)
    (.insert hhead (.inr (bare_word _)) bare_space bare_space hvalue) ⟨rfl, rfl⟩
  have hfront : written ([.space] ++ [.word "INTO".toList]) = " INTO" := by decide +kernel
  rw [ofSource_eq_ok.2 ⟨_, _, _, hsends⟩, copyRest_lexemes, bare_word, bare_word, hfront]
  simp [← String.toList_inj]

/-- Whatever follows a table that is a plain word, or the keyword VALUE after it, the statement is
accepted without a limit. The table is put in double quotes, VALUES becomes VALUE, and the text that
follows is sent in its normal form. -/
theorem ofSource_plain_table (hw : IsWord w.toList) (ht : t.toList.head?.any isWordChar = false) :
    ofSource ("UPDATE " ++ w ++ t) = .ok ⟨"UPDATE " ++ quoted w ++ normal t, none⟩ ∧
      ofSource ("DELETE FROM " ++ w ++ t) = .ok ⟨"DELETE FROM " ++ quoted w ++ normal t, none⟩ ∧
      ∀ keyword ∈ ["VALUE", "VALUES"],
        ofSource ("INSERT INTO " ++ w ++ " " ++ keyword ++ t) =
          .ok ⟨"INSERT INTO " ++ quoted w ++ " VALUE" ++ normal t, none⟩ := by
  refine ⟨ofSource_update hw ht, ofSource_delete hw ht, fun keyword hk => ?_⟩
  exact ofSource_insert (by simpa using hk) hw ht

end Plain

/-- A statement with spaces, an escaped quote and an open literal. -/
theorem ofSource_plain_table_with_hyphen :
    ofSource ("UPDATE " ++ "t-1" ++ " SET  a=\"x\\\"y\", b='z") =
        .ok ⟨"UPDATE \"t-1\" SET a='x'y', b='z", none⟩ ∧
      ofSource ("DELETE FROM " ++ "t-1" ++ "") = .ok ⟨"DELETE FROM \"t-1\"", none⟩ ∧
      ofSource ("INSERT INTO " ++ "t-1" ++ " " ++ "VALUES" ++ "\t['a',\"b\"]") =
        .ok ⟨"INSERT INTO \"t-1\" VALUE['a','b']", none⟩ := by
  have hw : IsWord "t-1".toList := by decide +kernel
  have accepted {sent expected : String} (h : sent = expected) :
      (.ok ⟨sent, none⟩ : Except Error Query) = .ok ⟨expected, none⟩ := by rw [h]
  refine ⟨?_, ?_, ?_⟩
  · exact (ofSource_plain_table hw (by decide +kernel)).1.trans (accepted (by decide +kernel))
  · exact (ofSource_plain_table hw (by decide +kernel)).2.1.trans (accepted (by decide +kernel))
  · exact ((ofSource_plain_table hw (by decide +kernel)).2.2 "VALUES" (by decide)).trans
      (accepted (by decide +kernel))

end Query

end TableShell
