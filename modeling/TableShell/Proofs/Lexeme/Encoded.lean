import TableShell.Proofs.Lexeme.Typed

/-!
# Literals of any content

Any text can be the content of a literal, whatever quotes and backslashes it has and wherever they
stand (`Lexeme.Encodes`, `Lexeme.encodes_escaped`). However it is written between its quotes, it is
read back as it was, and reading stops right behind the second quote (`Lexer.next_encoded`).
-/

namespace TableShell

namespace Lexeme

variable {quote : Char} {content body : List Char}

/-- A content, and what may be typed for it between two quotes. A backslash stands before each
backslash and each quote of the content. Line feeds, carriage returns and tabs are typed as they are
or as letters behind backslashes. -/
inductive Encodes (quote : Char) : List Char → List Char → Prop
  | nil : Encodes quote [] []
  | plain {c : Char} {content body : List Char} (hc : c ≠ '\\' ∧ c ≠ quote)
      (h : Encodes quote content body) : Encodes quote (c :: content) (c :: body)
  | escape {c : Char} {content body : List Char} (hc : c = '\\' ∨ c = quote)
      (h : Encodes quote content body) : Encodes quote (c :: content) ('\\' :: c :: body)
  | lineFeed {content body : List Char} (h : Encodes quote content body) :
      Encodes quote ('\n' :: content) ('\\' :: 'n' :: body)
  | carriageReturn {content body : List Char} (h : Encodes quote content body) :
      Encodes quote ('\r' :: content) ('\\' :: 'r' :: body)
  | tab {content body : List Char} (h : Encodes quote content body) :
      Encodes quote ('\t' :: content) ('\\' :: 't' :: body)

/-- Every content can be typed. -/
theorem encodes_escaped (quote : Char) (content : List Char) :
    Encodes quote content (escaped quote content) := by
  induction content with
  | nil => exact .nil
  | cons c content ih =>
    rw [escaped, List.flatMap_cons, ← escaped]
    split
    · next hc => exact .escape hc ih
    · next hc => exact .plain (not_or.1 hc) ih

/-- What is typed for a content stands for it. -/
theorem Encodes.decodes (hq : isQuote quote = true) (h : Encodes quote content body) :
    Decodes quote body content := by
  induction h with
  | nil => exact .nil
  | plain hc _ ih => exact .plain hc ih
  | escape hc _ ih => exact .escape (escapes_iff.2 (unescape_eq hq hc)) ih
  | lineFeed _ ih => exact .escape .lineFeed ih
  | carriageReturn _ ih => exact .escape .carriageReturn ih
  | tab _ ih => exact .escape .tab ih

end Lexeme

namespace Lexer

/-- Any text can be typed as a literal, and however it is typed, a lexer hands it out, between the
quotes if it keeps them, and has exactly what follows left to read. -/
theorem next_encoded {quote : Char} (hq : quote = '\'' ∨ quote = '"') (content : String) :
    (∃ body, Lexeme.Encodes quote content.toList body) ∧
      ∀ body, Lexeme.Encodes quote content.toList body → ∀ (lexer : Lexer) (r : List Char),
        lexer.rest = quote :: (body ++ quote :: r) →
          let token := if lexer.keepQuotes then
            String.singleton quote ++ content ++ String.singleton quote else content
          lexer.next = (some token, { lexer with rest := r, current := some token }) := by
  have hquote := Lexeme.isQuote_iff.2 hq
  refine ⟨⟨_, Lexeme.encodes_escaped quote content.toList⟩, fun body hbody lexer r hrest => ?_⟩
  have hscan : Lexeme.scan lexer.keepSpaces lexer.rest =
      some (.literal quote content.toList true, r) := by
    rw [hrest, Lexeme.scan_quote hquote, (hbody.decodes hquote).scanLiteral_closed hquote]
  have htoken : (Lexeme.literal quote content.toList true).token lexer.keepQuotes =
      if lexer.keepQuotes then String.singleton quote ++ content ++ String.singleton quote
      else content := by
    rw [← String.toList_inj, Lexeme.toList_token]
    cases lexer.keepQuotes <;> simp [Lexeme.text]
  rw [next_of_scan_some hscan, htoken]

/-- A content with both quotes, a backslash before a letter, one at its end and control characters,
one of which is typed as it is. -/
theorem next_encoded_both_quotes :
    ∃ (body : List Char) (lexer : Lexer),
      Lexeme.Encodes '\'' "\\n'\"\n\t\\".toList body ∧
      lexer = { ofText "'\\\\n\\'\"\\n\t\\\\' 'x'" with keepQuotes := true } ∧
      lexer.rest = '\'' :: (body ++ '\'' :: " 'x'".toList) ∧
      lexer.next = (some "'\\n'\"\n\t\\'",
        { lexer with rest := " 'x'".toList, current := some "'\\n'\"\n\t\\'" }) := by
  have hcontent : "\\n'\"\n\t\\".toList = ['\\', 'n', '\'', '"', '\n', '\t', '\\'] := by decide
  have hbody : Lexeme.Encodes '\'' "\\n'\"\n\t\\".toList
      ['\\', '\\', 'n', '\\', '\'', '"', '\\', 'n', '\t', '\\', '\\'] := by
    rw [hcontent]
    exact .escape (.inl rfl) (.plain (by decide) (.escape (.inr rfl) (.plain (by decide)
      (.lineFeed (.plain (by decide) (.escape (.inl rfl) .nil))))))
  refine ⟨_, _, hbody, rfl, by decide +kernel, ?_⟩
  exact (next_encoded (.inl rfl) _).2 _ hbody _ _ (by decide +kernel)

end Lexer

end TableShell
