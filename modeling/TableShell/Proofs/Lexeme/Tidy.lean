import TableShell.Lexer
import TableShell.Proofs.Lexeme.Printed

/-!
# What a lexer keeps of a text

The tokens of a lexer that keeps quotes and spaces, written one after the other, are the text itself
with its layout left out, its runs of spaces cut down to one space and the escapes in its literals
decoded; nothing else is lost, added or moved. `Lexeme.Tidied` says which text that is, piece by
piece and without a lexer, and `Lexer.tidied_iff` that the tokens are this text and no other.
-/

namespace TableShell

namespace Lexeme

/-- A text, and the text without its layout, with one space for each run of spaces and with the
escapes in its literals decoded. A literal goes from its quote to the next quote of the same kind
that is not behind a backslash, or to the end of the text. -/
inductive Tidied : List Char → List Char → Prop
  | nil : Tidied [] []
  | layout {c : Char} {s t : List Char} (hc : c = '\r' ∨ c = '\t' ∨ c = '\n') (h : Tidied s t) :
      Tidied (c :: s) t
  | spaces {n : Nat} {s t : List Char} (hs : s.head? ≠ some ' ') (h : Tidied s t) :
      Tidied (List.replicate (n + 1) ' ' ++ s) (' ' :: t)
  | plain {c : Char} {s t : List Char} (hc : c ∉ ['\r', '\t', '\n', ' ', '\'', '"'])
      (h : Tidied s t) : Tidied (c :: s) (c :: t)
  | literal {quote : Char} {body content s t : List Char} (hq : quote = '\'' ∨ quote = '"')
      (hbody : Decodes quote body content) (h : Tidied s t) :
      Tidied (quote :: (body ++ quote :: s)) (quote :: (content ++ quote :: t))
  /-- A literal without its second quote. -/
  | unclosed {quote : Char} {body content : List Char} (hq : quote = '\'' ∨ quote = '"')
      (hbody : Decodes quote body content) : Tidied (quote :: body) (quote :: content)
  /-- A literal without its second quote, and a backslash that ends the text. -/
  | dangling {quote : Char} {body content : List Char} (hq : quote = '\'' ∨ quote = '"')
      (hbody : Decodes quote body content) :
      Tidied (quote :: (body ++ ['\\'])) (quote :: content)

variable {quote : Char} {body content s t : List Char}

/-- What is read inside a literal is decoded. -/
theorem Decodes.tidyFrom_append (h : Decodes quote body content) (s : List Char) :
    tidyFrom (.inside quote) (body ++ s) = content ++ tidyFrom (.inside quote) s := by
  rw [tidyFrom_inside, h.scanLiteral_append, tidyFrom_inside quote s, List.append_assoc,
    List.append_assoc, List.append_assoc]

/-- A quote is kept, and what follows is read as its literal. -/
theorem tidyFrom_quote (hq : isQuote quote = true) (s : List Char) :
    tidyFrom .outside (quote :: s) = quote :: tidyFrom (.inside quote) s := by
  obtain ⟨hl, hs⟩ := kind_of_isQuote hq
  simp [tidyFrom, hl, hs, hq]

/-- The quote of a literal is kept and ends it. -/
theorem tidyFrom_close (hq : isQuote quote = true) (s : List Char) :
    tidyFrom (.inside quote) (quote :: s) = quote :: tidyFrom .outside s := by
  rw [tidyFrom_inside, scanLiteral_close hq]
  rfl

/-- A text is tidied as it is read. -/
theorem Tidied.tidy_eq (h : Tidied s t) : tidy s = t := by
  rw [tidy]
  induction h with
  | nil => rfl
  | layout hc _ ih =>
    have hl := isLayout_iff.2 hc
    simp [tidyFrom, hl, ih]
  | @spaces n s t hs _ ih =>
    have hrun : (List.replicate n ' ' ++ s).dropWhile (· == ' ') = s := by
      rw [List.dropWhile_append_of_pos (by simp)]
      cases s with
      | nil => rfl
      | cons c s => exact List.dropWhile_cons_of_neg (by simpa using hs)
    have hfirst : tidyFrom .outside (' ' :: (List.replicate n ' ' ++ s)) =
        ' ' :: tidyFrom .spaced (List.replicate n ' ' ++ s) := rfl
    rw [List.replicate_succ, List.cons_append, hfirst, tidyFrom_spaced, hrun, ih]
  | @plain c s t hc _ ih =>
    have hl : isLayout c = false := by simp_all [isLayout]
    have hq : isQuote c = false := by simp_all [isQuote]
    have hs : c ≠ ' ' := by simp_all
    simp [tidyFrom, hl, hq, hs, ih]
  | literal hq hbody _ ih =>
    have hquote := isQuote_iff.2 hq
    rw [tidyFrom_quote hquote, hbody.tidyFrom_append, tidyFrom_close hquote, ih]
  | unclosed hq hbody =>
    have hinside := hbody.tidyFrom_append []
    rw [List.append_nil] at hinside
    rw [tidyFrom_quote (isQuote_iff.2 hq), hinside, tidyFrom, List.append_nil]
  | @dangling quote body content hq hbody =>
    have hbackslash : tidyFrom (.inside quote) ['\\'] = [] := rfl
    rw [tidyFrom_quote (isQuote_iff.2 hq), hbody.tidyFrom_append, hbackslash, List.append_nil]

/-- Tidying keeps a word in front of a text. -/
theorem Tidied.word {w : List Char} (hw : ∀ c ∈ w, isWordChar c = true) (h : Tidied s t) :
    Tidied (w ++ s) (w ++ t) := by
  induction w with
  | nil => exact h
  | cons c w ih =>
    obtain ⟨hc, hw⟩ := List.forall_mem_cons.1 hw
    obtain ⟨hl, hs, hq⟩ := kind_of_isWordChar hc
    exact .plain (by simp_all [isLayout, isQuote]) (ih hw)

/-- Every text is tidied. -/
theorem tidied_tidy (s : List Char) : Tidied s (tidy s) := by
  rw [tidy]
  induction s using scan_induction with
  | nil => exact .nil
  | layout c cs h ih =>
    have htidy : tidyFrom .outside (c :: cs) = tidyFrom .outside cs := by simp [tidyFrom, h]
    rw [htidy]
    exact .layout (isLayout_iff.1 h) ih
  | space cs ih =>
    have hrun : cs.takeWhile (· == ' ') =
        List.replicate (cs.takeWhile (· == ' ')).length ' ' :=
      List.eq_replicate_length.2 fun c hc => by
        simpa using List.all_eq_true.1 List.all_takeWhile c hc
    have hhead : (cs.dropWhile (· == ' ')).head? ≠ some ' ' := by
      intro hspace
      have hany := head?_dropWhile_any (· == ' ') cs
      rw [hspace] at hany
      cases hany
    have htext : ' ' :: cs = List.replicate ((cs.takeWhile (· == ' ')).length + 1) ' ' ++
        cs.dropWhile (· == ' ') := by
      rw [List.replicate_succ, List.cons_append, ← hrun, List.takeWhile_append_dropWhile]
    have htidy : tidyFrom .outside (' ' :: cs) =
        ' ' :: tidyFrom .outside (cs.dropWhile (· == ' ')) := by
      rw [← tidyFrom_spaced]
      rfl
    rw [htidy, htext]
    exact .spaces hhead ih
  | literal quote cs h ih =>
    obtain ⟨body, hbody, hends⟩ := exists_decodes quote cs
    have hq := isQuote_iff.1 h
    rw [tidyFrom_quote h, tidyFrom_inside]
    rcases hends with ⟨hclosed, htext⟩ | ⟨hopen, htext⟩
    · rw [hclosed, if_pos rfl, List.append_assoc, List.singleton_append]
      nth_rewrite 1 [htext]
      exact .literal hq hbody ih
    · have hrest : tidyFrom .outside (scanLiteral quote cs).2.2 = [] := by
        rw [scanLiteral_rest_of_open hopen]
        rfl
      rw [hopen, hrest, if_neg Bool.false_ne_true, List.append_nil, List.append_nil]
      rcases htext with htext | htext
      · nth_rewrite 1 [htext]
        exact .unclosed hq hbody
      · nth_rewrite 1 [htext]
        exact .dangling hq hbody
  | word c cs h ih =>
    have hword : ∀ d ∈ c :: cs.takeWhile isWordChar, isWordChar d = true :=
      List.forall_mem_cons.2 ⟨h, List.all_eq_true.1 List.all_takeWhile⟩
    have htext : c :: cs = (c :: cs.takeWhile isWordChar) ++ cs.dropWhile isWordChar := by
      rw [List.cons_append, List.takeWhile_append_dropWhile]
    have htidy : tidyFrom .outside (c :: cs) =
        (c :: cs.takeWhile isWordChar) ++ tidyFrom .outside (cs.dropWhile isWordChar) := by
      rw [tidyFrom_word, List.takeWhile_cons_of_pos h, List.dropWhile_cons_of_pos h]
    rw [htidy, htext]
    exact ih.word hword
  | mark c cs h ih =>
    obtain ⟨hl, hs, hq, -⟩ := isMark_iff.1 h
    have htidy : tidyFrom .outside (c :: cs) = c :: tidyFrom .outside cs := by
      simp [tidyFrom, hl, hs, hq]
    rw [htidy]
    exact .plain (by simp_all [isLayout, isQuote]) ih

end Lexeme

/-- The tokens of a lexer that keeps quotes and spaces are together what the text is tidied to. -/
theorem Lexer.tidied_iff (s : String) (t : List Char) :
    Lexeme.Tidied s.toList t ↔
      ({ Lexer.ofText s with keepQuotes := true, keepSpaces := true } : Lexer).tokens.flatMap
        String.toList = t := by
  have htokens : ({ Lexer.ofText s with keepQuotes := true, keepSpaces := true } :
      Lexer).tokens.flatMap String.toList = Lexeme.tidy s.toList := by
    rw [← Lexeme.flatMap_text_lexemes, Lexer.tokens, List.flatMap_map]
    exact List.flatMap_congr fun l _ => Lexeme.toList_token true l
  rw [htokens]
  constructor
  · exact fun h => h.tidy_eq
  · rintro rfl
    exact Lexeme.tidied_tidy s.toList

end TableShell
