import TableShell.Lexer

/-!
# Reading a text lexeme by lexeme

What the first character of a text is decides what its first lexeme is, and there is one equation
for each kind of character. `Lexeme.scan_induction` is the induction along them: its cases are the
kinds of lexemes, and a case assumes the statement of what follows the lexeme.

`Lexeme.tidy` says, character by character, what the lexemes of a text amount to when they are
written one after the other: layout is gone, a run of spaces is one space, and inside a literal each
escape is the character that it stands for (`Lexeme.flatMap_text_lexemes`).
-/

namespace TableShell

namespace Lexeme

variable {spaces : Bool} {c quote : Char} {cs s : List Char}

/-! ## Kinds of characters -/

/-- A character that is a lexeme by itself. -/
def isMark (c : Char) : Bool := !isLayout c && c != ' ' && !isQuote c && !isWordChar c

/-- The layout characters are the carriage return, the tab and the line feed. -/
theorem isLayout_iff : isLayout c = true ↔ c = '\r' ∨ c = '\t' ∨ c = '\n' := by
  simp [isLayout, or_assoc]

/-- The quotes are the single and the double one. -/
theorem isQuote_iff : isQuote c = true ↔ c = '\'' ∨ c = '"' := by
  simp [isQuote]

/-- A quote is of no other kind. -/
theorem kind_of_isQuote (h : isQuote c = true) : isLayout c = false ∧ c ≠ ' ' := by
  rcases isQuote_iff.1 h with rfl | rfl <;> decide

/-- A word character is of no other kind. -/
theorem kind_of_isWordChar (h : isWordChar c = true) :
    isLayout c = false ∧ c ≠ ' ' ∧ isQuote c = false := by
  refine ⟨?_, ?_, ?_⟩
  · rw [Bool.eq_false_iff]
    intro hl
    rcases isLayout_iff.1 hl with rfl | rfl | rfl <;> exact absurd h (by decide)
  · rintro rfl
    exact absurd h (by decide)
  · rw [Bool.eq_false_iff]
    intro hq
    rcases isQuote_iff.1 hq with rfl | rfl <;> exact absurd h (by decide)

/-- A mark is a character that is neither layout nor a space nor a quote and stands in no word. -/
theorem isMark_iff :
    isMark c = true ↔
      isLayout c = false ∧ c ≠ ' ' ∧ isQuote c = false ∧ isWordChar c = false := by
  simp [isMark, and_assoc]

/-! ## The first lexeme -/

/-- A text that starts in a word is read to the end of the word. -/
theorem scan_word (h : isWordChar c = true) (cs : List Char) :
    scan spaces (c :: cs) =
      some (.word (c :: cs.takeWhile isWordChar), cs.dropWhile isWordChar) := by
  obtain ⟨hl, hs, hq⟩ := kind_of_isWordChar h
  simp [scan, hl, hs, hq, h]

/-- A text that starts with a quote is read to the end of the literal. -/
theorem scan_quote (h : isQuote quote = true) (cs : List Char) :
    scan spaces (quote :: cs) =
      some (.literal quote (scanLiteral quote cs).1 (scanLiteral quote cs).2.1,
        (scanLiteral quote cs).2.2) := by
  obtain ⟨hl, hs⟩ := kind_of_isQuote h
  simp [scan, hl, hs, h]

/-- A text that starts with a mark is read one character far. -/
theorem scan_mark (h : isMark c = true) (cs : List Char) :
    scan spaces (c :: cs) = some (.mark c, cs) := by
  obtain ⟨hl, hs, hq, hw⟩ := isMark_iff.1 h
  simp [scan, hl, hs, hq, hw]

/-! ## One lexeme at a time -/

/-- Texts that start alike to a reader are read alike. -/
theorem lexemes_eq_of_scan_eq {s t : List Char} (h : scan spaces s = scan spaces t) :
    lexemes spaces s = lexemes spaces t := by
  cases hs : scan spaces s with
  | none => rw [lexemes_of_scan_none hs, lexemes_of_scan_none (h ▸ hs)]
  | some p =>
    obtain ⟨l, r⟩ := p
    have ht : scan spaces t = some (l, r) := h ▸ hs
    rw [lexemes_of_scan_some hs, lexemes_of_scan_some ht]

/-- Layout leaves no lexeme. -/
theorem lexemes_layout (h : isLayout c = true) (cs : List Char) :
    lexemes spaces (c :: cs) = lexemes spaces cs :=
  lexemes_eq_of_scan_eq (by rw [scan, if_pos h])

/-- A run of spaces is one lexeme, or none if spaces are left out. -/
theorem lexemes_space (cs : List Char) :
    lexemes spaces (' ' :: cs) =
      (if spaces then [.space] else []) ++ lexemes spaces (cs.dropWhile (· == ' ')) := by
  cases spaces with
  | true => exact lexemes_of_scan_some rfl
  | false =>
    have hskip (cs : List Char) : lexemes false (' ' :: cs) = lexemes false cs :=
      lexemes_eq_of_scan_eq rfl
    rw [hskip]
    induction cs with
    | nil => rfl
    | cons c cs ih =>
      by_cases hc : c = ' '
      · subst hc
        rw [hskip, ih]
        rfl
      · rw [List.dropWhile_cons_of_neg (by simpa using hc)]
        rfl

/-- The lexemes of a text that starts with a quote are the literal and those behind it. -/
theorem lexemes_quote (h : isQuote quote = true) (cs : List Char) :
    lexemes spaces (quote :: cs) =
      .literal quote (scanLiteral quote cs).1 (scanLiteral quote cs).2.1 ::
        lexemes spaces (scanLiteral quote cs).2.2 :=
  lexemes_of_scan_some (scan_quote h cs)

/-- The lexemes of a text that starts in a word are the word and those behind it. -/
theorem lexemes_word (h : isWordChar c = true) (cs : List Char) :
    lexemes spaces (c :: cs) =
      .word (c :: cs.takeWhile isWordChar) :: lexemes spaces (cs.dropWhile isWordChar) :=
  lexemes_of_scan_some (scan_word h cs)

/-- The lexemes of a text that starts with a mark are the mark and those behind it. -/
theorem lexemes_mark (h : isMark c = true) (cs : List Char) :
    lexemes spaces (c :: cs) = .mark c :: lexemes spaces cs :=
  lexemes_of_scan_some (scan_mark h cs)

/-- What follows a word is not its continuation. -/
theorem takeWhile_append_of_head {p : Char → Bool} {w t : List Char} (hw : w.all p = true)
    (ht : t.head?.any p = false) :
    (w ++ t).takeWhile p = w ∧ (w ++ t).dropWhile p = t := by
  rw [List.all_eq_true] at hw
  rw [List.takeWhile_append_of_pos hw, List.dropWhile_append_of_pos hw]
  cases t with
  | nil => simp
  | cons c t =>
    have hc : ¬ p c = true := by simpa using ht
    rw [List.takeWhile_cons_of_neg hc, List.dropWhile_cons_of_neg hc, List.append_nil]
    exact ⟨rfl, rfl⟩

/-- A run of word characters. -/
def IsWord (w : List Char) : Prop := w ≠ [] ∧ w.all isWordChar = true

instance : DecidablePred IsWord := fun _ => inferInstanceAs (Decidable (_ ∧ _))

/-- A text that starts with a word starts with no space. -/
theorem IsWord.head_ne_space {w : List Char} (h : IsWord w) (t : List Char) :
    (w ++ t).head? ≠ some ' ' := by
  obtain ⟨hne, hw⟩ := h
  obtain ⟨c, w, rfl⟩ := List.exists_cons_of_ne_nil hne
  simpa using (kind_of_isWordChar (List.all_eq_true.1 hw c List.mem_cons_self)).2.1

/-- A word in front of what does not continue it is a lexeme. -/
theorem lexemes_word_append {w t : List Char} (h : IsWord w)
    (ht : t.head?.any isWordChar = false) :
    lexemes spaces (w ++ t) = .word w :: lexemes spaces t := by
  obtain ⟨hne, hw⟩ := h
  obtain ⟨c, w, rfl⟩ := List.exists_cons_of_ne_nil hne
  obtain ⟨hc, hw⟩ : isWordChar c = true ∧ w.all isWordChar = true := by simpa using hw
  obtain ⟨htake, hdrop⟩ := takeWhile_append_of_head hw ht
  rw [List.cons_append, lexemes_word hc, htake, hdrop]

/-- A space in front of what starts with no space is a lexeme. -/
theorem lexemes_space_append {t : List Char} (ht : t.head? ≠ some ' ') :
    lexemes true (' ' :: t) = .space :: lexemes true t := by
  have hdrop : t.dropWhile (· == ' ') = t := by
    cases t with
    | nil => rfl
    | cons c t => exact List.dropWhile_cons_of_neg (by simpa using ht)
  rw [lexemes_space, if_pos rfl, hdrop]
  rfl

/-- A word, one space and what starts with no space. -/
theorem lexemes_word_space {w t : List Char} (hw : IsWord w) (ht : t.head? ≠ some ' ') :
    lexemes true (w ++ ' ' :: t) = .word w :: .space :: lexemes true t := by
  have hspace : (' ' :: t).head?.any isWordChar = false := rfl
  rw [lexemes_word_append hw hspace, lexemes_space_append ht]

/-- The induction along the lexemes of a text. -/
theorem scan_induction {motive : List Char → Prop} (nil : motive [])
    (layout : ∀ c cs, isLayout c = true → motive cs → motive (c :: cs))
    (space : ∀ cs, motive (cs.dropWhile (· == ' ')) → motive (' ' :: cs))
    (literal : ∀ quote cs, isQuote quote = true → motive (scanLiteral quote cs).2.2 →
      motive (quote :: cs))
    (word : ∀ c cs, isWordChar c = true → motive (cs.dropWhile isWordChar) → motive (c :: cs))
    (mark : ∀ c cs, isMark c = true → motive cs → motive (c :: cs)) (s : List Char) :
    motive s := by
  have hdrop (p : Char → Bool) (cs : List Char) : (cs.dropWhile p).length ≤ cs.length :=
    (List.dropWhile_suffix p).length_le
  induction hn : s.length using Nat.strongRecOn generalizing s with
  | ind n ih =>
    cases s with
    | nil => exact nil
    | cons c cs =>
      rw [List.length_cons] at hn
      have rest (t : List Char) (ht : t.length ≤ cs.length) : motive t := ih _ (by omega) t rfl
      cases hl : isLayout c with
      | true => exact layout c cs hl (rest cs (Nat.le_refl _))
      | false =>
        by_cases hs : c = ' '
        · subst hs
          exact space cs (rest _ (hdrop _ cs))
        · cases hq : isQuote c with
          | true => exact literal c cs hq (rest _ (length_scanLiteral_le c cs))
          | false =>
            cases hw : isWordChar c with
            | true => exact word c cs hw (rest _ (hdrop _ cs))
            | false => exact mark c cs (isMark_iff.2 ⟨hl, hs, hq, hw⟩) (rest cs (Nat.le_refl _))

/-! ## What the lexemes amount to -/

/-- Where the reading of a text stands. -/
inductive Place where
  | outside
  /-- A space has just been read outside of any literal. -/
  | spaced
  /-- Inside a literal with the given quote. -/
  | inside (quote : Char)
  deriving DecidableEq, Repr

/-- The rest of a text without layout, with one space for each run of them and with the characters
that escapes stand for. -/
def tidyFrom : Place → List Char → List Char
  | _, [] => []
  | .inside quote, c :: cs =>
    if c = '\\' then
      match cs with
      | [] => []
      | e :: cs => unescape e :: tidyFrom (.inside quote) cs
    else if c = quote then c :: tidyFrom .outside cs
    else c :: tidyFrom (.inside quote) cs
  | place, c :: cs =>
    if isLayout c then tidyFrom .outside cs
    else if c = ' ' then
      if place = .spaced then tidyFrom .spaced cs else ' ' :: tidyFrom .spaced cs
    else if isQuote c then c :: tidyFrom (.inside c) cs
    else c :: tidyFrom .outside cs

/-- A text without layout, with one space for each run of them and with the characters that escapes
stand for. Spaces and layout inside literals stay. -/
def tidy (s : List Char) : List Char := tidyFrom .outside s

/-- Spaces behind a space are left out. -/
theorem tidyFrom_spaced (cs : List Char) :
    tidyFrom .spaced cs = tidyFrom .outside (cs.dropWhile (· == ' ')) := by
  induction cs with
  | nil => rfl
  | cons c cs ih =>
    by_cases hc : c = ' '
    · subst hc
      exact ih
    · rw [List.dropWhile_cons_of_neg (by simpa using hc)]
      simp [tidyFrom, hc]

/-- A word is kept as it is. -/
theorem tidyFrom_word (cs : List Char) :
    tidyFrom .outside cs =
      cs.takeWhile isWordChar ++ tidyFrom .outside (cs.dropWhile isWordChar) := by
  induction cs with
  | nil => rfl
  | cons c cs ih =>
    by_cases hc : isWordChar c = true
    · obtain ⟨hl, hs, hq⟩ := kind_of_isWordChar hc
      rw [List.takeWhile_cons_of_pos hc, List.dropWhile_cons_of_pos hc, List.cons_append, ← ih]
      simp [tidyFrom, hl, hs, hq]
    · rw [List.takeWhile_cons_of_neg hc, List.dropWhile_cons_of_neg hc]
      rfl

/-- A literal amounts to its content, closed if the literal is. -/
theorem tidyFrom_inside (quote : Char) (cs : List Char) :
    tidyFrom (.inside quote) cs =
      (scanLiteral quote cs).1 ++ (if (scanLiteral quote cs).2.1 then [quote] else []) ++
        tidyFrom .outside (scanLiteral quote cs).2.2 := by
  fun_induction scanLiteral quote cs with
  | case1 => rfl
  | case2 => rfl
  | case3 e cs content closed rest hrest ih =>
    rw [hrest] at ih
    simp [tidyFrom, ih]
  | case4 cs hne =>
    rw [tidyFrom.eq_def]
    simp [hne]
  | case5 c cs hne hquote content closed rest hrest ih =>
    rw [hrest] at ih
    rw [tidyFrom.eq_def]
    simp [hne, hquote, ih]

/-- The lexemes of a text, written one after the other with the quotes of the literals, are the tidy
text. -/
theorem flatMap_text_lexemes (s : List Char) :
    (lexemes true s).flatMap (text true) = tidy s := by
  rw [tidy]
  induction s using scan_induction with
  | nil => rfl
  | layout c cs h ih =>
    rw [lexemes_layout h, ih]
    simp [tidyFrom, h]
  | space cs ih =>
    rw [lexemes_space, if_pos rfl, List.flatMap_append, ih, ← tidyFrom_spaced]
    rfl
  | literal quote cs h ih =>
    obtain ⟨hl, hs⟩ := kind_of_isQuote h
    rw [lexemes_quote h, List.flatMap_cons, ih]
    simp [tidyFrom, hl, hs, h, tidyFrom_inside, text]
  | word c cs h ih =>
    obtain ⟨hl, hs, hq⟩ := kind_of_isWordChar h
    rw [lexemes_word h, List.flatMap_cons, ih]
    simp [tidyFrom, hl, hs, hq, text, ← tidyFrom_word]
  | mark c cs h ih =>
    obtain ⟨hl, hs, hq, -⟩ := isMark_iff.1 h
    rw [lexemes_mark h, List.flatMap_cons, ih]
    simp [tidyFrom, hl, hs, hq, text]

end Lexeme

end TableShell
