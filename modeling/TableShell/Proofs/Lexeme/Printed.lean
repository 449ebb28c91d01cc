import Mathlib.Data.List.Chain
import TableShell.Proofs.Lexeme.Literal

/-!
# Lexemes written out and read again

Lexemes that are written one after the other are read as themselves (`Lexeme.lexemes_flatMap_text`)
if nothing runs together: no word stands beside a word, nothing follows an open literal
(`Lexeme.Apart`), and no literal contains what would end it or start an escape (`Lexeme.Plain`). The
lexemes of a text without layout stand apart (`Lexeme.isChain_lexemes`); only the contents of their
literals can be in the way.
-/

namespace TableShell

namespace Lexeme

variable {spaces : Bool} {quote : Char} {s t content : List Char} {l : Lexeme} {ls : List Lexeme}

/-! ## Lexemes of a text -/

/-- A lexeme that a text can have: it consists of characters of its kind. -/
def Sound : Lexeme → Prop
  | space => True
  | word w => IsWord w
  | literal quote _ _ => isQuote quote = true
  | mark c => isMark c = true

/-- Every lexeme of a text consists of characters of its kind. -/
theorem sound_of_mem_lexemes (s : List Char) : ∀ l ∈ lexemes spaces s, l.Sound := by
  induction s using scan_induction with
  | nil => simp
  | layout c cs h ih => rwa [lexemes_layout h]
  | space cs ih =>
    intro l hl
    rw [lexemes_space, List.mem_append] at hl
    rcases hl with hl | hl
    · obtain ⟨-, rfl⟩ : spaces = true ∧ l = .space := by
        cases spaces <;> simp_all
      trivial
    · exact ih l hl
  | literal quote cs h ih =>
    rw [lexemes_quote h]
    exact List.forall_mem_cons.2 ⟨h, ih⟩
  | word c cs h ih =>
    rw [lexemes_word h]
    refine List.forall_mem_cons.2 ⟨⟨List.cons_ne_nil _ _, ?_⟩, ih⟩
    rw [List.all_cons, h, Bool.true_and]
    exact List.all_takeWhile
  | mark c cs h ih =>
    rw [lexemes_mark h]
    exact List.forall_mem_cons.2 ⟨h, ih⟩

/-- Lexemes that do not run together when the second is written right after the first. Two spaces do
only if spaces are read at all. -/
def Apart (spaces : Bool) : Lexeme → Lexeme → Prop
  | literal _ _ closed, _ => closed = true
  | word _, word _ => False
  | space, space => spaces = false
  | _, _ => True

/-- Lexemes stand apart for a reader without spaces if they do for any. -/
theorem Apart.spaceless {n : Lexeme} (h : Apart spaces l n) : Apart false l n := by
  cases l with
  | space => cases n <;> trivial
  | _ => cases n <;> exact h

/-- In a text without layout the first lexeme starts at the first character. -/
theorem head?_lexemes (hs : ∀ c ∈ s, isLayout c = false) :
    ((lexemes true s).head? = some .space → s.head? = some ' ') ∧
      ∀ w, (lexemes true s).head? = some (.word w) → s.head?.any isWordChar = true := by
  induction s using scan_induction with
  | nil => simp
  | layout c cs h _ => exact absurd (hs c List.mem_cons_self) (by simp [h])
  | space cs _ => simp [lexemes_space]
  | literal quote cs h _ => simp [lexemes_quote h]
  | word c cs h _ => simp [lexemes_word h, h]
  | mark c cs h _ => simp [lexemes_mark h]

/-- What remains of a text after a run starts differently. -/
theorem head?_dropWhile_any (p : Char → Bool) (s : List Char) :
    (s.dropWhile p).head?.any p = false := by
  have h := List.head?_dropWhile_not p s
  cases hd : (s.dropWhile p).head? with
  | none => rfl
  | some c => rwa [hd] at h

/-- The lexemes of a text without layout stand apart. -/
theorem isChain_lexemes (hs : ∀ c ∈ s, isLayout c = false) :
    (lexemes true s).IsChain (Apart true) := by
  induction s using scan_induction with
  | nil => simp
  | layout c cs h ih => exact absurd (hs c List.mem_cons_self) (by simp [h])
  | space cs ih =>
    have hrest : ∀ c ∈ cs.dropWhile (· == ' '), isLayout c = false := fun c hc =>
      hs c (List.mem_cons_of_mem _ ((List.dropWhile_suffix _).subset hc))
    rw [lexemes_space, if_pos rfl]
    refine List.isChain_cons.2 ⟨fun l hl => ?_, ih hrest⟩
    cases l with
    | space =>
      have hhead := head?_dropWhile_any (· == ' ') cs
      rw [(head?_lexemes hrest).1 hl] at hhead
      cases hhead
    | _ => trivial
  | literal quote cs h ih =>
    have hrest : ∀ c ∈ (scanLiteral quote cs).2.2, isLayout c = false := fun c hc =>
      hs c (List.mem_cons_of_mem _ ((scanLiteral_suffix quote cs).subset hc))
    rw [lexemes_quote h]
    refine List.isChain_cons.2 ⟨fun l hl => ?_, ih hrest⟩
    -- an open literal has nothing after it
    cases hc : (scanLiteral quote cs).2.1 with
    | true => rfl
    | false =>
      rw [scanLiteral_rest_of_open hc] at hl
      cases hl
  | word c cs h ih =>
    have hrest : ∀ c ∈ cs.dropWhile isWordChar, isLayout c = false := fun c hc =>
      hs c (List.mem_cons_of_mem _ ((List.dropWhile_suffix _).subset hc))
    rw [lexemes_word h]
    refine List.isChain_cons.2 ⟨fun l hl => ?_, ih hrest⟩
    cases l with
    | word w =>
      have hhead := head?_dropWhile_any isWordChar cs
      rw [(head?_lexemes hrest).2 w hl] at hhead
      cases hhead
    | _ => trivial
  | mark c cs h ih =>
    rw [lexemes_mark h]
    exact List.isChain_cons.2 ⟨fun _ _ => trivial, ih (List.forall_mem_cons.1 hs).2⟩

/-! ## Reading what was written -/

/-- A literal that contains no quote and no backslash, or no literal. -/
def Plain : Lexeme → Prop
  | literal _ content _ => ∀ c ∈ content, c ≠ '\\' ∧ isQuote c = false
  | _ => True

/-- What the first character of a lexeme is. -/
theorem Sound.text_eq_cons (h : l.Sound) :
    ∃ c cs, text true l = c :: cs ∧ (c = ' ' → l = .space) ∧
      (isWordChar c = true → ∃ w, l = .word w) := by
  cases l with
  | space => exact ⟨' ', [], rfl, fun _ => rfl, fun hc => absurd hc (by decide)⟩
  | word w =>
    obtain ⟨hne, hw⟩ := h
    obtain ⟨c, w, rfl⟩ := List.exists_cons_of_ne_nil hne
    have hc := (kind_of_isWordChar (List.all_eq_true.1 hw c List.mem_cons_self)).2.1
    exact ⟨c, w, rfl, fun h => absurd h hc, fun _ => ⟨_, rfl⟩⟩
  | literal quote content closed =>
    obtain ⟨-, hs⟩ := kind_of_isQuote h
    refine ⟨quote, content ++ (if closed then [quote] else []), rfl, fun hc => absurd hc hs, ?_⟩
    intro hw
    exact absurd (kind_of_isWordChar hw).2.2 (by simp [show isQuote quote = true from h])
  | mark c =>
    obtain ⟨-, hs, -, hw⟩ := isMark_iff.1 h
    exact ⟨c, [], rfl, fun hc => absurd hc hs, fun hc => absurd hc (by simp [hw])⟩

/-- What is written after a lexeme starts as the next lexeme does. -/
theorem head?_flatMap_text (hs : ∀ l ∈ ls, l.Sound) :
    ((ls.flatMap (text true)).head? = some ' ' → ls.head? = some .space) ∧
      ((ls.flatMap (text true)).head?.any isWordChar = true → ∃ w, ls.head? = some (.word w)) := by
  cases ls with
  | nil => simp
  | cons l ls =>
    obtain ⟨c, cs, htext, hspace, hword⟩ := (hs l List.mem_cons_self).text_eq_cons
    rw [List.flatMap_cons, htext]
    refine ⟨fun h => ?_, fun h => ?_⟩
    · rw [hspace (by simpa using h)]
      rfl
    · obtain ⟨w, rfl⟩ := hword (by simpa using h)
      exact ⟨w, rfl⟩

/-- What a literal of plain content is written as, closed in front of what follows or open at the
end, is read back. -/
theorem scanLiteral_written {closed : Bool} (hq : isQuote quote = true)
    (hp : (literal quote content closed).Plain) (ht : closed = false → t = []) :
    scanLiteral quote (content ++ ((if closed then [quote] else []) ++ t)) =
      (content, closed, t) := by
  have hcontent : ∀ c ∈ content, c ≠ '\\' ∧ c ≠ quote := by
    intro c hc
    refine ⟨(hp c hc).1, ?_⟩
    rintro rfl
    exact absurd hq (by simp [(hp c hc).2])
  rw [(decodes_self hcontent).scanLiteral_append]
  cases closed with
  | true => simp [scanLiteral_close hq]
  | false => simp [scanLiteral, ht rfl]

/-- A plain literal written in front of a text is read back with the text behind it, provided
nothing stands behind an open one. -/
theorem lexemes_literal_append {closed : Bool} (hq : isQuote quote = true)
    (hp : (literal quote content closed).Plain) (ht : closed = false → t = []) :
    lexemes spaces (text true (.literal quote content closed) ++ t) =
      .literal quote content closed :: lexemes spaces t := by
  have htext : text true (.literal quote content closed) ++ t =
      quote :: (content ++ ((if closed then [quote] else []) ++ t)) := by simp [text]
  rw [htext, lexemes_quote hq, scanLiteral_written hq hp ht]

/-- A space in front of what a reader without spaces reads is not there. -/
theorem lexemes_false_space (s : List Char) : lexemes false (' ' :: s) = lexemes false s :=
  lexemes_eq_of_scan_eq rfl

/-- A reader without spaces finds what any reader finds, without the spaces. -/
theorem lexemes_false (s : List Char) :
    lexemes false s = (lexemes true s).filter (· != .space) := by
  induction s using scan_induction with
  | nil => rfl
  | layout c cs h ih => rw [lexemes_layout h, lexemes_layout h, ih]
  | space cs ih =>
    rw [lexemes_space, lexemes_space, ih]
    rfl
  | literal quote cs h ih =>
    rw [lexemes_quote h, lexemes_quote h, ih]
    rfl
  | word c cs h ih =>
    rw [lexemes_word h, lexemes_word h, ih]
    rfl
  | mark c cs h ih =>
    rw [lexemes_mark h, lexemes_mark h, ih]
    rfl

/-- Lexemes that stand apart and have plain literals are read as themselves. -/
theorem lexemes_flatMap_text (hs : ∀ l ∈ ls, l.Sound) (hp : ∀ l ∈ ls, l.Plain)
    (hc : ls.IsChain (Apart spaces)) :
    lexemes spaces (ls.flatMap (text true)) = ls.filter fun l => spaces || l != .space := by
  induction ls with
  | nil => rfl
  | cons l ls ih =>
    obtain ⟨hl, hs⟩ := List.forall_mem_cons.1 hs
    obtain ⟨hpl, hp⟩ := List.forall_mem_cons.1 hp
    obtain ⟨happart, hc⟩ := List.isChain_cons.1 hc
    have ih := ih hs hp hc
    obtain ⟨hspace, hword⟩ := head?_flatMap_text hs
    rw [List.flatMap_cons]
    cases l with
    | space =>
      cases spaces with
      | false =>
        change lexemes false (' ' :: ls.flatMap (text true)) = _
        rw [lexemes_false_space, ih]
        rfl
      | true =>
        have hne : (ls.flatMap (text true)).head? ≠ some ' ' := by
          intro h
          exact absurd (happart _ (hspace h)) (by simp [Apart])
        change lexemes true (' ' :: ls.flatMap (text true)) = _
        rw [lexemes_space_append hne, ih]
        rfl
    | word w =>
      have hne : (ls.flatMap (text true)).head?.any isWordChar = false := by
        rw [Bool.eq_false_iff]
        intro h
        obtain ⟨v, hv⟩ := hword h
        exact happart _ hv
      change lexemes spaces (w ++ ls.flatMap (text true)) = _
      rw [lexemes_word_append hl hne, ih]
      simp
    | literal quote content closed =>
      have hend : closed = false → ls.flatMap (text true) = [] := by
        intro hopen
        cases ls with
        | nil => rfl
        | cons n ls => exact absurd (happart n rfl) (by simp [Apart, hopen])
      rw [lexemes_literal_append hl hpl hend, ih]
      simp
    | mark c =>
      change lexemes spaces (c :: ls.flatMap (text true)) = _
      rw [lexemes_mark hl, ih]
      simp

/-! ## Contents that are copied -/

/-- How the content of a literal is written without escapes: each character as it is, or as the
quote. -/
structure Copies (quote : Char) (f : Char → Char) : Prop where
  isQuote : isQuote quote = true
  escape : f '\\' = '\\'
  copy : ∀ c, f c = c ∨ f c = quote

variable {f : Char → Char}

/-- A backslash is written for a backslash only. -/
theorem Copies.eq_escape {c : Char} (hf : Copies quote f) (h : f c = '\\') : c = '\\' := by
  rcases hf.copy c with hc | hc
  · exact hc.symm.trans h
  · have hquote := hf.isQuote
    rw [← hc, h] at hquote
    cases hquote

/-- Only a backslash stands for a backslash. -/
theorem eq_of_unescape {c : Char} (h : unescape c = '\\') : c = '\\' := by
  unfold unescape at h
  split at h
  · exact absurd h (by decide)
  · exact absurd h (by decide)
  · exact absurd h (by decide)
  · exact h

/-- A literal that ends at once has no content. -/
theorem scanLiteral_of_head (hq : isQuote quote = true) (ht : ∀ c ∈ t.head?, c = quote) :
    (scanLiteral quote t).1 = [] := by
  cases t with
  | nil => rfl
  | cons c t =>
    obtain rfl := ht c rfl
    rw [scanLiteral_close hq]

/-- A backslash is read only from two of them. -/
theorem Copies.cons_of_scanLiteral_escape (hf : Copies quote f) (ht : ∀ c ∈ t.head?, c = quote)
    (h : (scanLiteral quote ('\\' :: (s.map f ++ t))).1 = '\\' :: content) :
    ∃ s', s = '\\' :: s' ∧ (scanLiteral quote (s'.map f ++ t)).1 = content := by
  cases s with
  | nil =>
    cases t with
    | nil => cases h
    | cons c t =>
      obtain rfl := ht c rfl
      rw [List.map_nil, List.nil_append, scanLiteral_escape] at h
      have hescape := eq_of_unescape (List.cons.inj h).1
      have hquote := hf.isQuote
      rw [hescape] at hquote
      cases hquote
  | cons c s =>
    rw [List.map_cons, List.cons_append, scanLiteral_escape] at h
    obtain ⟨hc, hcontent⟩ := List.cons.inj h
    exact ⟨s, by rw [hf.eq_escape (eq_of_unescape hc)], hcontent⟩

/-- The first character that is read is that of the copy, unless it ends the literal or starts an
escape. -/
theorem Copies.scanLiteral_cons {c : Char} (hf : Copies quote f) (hc : c ≠ '\\')
    (cs : List Char) :
    (scanLiteral quote (f c :: cs)).1 =
      if f c = quote then [] else c :: (scanLiteral quote cs).1 := by
  split
  · next hquote => rw [hquote, scanLiteral_close hf.isQuote]
  · next hquote =>
    have hcopy : f c = c := (hf.copy c).resolve_right hquote
    rw [hcopy] at hquote ⊢
    rw [scanLiteral_plain ⟨hc, hquote⟩]

/-- A content behind more backslashes is not read from its own copy: each backslash that is read
takes two from the copy. -/
theorem Copies.scanLiteral_ne_replicate_append (hf : Copies quote f)
    (ht : ∀ c ∈ t.head?, c = quote) (n : Nat) (s : List Char) :
    (scanLiteral quote (s.map f ++ t)).1 ≠ List.replicate (n + 1) '\\' ++ s := by
  induction hlen : s.length using Nat.strongRecOn generalizing s n with
  | ind len ih =>
  intro h
  rw [List.replicate_succ, List.cons_append] at h
  cases s with
  | nil =>
    rw [List.map_nil, List.nil_append, scanLiteral_of_head hf.isQuote ht] at h
    cases h
  | cons c s =>
    by_cases hc : c = '\\'
    · subst hc
      rw [List.map_cons, List.cons_append, hf.escape] at h
      obtain ⟨s', rfl, hs'⟩ := hf.cons_of_scanLiteral_escape ht h
      refine ih s'.length ?_ (n + 1) s' rfl ?_
      · rw [← hlen, List.length_cons, List.length_cons]
        omega
      · rw [hs']
        simp [List.replicate_succ']
    · rw [List.map_cons, List.cons_append, hf.scanLiteral_cons hc] at h
      split at h
      · cases h
      · exact hc (List.cons.inj h).1

/-- A content that is read from its copy has no backslash, and no character of it is written as the
quote. -/
theorem Copies.of_scanLiteral (hf : Copies quote f) (ht : ∀ c ∈ t.head?, c = quote)
    (h : (scanLiteral quote (content.map f ++ t)).1 = content) :
    ∀ c ∈ content, c ≠ '\\' ∧ f c ≠ quote := by
  induction content with
  | nil => exact nofun
  | cons c content ih =>
    by_cases hc : c = '\\'
    · subst hc
      rw [List.map_cons, List.cons_append, hf.escape] at h
      obtain ⟨s, rfl, hs⟩ := hf.cons_of_scanLiteral_escape ht h
      exact absurd hs (hf.scanLiteral_ne_replicate_append ht 0 s)
    · rw [List.map_cons, List.cons_append, hf.scanLiteral_cons hc] at h
      split at h
      · cases h
      · next hquote =>
        exact List.forall_mem_cons.2 ⟨⟨hc, hquote⟩, ih (List.cons.inj h).2⟩

end Lexeme

end TableShell
