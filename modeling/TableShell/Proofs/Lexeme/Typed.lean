import TableShell.Proofs.Lexeme.Cut

/-!
# Lexemes as they are typed

A literal of any content can be typed: its quote and its backslashes are escaped
(`Lexeme.scanLiteral_escaped`). Lexemes are typed one after the other with gaps of spaces and layout
anywhere between them, but at least one character between two words, and are then read as
themselves (`Lexeme.Spelled.lexemes_eq`).
-/

namespace TableShell

namespace Lexeme

variable {quote c : Char} {content s t : List Char} {l : Lexeme} {ls : List Lexeme}

/-! ## Literals -/

/-- A content with its quote and its backslashes escaped. -/
def escaped (quote : Char) (content : List Char) : List Char :=
  content.flatMap fun c => if c = '\\' ∨ c = quote then ['\\', c] else [c]

/-- A literal is read as its content if its quote and its backslashes stand behind backslashes, and
perhaps other characters that stand for themselves there. -/
theorem scanLiteral_flatMap {p : Char → Prop} [DecidablePred p] (hq : isQuote quote = true)
    (hunescape : ∀ c, p c → unescape c = c) (hbackslash : p '\\') (hquote : p quote)
    (content t : List Char) :
    scanLiteral quote (content.flatMap (fun c => if p c then ['\\', c] else [c]) ++ quote :: t) =
      (content, true, t) := by
  have hdecodes : Decodes quote (content.flatMap fun c => if p c then ['\\', c] else [c])
      content := by
    induction content with
    | nil => exact .nil
    | cons c content ih =>
      rw [List.flatMap_cons]
      split
      · next hc => exact .escape (escapes_iff.2 (hunescape c hc)) ih
      · next hc => exact .plain ⟨fun h => hc (h ▸ hbackslash), fun h => hc (h ▸ hquote)⟩ ih
  exact hdecodes.scanLiteral_closed hq t

/-- A quote and a backslash stand for themselves behind a backslash. -/
theorem unescape_eq (hq : isQuote quote = true) (h : c = '\\' ∨ c = quote) : unescape c = c := by
  rcases h with rfl | rfl
  · rfl
  · rcases isQuote_iff.1 hq with rfl | rfl <;> rfl

/-- A literal whose content was escaped is read back with that content, up to its own quote. -/
theorem scanLiteral_escaped (hq : isQuote quote = true) (content t : List Char) :
    scanLiteral quote (escaped quote content ++ quote :: t) = (content, true, t) :=
  scanLiteral_flatMap hq (fun _ => unescape_eq hq) (.inl rfl) (.inr rfl) content t

/-! ## Texts -/

/-- A space or layout. -/
def isGap (c : Char) : Bool := c == ' ' || isLayout c

/-- The lexeme is a word. -/
def isWord : Lexeme → Bool
  | word _ => true
  | _ => false

/-- A lexeme that can be typed and is not a gap. -/
def Typable : Lexeme → Prop
  | space => False
  | word w => IsWord w
  | literal quote _ closed => isQuote quote = true ∧ closed = true
  | mark c => isMark c = true

instance : DecidablePred Typable
  | space => inferInstanceAs (Decidable False)
  | word w => inferInstanceAs (Decidable (IsWord w))
  | literal quote _ closed => inferInstanceAs (Decidable (isQuote quote = true ∧ closed = true))
  | mark c => inferInstanceAs (Decidable (isMark c = true))

/-- A lexeme as it is typed, a literal with its second quote. -/
def typed : Lexeme → List Char
  | literal quote content _ => quote :: escaped quote content ++ [quote]
  | l => text false l

/-- The text consists of the lexemes as they are typed, with gaps anywhere around them and at least
one character between two words. -/
inductive Spelled : List Lexeme → List Char → Prop
  | nil {g : List Char} (hg : ∀ c ∈ g, isGap c = true) : Spelled [] g
  | cons {g : List Char} {l : Lexeme} {ls : List Lexeme} {s : List Char}
      (hg : ∀ c ∈ g, isGap c = true) (hl : l.Typable) (hs : Spelled ls s)
      (hword : l.isWord = true → ls.head?.any isWord = true → s.head?.any isGap = true) :
      Spelled (l :: ls) (g ++ (l.typed ++ s))

/-- Gaps in front of a text leave no lexeme to a reader without spaces. -/
theorem lexemes_gap_append {g : List Char} (hg : ∀ c ∈ g, isGap c = true) (s : List Char) :
    lexemes false (g ++ s) = lexemes false s := by
  induction g with
  | nil => rfl
  | cons c g ih =>
    obtain ⟨hc, hg⟩ := List.forall_mem_cons.1 hg
    have hskip : lexemes false (c :: (g ++ s)) = lexemes false (g ++ s) := by
      rcases Bool.or_eq_true_iff.1 hc with hc | hc
      · obtain rfl := beq_iff_eq.1 hc
        exact lexemes_false_space _
      · exact lexemes_layout hc _
    rw [List.cons_append, hskip, ih hg]

/-- No gap stands in a word. -/
theorem isWordChar_of_isGap (h : isGap c = true) : isWordChar c = false := by
  rw [Bool.eq_false_iff]
  intro hw
  obtain ⟨hl, hs, -⟩ := kind_of_isWordChar hw
  simp [isGap, hl, hs] at h

/-- A text that starts with a word character and no gap starts with a word. -/
theorem Spelled.isWord_of_head (h : Spelled ls s) (hw : s.head?.any isWordChar = true) :
    ls.head?.any isWord = true := by
  -- a gap that is not empty shows no word character
  have gap {c : Char} (hc : isGap c = true) : ¬ isWordChar c = true := by
    simp [isWordChar_of_isGap hc]
  cases h with
  | nil hg =>
    cases s with
    | nil => cases hw
    | cons c s => exact absurd hw (gap (hg c List.mem_cons_self))
  | @cons g l ls s hg hl =>
    cases g with
    | cons c g => exact absurd hw (gap (hg c List.mem_cons_self))
    | nil =>
      cases l with
      | space => exact hl.elim
      | word => rfl
      | literal quote content closed =>
        have hquote := (kind_of_isWordChar (c := quote) hw).2.2
        rw [hl.1] at hquote
        cases hquote
      | mark c =>
        have hmark := (isMark_iff.1 hl).2.2.2
        rw [show isWordChar c = true from hw] at hmark
        cases hmark

/-- A typable lexeme is read as itself in front of what does not go on with it. -/
theorem lexemes_typed_append (hl : l.Typable)
    (hword : l.isWord = true → s.head?.any isWordChar = false) :
    lexemes false (l.typed ++ s) = l :: lexemes false s := by
  cases l with
  | space => exact hl.elim
  | word w => exact lexemes_word_append hl (hword rfl)
  | literal quote content closed =>
    obtain ⟨hq, rfl⟩ := hl
    have htext : typed (.literal quote content true) ++ s =
        quote :: (escaped quote content ++ quote :: s) := by simp [typed]
    rw [htext, lexemes_quote hq, scanLiteral_escaped hq]
  | mark c => exact lexemes_mark hl s

/-- A text that spells lexemes is read as those lexemes. -/
theorem Spelled.lexemes_eq (h : Spelled ls s) : lexemes false s = ls := by
  induction h with
  | nil hg => simpa using lexemes_gap_append hg []
  | @cons g l ls s hg hl hs hword ih =>
    have hend : l.isWord = true → s.head?.any isWordChar = false := by
      intro hlword
      rw [Bool.eq_false_iff]
      intro hw
      have hgap := hword hlword (hs.isWord_of_head hw)
      cases s with
      | nil => cases hw
      | cons c s => exact absurd hw (by simpa using isWordChar_of_isGap hgap)
    rw [lexemes_gap_append hg, lexemes_typed_append hl hend, ih]

/-- Any lexemes that can be typed make up a text. -/
theorem exists_spelled (h : ∀ l ∈ ls, l.Typable) : ∃ s, Spelled ls (' ' :: s) := by
  have hspace : ∀ c ∈ [' '], isGap c = true := List.forall_mem_singleton.2 rfl
  induction ls with
  | nil => exact ⟨[], .nil hspace⟩
  | cons l ls ih =>
    obtain ⟨hl, h⟩ := List.forall_mem_cons.1 h
    obtain ⟨s, hs⟩ := ih h
    exact ⟨_, .cons hspace hl hs fun _ _ => rfl⟩

end Lexeme

end TableShell
