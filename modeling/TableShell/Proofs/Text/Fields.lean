import TableShell.Proofs.Text
import Mathlib.Data.List.Basic

/-!
# Texts cut at separators

A separator cuts a text in two, and what is cut off on either side does not depend on the other
(`Text.fields_append_cons`). So pieces without separators that are joined by one are found again
(`Text.fields_intercalate`), and words are found again however many blanks stand around them
(`Text.Laid.words_eq`).
-/

namespace TableShell.Text

variable {sep : Char → Bool} {c : Char} {s t : List Char}

/-! ## Pieces -/

/-- The pieces on both sides of a separator. -/
theorem fields_append_cons (hc : sep c = true) (s t : List Char) :
    fields sep (s ++ c :: t) = fields sep s ++ fields sep t := by
  induction s with
  | nil =>
    rw [List.nil_append, fields.eq_def]
    exact if_pos hc
  | cons d s ih =>
    rw [List.cons_append, fields, fields, ih]
    split
    · rfl
    · obtain ⟨f, fs, hf⟩ := List.exists_cons_of_ne_nil (fields_ne_nil sep s)
      rw [hf, List.cons_append]
      rfl

/-- No piece contains a separator. -/
theorem sep_of_mem_fields {piece : List Char} (h : piece ∈ fields sep s) :
    ∀ c ∈ piece, sep c = false := by
  induction s generalizing piece with
  | nil =>
    obtain rfl := List.mem_singleton.1 h
    nofun
  | cons c s ih =>
    rw [fields] at h
    split at h
    · rcases List.mem_cons.1 h with rfl | h
      · nofun
      · exact ih h
    · next hc =>
      obtain ⟨f, fs, hf⟩ := List.exists_cons_of_ne_nil (fields_ne_nil sep s)
      rw [hf] at h ih
      rcases List.mem_cons.1 h with rfl | h
      · exact List.forall_mem_cons.2 ⟨Bool.eq_false_iff.2 hc, ih List.mem_cons_self⟩
      · exact ih (List.mem_cons_of_mem f h)

/-- A text without separators is one piece. -/
theorem fields_of_forall (hs : ∀ c ∈ s, sep c = false) : fields sep s = [s] := by
  induction s with
  | nil => rfl
  | cons c s ih =>
    obtain ⟨hc, hs⟩ := List.forall_mem_cons.1 hs
    rw [fields, ih hs, hc]
    rfl

/-- Pieces without separators that are joined by one are found again. -/
theorem fields_intercalate {pieces : List (List Char)} (hc : sep c = true) (hne : pieces ≠ [])
    (hpieces : ∀ piece ∈ pieces, ∀ d ∈ piece, sep d = false) :
    fields sep (List.intercalate [c] pieces) = pieces := by
  induction pieces with
  | nil => exact absurd rfl hne
  | cons piece pieces ih =>
    obtain ⟨hpiece, hpieces⟩ := List.forall_mem_cons.1 hpieces
    cases pieces with
    | nil => rw [List.intercalate_singleton, fields_of_forall hpiece]
    | cons next pieces =>
      rw [List.intercalate_cons_cons, List.append_assoc, List.singleton_append,
        fields_append_cons hc, fields_of_forall hpiece, ih (List.cons_ne_nil _ _) hpieces,
        List.singleton_append]

/-! ## Words -/

/-- A text that is a word: it is not empty and contains no blank. -/
def IsWord (w : List Char) : Prop := w ≠ [] ∧ ∀ c ∈ w, isBlank c = false

instance (w : List Char) : Decidable (IsWord w) :=
  @instDecidableAnd _ _ _ (List.decidableBAll _ w)

/-- A blank ends a word. -/
theorem words_append_blank (hc : isBlank c = true) (s t : List Char) :
    words (s ++ c :: t) = words s ++ words t := by
  rw [words, fields_append_cons hc, List.filter_append]
  rfl

/-- Blanks in front of a text add no word. -/
theorem words_blanks_append (hs : ∀ c ∈ s, isBlank c = true) (t : List Char) :
    words (s ++ t) = words t := by
  induction s with
  | nil => rfl
  | cons c s ih =>
    obtain ⟨hc, hs⟩ := List.forall_mem_cons.1 hs
    exact (words_append_blank hc [] (s ++ t)).trans (ih hs)

/-- Blanks behind a text add no word. -/
theorem words_append_blanks (ht : ∀ c ∈ t, isBlank c = true) (s : List Char) :
    words (s ++ t) = words s := by
  cases t with
  | nil => rw [List.append_nil]
  | cons c t =>
    obtain ⟨hc, ht⟩ := List.forall_mem_cons.1 ht
    have hblanks := words_blanks_append ht []
    rw [List.append_nil] at hblanks
    rw [words_append_blank hc, hblanks]
    exact List.append_nil _

/-- A word is its own only word. -/
theorem IsWord.words_eq {w : List Char} (hw : IsWord w) : words w = [w] := by
  rw [words, fields_of_forall hw.2, List.filter_cons_of_pos (by simpa using hw.1), List.filter_nil]

/-- The text consists of the words, with blanks between them and perhaps around them. -/
inductive Laid : List (List Char) → List Char → Prop
  | nil {blanks : List Char} (hb : ∀ c ∈ blanks, isBlank c = true) : Laid [] blanks
  | cons {blanks w rest : List Char} {ws : List (List Char)} (hb : ∀ c ∈ blanks, isBlank c = true)
      (hw : IsWord w) (hrest : ∀ c ∈ rest.head?, isBlank c = true) (hlaid : Laid ws rest) :
      Laid (w :: ws) (blanks ++ (w ++ rest))

/-- The words are found again. -/
theorem Laid.words_eq {ws : List (List Char)} (h : Laid ws s) : words s = ws := by
  induction h with
  | @nil blanks hb =>
    have hwords := words_blanks_append hb []
    rwa [List.append_nil] at hwords
  | @cons blanks w rest ws hb hw hrest _ ih =>
    rw [words_blanks_append hb, ← ih]
    cases rest with
    | nil => rw [List.append_nil, hw.words_eq]; rfl
    | cons c rest =>
      have hc : isBlank c = true := hrest c rfl
      rw [words_append_blank hc, hw.words_eq, List.singleton_append]
      exact congrArg (w :: ·) (words_append_blank hc [] rest).symm

/-- What is left without the blanks around it ends as the last word does. -/
theorem Laid.exists_tight {ws : List (List Char)} (h : Laid ws s) (hws : ws ≠ []) :
    ∃ before core after, s = before ++ (core ++ after) ∧ (∀ c ∈ before, isBlank c = true) ∧
      (∀ c ∈ after, isBlank c = true) ∧ Tight core ∧
        ∀ w ∈ ws.getLast?, core.getLast? = w.getLast? := by
  induction h with
  | nil => exact absurd rfl hws
  | @cons blanks w rest ws hb hw hrest hlaid ih =>
    have hhead : ∀ t, ∀ c ∈ (w ++ t).head?, isBlank c = false := by
      intro t c hc
      obtain ⟨d, w, rfl⟩ := List.exists_cons_of_ne_nil hw.1
      exact hw.2 c (Option.some.inj hc ▸ List.mem_cons_self)
    cases hlaid with
    | nil hafter =>
      refine ⟨blanks, w, rest, rfl, hb, hafter, ⟨hw.1, ?_, ?_⟩, ?_⟩
      · simpa using hhead []
      · exact fun c hc => hw.2 c (List.mem_of_getLast? hc)
      · rintro v ⟨⟩
        rfl
    | cons =>
      obtain ⟨before, core, after, heq, -, hafter, htight, hlast⟩ := ih (List.cons_ne_nil _ _)
      have hend : (w ++ (before ++ core)).getLast? = core.getLast? := by
        rw [← List.append_assoc, List.getLast?_append_of_ne_nil _ htight.ne_nil]
      refine ⟨blanks, w ++ (before ++ core), after, ?_, hb, hafter, ⟨?_, hhead _, ?_⟩, ?_⟩
      · rw [heq]
        simp only [List.append_assoc]
      · exact List.append_ne_nil_of_left_ne_nil hw.1 _
      · rw [hend]
        exact htight.last
      · rw [hend, List.getLast?_cons_cons]
        exact hlast

/-- The words are found again before the characters that a text is closed with. -/
theorem Laid.words_closed {ws : List (List Char)} (h : Laid ws s) (hws : ws ≠ [])
    (hlast : ∀ w ∈ ws.getLast?, w.getLast? ≠ some c) (hc : isBlank c = false) (n : Nat) :
    words (dropEndWhile (· == c) (trimmed (s ++ List.replicate n c))) = ws := by
  obtain ⟨before, core, after, rfl, hbefore, hafter, htight, hend⟩ := h.exists_tight hws
  have hwords : words core = ws := by
    rw [← h.words_eq, words_blanks_append hbefore, words_append_blanks hafter]
  have hcore : ∀ d ∈ core.getLast?, (d == c) = false := by
    intro d hd
    have hw := List.getLast?_eq_some_getLast hws
    rw [hend _ hw] at hd
    rw [beq_eq_false_iff_ne]
    rintro rfl
    exact hlast _ hw hd
  rw [List.append_assoc, trimmed_blanks_append hbefore]
  cases n with
  | zero =>
    have hdrop := dropEndWhile_append hcore (List.forall_mem_nil _)
    rw [List.append_nil] at hdrop
    rw [List.replicate_zero, List.append_nil, htight.trimmed_append hafter, hdrop, hwords]
  | succ n =>
    -- what closes the text keeps the blanks before it from being trimmed
    have hopen : ∀ d ∈ (core ++ after).getLast?, (d == c) = false := by
      rcases eq_or_ne after [] with rfl | hne
      · rwa [List.append_nil]
      · rw [List.getLast?_append_of_ne_nil _ hne]
        intro d hd
        rw [beq_eq_false_iff_ne]
        rintro rfl
        exact absurd (hafter d (List.mem_of_getLast? hd)) (by simp [hc])
    have hclosed : Tight (core ++ after ++ List.replicate (n + 1) c) := by
      refine ⟨by simp, ?_, ?_⟩
      · rw [List.append_assoc, List.head?_append_of_ne_nil _ htight.ne_nil]
        exact htight.head
      · rw [List.getLast?_append_of_ne_nil _ (by simp), List.getLast?_replicate]
        rintro d ⟨⟩
        exact hc
    have htrimmed := hclosed.trimmed_append (List.forall_mem_nil fun c => isBlank c = true)
    rw [List.append_nil] at htrimmed
    rw [htrimmed, dropEndWhile_append hopen (by simp), words_append_blanks hafter, hwords]

end TableShell.Text
