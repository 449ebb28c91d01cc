import TableShell.Text.Affix
import TableShell.Text.Blank
import TableShell.Text.Capital

/-!
# How a line starts and ends

A text whose ends are no blanks is not changed by trimming, whatever blanks follow it
(`Text.Tight.trimmed_append`). A text that starts with a keyword, in small or capital letters,
starts with no text that differs from the keyword in a letter
(`Text.startsWith_eq_false_of_opens`). Keywords are ASCII, so a word of the same letters as a
keyword spells it (`Text.capitals_eq_of_sameLetters`).
-/

namespace TableShell.Text

/-! ## Blanks -/

/-- The text is not empty, and neither end of it is a blank. -/
structure Tight (s : List Char) : Prop where
  ne_nil : s ≠ []
  head : ∀ c ∈ s.head?, isBlank c = false
  last : ∀ c ∈ s.getLast?, isBlank c = false

/-- What a text ends with is dropped, and nothing before it. -/
theorem dropEndWhile_append {p : Char → Bool} {s t : List Char}
    (hs : ∀ c ∈ s.getLast?, p c = false) (ht : ∀ c ∈ t, p c = true) :
    dropEndWhile p (s ++ t) = s := by
  have hback : s.reverse.dropWhile p = s.reverse := by
    rw [← List.head?_reverse] at hs
    cases hr : s.reverse with
    | nil => rfl
    | cons c r => exact List.dropWhile_cons_of_neg (by simp [hs c (by rw [hr]; rfl)])
  have hends : ∀ c ∈ t.reverse, p c = true := by simpa using ht
  rw [dropEndWhile, List.reverse_append, List.dropWhile_append_of_pos hends, hback,
    List.reverse_reverse]

/-- Blanks behind a tight text are trimmed. -/
theorem Tight.trimmed_append {s blanks : List Char} (h : Tight s)
    (hb : ∀ c ∈ blanks, isBlank c = true) : trimmed (s ++ blanks) = s := by
  have hfront : dropBlanks (s ++ blanks) = s ++ blanks := by
    obtain ⟨c, cs, rfl⟩ := List.exists_cons_of_ne_nil h.ne_nil
    exact List.dropWhile_cons_of_neg (by simp [h.head c rfl])
  rw [trimmed, hfront, dropEndWhile_append h.last hb]

/-- Blanks in front of a text are trimmed. -/
theorem trimmed_blanks_append {s blanks : List Char} (hb : ∀ c ∈ blanks, isBlank c = true) :
    trimmed (blanks ++ s) = trimmed s := by
  rw [trimmed, dropBlanks, List.dropWhile_append_of_pos hb]
  rfl

/-- Trimming takes the blanks behind a tight string. -/
theorem Tight.trim_append {s blanks : String} (h : Tight s.toList)
    (hb : ∀ c ∈ blanks.toList, isBlank c = true) : trim (s ++ blanks) = s := by
  rw [← String.toList_inj, toList_trim, String.toList_append]
  exact h.trimmed_append hb

/-- A tight string is trimmed already. -/
theorem Tight.trim_eq {s : String} (h : Tight s.toList) : trim s = s := by
  rw [← String.toList_inj, toList_trim]
  simpa using h.trimmed_append (List.forall_mem_nil fun c => isBlank c = true)

/-- Trimming takes one space behind a tight string. -/
theorem Tight.trim_append_space {s : String} (h : Tight s.toList) : trim (s ++ " ") = s :=
  h.trim_append (by simp [isBlank])

/-- A text that ends with a semicolon, and does not start with a blank. -/
theorem tight_of_closed {s : String} (hs : ∀ c ∈ s.toList.head?, isBlank c = false)
    (he : endsWith s ';' = true) : Tight s.toList := by
  rw [endsWith, beq_iff_eq] at he
  refine ⟨List.ne_nil_of_mem (List.mem_of_getLast? he), hs, fun c hc => ?_⟩
  cases he.symm.trans hc
  decide

/-- What is left after trimming is tight, unless nothing is left. -/
theorem tight_trimmed {s : List Char} (h : trimmed s ≠ []) : Tight (trimmed s) where
  ne_nil := h
  head := by
    have hprefix : trimmed s <+: dropBlanks s := by
      rw [trimmed, dropEndWhile, ← List.reverse_suffix, List.reverse_reverse]
      exact List.dropWhile_suffix _
    have hhead := List.head?_dropWhile_not isBlank s
    obtain ⟨c, cs, hc⟩ := List.exists_cons_of_ne_nil h
    obtain ⟨r, hr⟩ := hprefix
    rw [dropBlanks, hc] at hr
    rw [← hr] at hhead
    rw [hc]
    rintro d ⟨⟩
    exact hhead
  last := by
    have hlast := List.head?_dropWhile_not isBlank (dropBlanks s).reverse
    rw [trimmed, dropEndWhile, List.getLast?_reverse]
    intro c hc
    rwa [show ((dropBlanks s).reverse.dropWhile isBlank).head? = some c from hc] at hlast

/-- Texts joined by a space. -/
theorem Tight.append_space {s t : List Char} (hs : Tight s) (ht : Tight t) :
    Tight (s ++ ' ' :: t) where
  ne_nil := by simp
  head := by
    obtain ⟨c, cs, rfl⟩ := List.exists_cons_of_ne_nil hs.ne_nil
    exact hs.head
  last := by
    obtain ⟨c, cs, rfl⟩ := List.exists_cons_of_ne_nil ht.ne_nil
    rw [List.getLast?_append, List.getLast?_cons_cons, List.getLast?_cons]
    simpa [List.getLast?_cons] using ht.last

/-- A blank is no small letter. -/
theorem toUpper_of_isBlank {c : Char} (h : isBlank c = true) : c.toUpper = c := by
  have hn : ¬ ('a'.val ≤ c.val ∧ c.val ≤ 'z'.val) := by
    rintro ⟨ha, hz⟩
    have ha : 97 ≤ c.toNat := ha
    have hz : c.toNat ≤ 122 := hz
    simp only [isBlank, Bool.or_eq_true, Bool.and_eq_true, decide_eq_true_eq, beq_iff_eq] at h
    omega
  exact dif_neg hn

/-- A text that is trimmed to nothing consists of blanks. -/
theorem isBlank_of_trim {s : String} (h : trim s = "") : ∀ c ∈ s.toList, isBlank c = true := by
  -- nothing is left of a text after its blanks only if there is nothing else in it
  have blanks {t : List Char} (ht : ∀ c ∈ t.dropWhile isBlank, isBlank c = true) :
      ∀ c ∈ t, isBlank c = true := by
    intro c hc
    rw [← List.takeWhile_append_dropWhile (p := isBlank) (l := t), List.mem_append] at hc
    exact hc.elim (List.all_eq_true.1 List.all_takeWhile c) (ht c)
  have hs : trimmed s.toList = [] := by
    rw [← toList_trim, h]
    rfl
  rw [trimmed, dropEndWhile, List.reverse_eq_nil_iff] at hs
  refine blanks fun c hc => ?_
  have hrest := blanks (t := (dropBlanks s.toList).reverse) (by simp [hs])
  exact hrest c (List.mem_reverse.2 hc)

/-- What a text starts with has a space in it, or does not go beyond the first space. -/
theorem startsWith_of_append_space {a b start : String}
    (h : startsWith (a ++ " " ++ b) start = true) (hs : ' ' ∉ start.toList) :
    startsWith a start = true := by
  rw [startsWith, List.isPrefixOf_iff_prefix] at h ⊢
  have hjoined : (a ++ " " ++ b).toList = (a.toList ++ [' ']) ++ b.toList := by simp
  rw [hjoined] at h
  rcases Nat.lt_or_ge a.toList.length start.toList.length with hlong | hshort
  · have hlength : (a.toList ++ [' ']).length ≤ start.toList.length := by
      rw [List.length_append]
      exact hlong
    have hspace : a.toList ++ [' '] <+: start.toList :=
      List.prefix_of_prefix_length_le (List.prefix_append _ _) h hlength
    exact absurd (hspace.subset (by simp)) hs
  · rw [List.append_assoc] at h
    exact List.prefix_of_prefix_length_le h (List.prefix_append _ _) hshort

/-! ## Keywords -/

/-- A character with an ASCII capital has no other capital form. -/
theorem capital_of_toUpper {c : Char} (h : c.toUpper.toNat < 128) : capital c = [c.toUpper] := by
  have hc : c.toNat < 128 := by
    rcases Nat.lt_or_ge c.toNat 128 with hc | hc
    · exact hc
    · have hn : ¬ ('a'.val ≤ c.val ∧ c.val ≤ 'z'.val) := by
        rintro ⟨-, hz⟩
        have hz : c.toNat ≤ 122 := hz
        omega
      rwa [show c.toUpper = c from dif_neg hn] at h
  unfold capital
  split <;> first | omega | rfl

/-- A blank has no other capital form. -/
theorem capital_of_isBlank {c : Char} (h : isBlank c = true) : capital c = [c] := by
  have hupper := toUpper_of_isBlank h
  simp only [isBlank, Bool.or_eq_true, Bool.and_eq_true, decide_eq_true_eq, beq_iff_eq] at h
  unfold capital
  split <;> first | omega | rw [hupper]

/-- Where all capitals are ASCII, they are the single-character ones. -/
theorem capitals_of_toUpper {s : List Char} (h : ∀ c ∈ s, c.toUpper.toNat < 128) :
    capitals s = s.map Char.toUpper := by
  induction s with
  | nil => rfl
  | cons c s ih =>
    obtain ⟨hc, h⟩ := List.forall_mem_cons.1 h
    rw [capitals_cons, capital_of_toUpper hc, ih h]
    rfl

/-- Words of the same letters have the same capitals if one of them is ASCII. -/
theorem capitals_eq_of_sameLetters {a b : String} (h : sameLetters a b = true)
    (hb : b.toList.all (·.toUpper.toNat < 128) = true) :
    capitals a.toList = capitals b.toList := by
  rw [sameLetters, beq_iff_eq] at h
  have hb : ∀ c ∈ b.toList, c.toUpper.toNat < 128 := by simpa using hb
  have ha : ∀ c ∈ a.toList, c.toUpper.toNat < 128 := by
    intro c hc
    have hmem : c.toUpper ∈ b.toList.map Char.toUpper := h ▸ List.mem_map_of_mem hc
    obtain ⟨d, hd, heq⟩ := List.mem_map.1 hmem
    exact heq ▸ hb d hd
  rw [capitals_of_toUpper ha, capitals_of_toUpper hb, h]

/-- Two words with the same capitals spell the same keywords. -/
theorem spells_congr {a b : String} (h : capitals a.toList = capitals b.toList) (keyword : String) :
    spells a keyword = spells b keyword := by rw [spells, spells, h]

/-- The text starts with the letters of the keyword, small or capital. -/
def opens (keyword s : String) : Bool :=
  sameLetters (String.ofList (s.toList.take keyword.toList.length)) keyword

/-- A text opens with a keyword exactly when as many of its characters have the same capitals. -/
theorem opens_iff {keyword s : String} :
    opens keyword s = true ↔
      (s.toList.take keyword.toList.length).map Char.toUpper =
        keyword.toList.map Char.toUpper := by
  rw [opens, sameLetters, String.toList_ofList, beq_iff_eq]

/-- A text that opens with a keyword does not start with a text that is no start of the keyword. -/
theorem startsWith_eq_false_of_opens {keyword s : String} (h : opens keyword s = true)
    (start : String)
    (hs : ¬ (start.toList.take keyword.toList.length).map Char.toUpper <+:
      keyword.toList.map Char.toUpper) : startsWith s start = false := by
  rw [Bool.eq_false_iff]
  intro hstart
  obtain ⟨t, rfl⟩ := startsWith_iff.1 hstart
  refine hs ⟨(t.toList.take (keyword.toList.length - start.toList.length)).map Char.toUpper, ?_⟩
  rw [← opens_iff.1 h, String.toList_append, List.take_append, List.map_append]

/-- A text that starts with a keyword of letters does not start with a blank. -/
theorem isBlank_head_of_opens {k : Char} {keyword s : String} (h : opens keyword s = true)
    (hk : keyword.toList.head? = some k) (hkb : isBlank k.toUpper = false) :
    ∃ c cs, s.toList = c :: cs ∧ isBlank c = false := by
  obtain ⟨ks, hks⟩ : ∃ ks, keyword.toList = k :: ks := by
    cases hl : keyword.toList with
    | nil => simp [hl] at hk
    | cons k' ks => exact ⟨ks, by simp_all⟩
  have hletters := opens_iff.1 h
  rw [hks] at hletters
  cases hs : s.toList with
  | nil => simp [hs] at hletters
  | cons c cs =>
    refine ⟨c, cs, rfl, ?_⟩
    rw [hs] at hletters
    have hc : c.toUpper = k.toUpper := (List.cons.inj hletters).1
    rw [Bool.eq_false_iff]
    intro hblank
    rw [← hc, toUpper_of_isBlank hblank, hblank] at hkb
    cases hkb

end TableShell.Text
