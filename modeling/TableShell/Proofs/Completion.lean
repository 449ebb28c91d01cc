import TableShell.Completion

/-!
# The word before the cursor

Wherever the cursor stands between two characters of a line, the word in front of it is completed,
unless the blank before that word takes several bytes (`Completion.completes_iff`). The place of a
completion is then one between two characters, no blank stands behind it, and the candidates are the
keywords, and at the start of the line the verbs, that go on with what was typed.
-/

namespace TableShell

namespace Completion

open Text

variable {before after front word : List Char}

/-- The completion is one of the word, which stands behind `front`. -/
structure Completes (c : Completion) (front word : List Char) : Prop where
  start_eq : c.start = byteLength front
  mem_candidates : ∀ w, w ∈ c.candidates ↔
    w ∈ keywords ∧ startsWith w (String.ofList (capitals word)) = true ∨
      front = [] ∧ w ∈ verbs ∧ startsWith w (String.ofList word) = true

/-- The last blank of a text. -/
def lastBlank? (s : List Char) : Option Char := (s.filter isBlank).getLast?

/-- The last blank before the cursor is the one the last word stands behind. -/
theorem LastWord.lastBlank?_eq (h : LastWord before front word) :
    lastBlank? before = front.getLast? := by
  obtain ⟨rfl, hword, hfront⟩ := h
  have hnone : word.filter isBlank = [] := List.filter_eq_nil_iff.2 (by simpa using hword)
  rw [lastBlank?, List.filter_append, hnone, List.append_nil]
  cases hlast : front.getLast? with
  | none =>
    obtain rfl := List.getLast?_eq_none_iff.1 hlast
    rfl
  | some blank =>
    obtain ⟨s, rfl⟩ := List.getLast?_eq_some_iff.1 hlast
    have hblank : [blank].filter isBlank = [blank] := by simp [hfront blank hlast]
    rw [List.filter_append, hblank, List.getLast?_concat]

/-- A completion that is given is the one for the last word. -/
theorem LastWord.completes {c : Completion} (h : LastWord before front word)
    (hc : complete? before = some c) : c.Completes front word := by
  rw [h.complete?_eq] at hc
  split at hc
  · next hnone =>
    obtain rfl := List.getLast?_eq_none_iff.1 hnone
    cases hc
    refine ⟨rfl, fun w => ?_⟩
    simp [verbsLike, keywordsLike, or_comm]
  · next blank hlast =>
    obtain ⟨s, rfl⟩ := List.getLast?_eq_some_iff.1 hlast
    split at hc
    · cases hc
      refine ⟨rfl, fun w => ?_⟩
      simp [keywordsLike]
    · cases hc

/-- The characters of one byte are the ASCII ones. -/
theorem utf8Size_eq_one_iff {c : Char} : c.utf8Size = 1 ↔ c.toNat < 128 := by
  rw [Char.utf8Size_eq_one_iff, UInt32.le_iff_toNat_le]
  exact Nat.lt_succ_iff.symm

/-- Wherever the cursor stands between two characters, a completion is one of the last word in front
of it; and there is one exactly if the blank before that word, if there is one, is ASCII. -/
theorem completes_iff {line : String} (h : line.toList = before ++ after) :
    (∀ c, atCursor? line (byteLength before) = some c →
      ∃ front word, LastWord before front word ∧ c.Completes front word) ∧
    ((∃ c, atCursor? line (byteLength before) = some c) ↔
      ∀ blank ∈ lastBlank? before, blank.toNat < 128) := by
  obtain ⟨front, word, hlast⟩ := exists_lastWord before
  have hcursor : atCursor? line (byteLength before) = complete? before := by
    rw [atCursor?, h, takeBytes_append]
  rw [hcursor]
  refine ⟨fun c hc => ⟨front, word, hlast, hlast.completes hc⟩, ?_⟩
  rw [hlast.complete?_eq, hlast.lastBlank?_eq]
  cases front.getLast? with
  | none => simp
  | some blank =>
    rw [← Option.isSome_iff_exists]
    simp only [Option.isSome_ite, utf8Size_eq_one_iff, Option.mem_def, Option.some.injEq,
      forall_eq']

/-- No word is completed behind an ideographic space. -/
theorem completes_iff_ideographic_space :
    let line := "SELECT\u3000FR"
    line.toList = line.toList ++ [] ∧ byteLength line.toList = 11 ∧
      ¬ ∃ c, atCursor? line 11 = some c := by
  intro line
  have hline : line.toList = line.toList ++ [] := (List.append_nil _).symm
  have hlength : byteLength line.toList = 11 := by decide +kernel
  refine ⟨hline, hlength, fun hc => ?_⟩
  have hascii := (completes_iff hline).2.1 (by rwa [hlength])
  exact absurd (hascii '\u3000' (by decide +kernel)) (by decide)

end Completion

end TableShell
