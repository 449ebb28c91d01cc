import TableShell.Proofs.Lexeme
import TableShell.Proofs.Template
import TableShell.Proofs.Text
import TableShell.Session.Execute

/-!
# Which commands are queries

A command is told by the characters it starts with before its variables are put in. What it starts
with stays when they are, so a command that is no query keeps its kind
(`CommandKind.ofCommand_substitute`) and does not become a query by its variables
(`CommandKind.ofSource_substitute_of_not_query`). Such a command stays in the history, and carrying
it out again as a query fails. A query may well start like a command of another kind once its
variables are put in; it is refused then (`CommandKind.ofSource_of_not_query`).
-/

namespace TableShell

namespace Lexeme

/-- A word that a text starts with is the beginning of its first lexeme. -/
theorem scan_word_append {c : Char} {w : List Char} (hw : ∀ d ∈ c :: w, isWordChar d = true)
    (t : List Char) :
    ∃ u rest, scan true (c :: w ++ t) = some (.word (c :: w ++ u), rest) := by
  obtain ⟨hc, hw⟩ := List.forall_mem_cons.1 hw
  refine ⟨t.takeWhile isWordChar, t.dropWhile isWordChar, ?_⟩
  rw [List.cons_append, scan_word hc, List.takeWhile_append_of_pos hw,
    List.dropWhile_append_of_pos hw]
  rfl

end Lexeme

namespace Query

open Lexeme

/-- A text is no query if its first lexeme is no verb of one. -/
theorem ofSource_of_scan {source : String} {l : Lexeme} {rest : List Char}
    (h : scan true source.toList = some (l, rest)) (hl : bare l ≠ spaceToken)
    (hs : subject? (bare l) = none) :
    ofSource source = .error (.unsupported (Text.trim source)) := by
  have hls : lexemesOf source = l :: lexemes true rest := by
    rw [lexemesOf, lexemes_of_scan_some h, List.dropWhile_cons_of_neg (by simpa using hl)]
  rw [ofSource, hls]
  dsimp only
  rw [hs]

/-- What a verb of a query is, in capitals. -/
def verbs : List (List Char) :=
  ["SELECT".toList, "INSERT".toList, "UPDATE".toList, "DELETE".toList]

/-- A word is no verb of a query if its capitals start none. -/
theorem subject?_eq_none {w : List Char} (u : List Char)
    (h : ∀ verb ∈ verbs, ¬ Text.capitals w <+: verb) :
    subject? (String.ofList (w ++ u)) = none := by
  have hs (verb : String) (hv : verb.toList ∈ verbs) :
      Text.spells (String.ofList (w ++ u)) verb = false := by
    rw [Bool.eq_false_iff]
    intro he
    rw [Text.spells, beq_iff_eq, String.toList_ofList, Text.capitals, List.flatMap_append] at he
    exact h _ hv ⟨_, he⟩
  rw [subject?, hs _ (by decide), hs _ (by decide), hs _ (by decide), hs _ (by decide)]
  rfl

/-- A text that starts with a word of which the capitals start no verb is no query. -/
theorem ofSource_append {c : Char} {w : List Char} (hw : ∀ d ∈ c :: w, isWordChar d = true)
    (h : ∀ verb ∈ verbs, ¬ Text.capitals (c :: w) <+: verb) (t : List Char) :
    ofSource (String.ofList (c :: w ++ t)) =
      .error (.unsupported (Text.trim (String.ofList (c :: w ++ t)))) := by
  obtain ⟨u, rest, hscan⟩ := scan_word_append hw t
  refine ofSource_of_scan (l := .word (c :: w ++ u)) (by rw [String.toList_ofList, hscan]) ?_
    (subject?_eq_none u h)
  intro hb
  have hb : c :: w ++ u = [' '] := by
    simpa [bare, token, text, spaceToken] using congrArg String.toList hb
  have hc : c = ' ' := (List.cons.inj hb).1
  exact absurd (hw c List.mem_cons_self) (by rw [hc]; decide)

/-- A text that starts with an at sign is no query. -/
theorem ofSource_at (t : List Char) :
    ofSource (String.ofList ('@' :: t)) =
      .error (.unsupported (Text.trim (String.ofList ('@' :: t)))) := by
  have hscan : scan true (String.ofList ('@' :: t)).toList = some (.mark '@', t) := by
    rw [String.toList_ofList]
    rfl
  exact ofSource_of_scan hscan (by decide) (by decide)

/-- A blank text is no query. -/
theorem ofSource_of_blank {source : String} (h : Text.trim source = "") :
    ofSource source = .error (.unsupported "") := by
  have hblank {c : Char} (hc : Text.isBlank c = true) (u : List Char) :
      subject? (String.ofList ([c] ++ u)) = none := by
    refine subject?_eq_none u fun verb hverb hstart => ?_
    have hverbs : ∀ verb ∈ verbs, verb.any Text.isBlank = false := by decide
    rw [Text.capitals_cons, Text.capital_of_isBlank hc] at hstart
    have hany : verb.any Text.isBlank = true :=
      List.any_eq_true.2 ⟨c, hstart.subset (by simp), hc⟩
    rw [hverbs verb hverb] at hany
    cases hany
  have hlexemes : ∀ s : List Char, (∀ c ∈ s, Text.isBlank c = true) →
      ∀ l ∈ lexemes true s, subject? (bare l) = none := by
    intro s hs
    induction s using scan_induction with
    | nil => simp
    | layout c cs hc ih =>
      rw [lexemes_layout hc]
      exact ih (List.forall_mem_cons.1 hs).2
    | space cs ih =>
      rw [lexemes_space, if_pos rfl]
      refine List.forall_mem_cons.2 ⟨by decide, ih fun c hc => ?_⟩
      exact hs c (List.mem_cons_of_mem _ ((List.dropWhile_suffix _).subset hc))
    | literal quote cs hq _ =>
      have hquote := hs quote List.mem_cons_self
      rcases isQuote_iff.1 hq with rfl | rfl <;> cases hquote
    | word c cs hc ih =>
      rw [lexemes_word hc]
      refine List.forall_mem_cons.2 ⟨hblank (hs c List.mem_cons_self) _, ih fun c hc => ?_⟩
      exact hs c (List.mem_cons_of_mem _ ((List.dropWhile_suffix _).subset hc))
    | mark c cs hc ih =>
      rw [lexemes_mark hc]
      obtain ⟨hc, hs⟩ := List.forall_mem_cons.1 hs
      exact List.forall_mem_cons.2 ⟨hblank hc [], ih hs⟩
  rw [ofSource, h]
  split
  · rfl
  · next verb ls hls =>
    have hmem : verb ∈ lexemesOf source := hls ▸ List.mem_cons_self
    rw [hlexemes _ (Text.isBlank_of_trim h) verb ((List.dropWhile_suffix _).subset hmem)]

end Query

namespace CommandKind

open Query

/-- The words that tell the commands other than queries and assignments. -/
def words : List String := ["desc", "create", "drop", "show", "truncate", "run"]

/-- These words in small letters and in capitals. -/
def openings : List (List Char) :=
  words.flatMap fun word => [word.toList, word.toList.map Char.toUpper]

/-- A command starts like a word exactly when it starts with it as it is or in capitals. -/
theorem startsLike_iff {command word : String} :
    startsLike command word = true ↔
      ∃ w ∈ [word.toList, word.toList.map Char.toUpper], ∃ t, command = String.ofList (w ++ t) := by
  rw [startsLike, Bool.or_eq_true, Text.startsWith_iff, Text.startsWith_iff]
  have hofList (w : List Char) :
      (∃ t, command = String.ofList w ++ t) ↔ ∃ t, command = String.ofList (w ++ t) := by
    constructor
    · rintro ⟨t, rfl⟩
      exact ⟨t.toList, by rw [← String.toList_inj]; simp⟩
    · rintro ⟨t, rfl⟩
      exact ⟨String.ofList t, by rw [← String.toList_inj]; simp⟩
  rw [hofList, ← String.ofList_toList (s := word), hofList]
  simp

/-- A command that is no query starts with an at sign or with one of the words. -/
theorem exists_opening {command : String} (h : ofCommand command ≠ .query) :
    ∃ w ∈ ['@'] :: openings, ∃ t, command = String.ofList (w ++ t) := by
  have hword {word : String} (hw : word ∈ words) (hs : startsLike command word = true) :
      ∃ w ∈ ['@'] :: openings, ∃ t, command = String.ofList (w ++ t) := by
    obtain ⟨w, hw', t, rfl⟩ := startsLike_iff.1 hs
    exact ⟨w, .tail _ (List.mem_flatMap.2 ⟨word, hw, hw'⟩), t, rfl⟩
  unfold ofCommand at h
  split at h
  · next hs =>
    obtain ⟨t, rfl⟩ := Text.startsWith_iff.1 hs
    exact ⟨['@'], .head _, t.toList, by rw [← String.toList_inj]; simp⟩
  split at h
  · next hs => exact hword (by decide) hs
  split at h
  · next hs => exact hword (by decide) hs
  split at h
  · next hs => exact hword (by decide) hs
  split at h
  · next hs => exact hword (by decide) hs
  split at h
  · next hs => exact hword (by decide) hs
  split at h
  · next hs => exact hword (by decide) hs
  · exact absurd rfl h

/-- A text starts with a keyword exactly if it does so within another one that it starts with, where
the keyword does not go on beyond that one. -/
theorem startsWith_append {w : List Char} {keyword : String}
    (h : w <+: keyword.toList → keyword.toList <+: w) (t : List Char) :
    Text.startsWith (String.ofList (w ++ t)) keyword =
      Text.startsWith (String.ofList w) keyword := by
  rw [Bool.eq_iff_iff, Text.startsWith, Text.startsWith, String.toList_ofList,
    String.toList_ofList, List.isPrefixOf_iff_prefix, List.isPrefixOf_iff_prefix]
  constructor
  · intro hk
    exact (List.prefix_or_prefix_of_prefix hk (List.prefix_append w t)).elim id h
  · exact fun hk => hk.trans (List.prefix_append w t)

/-- What follows the word that a command starts with does not change its kind. -/
theorem ofCommand_append {w : List Char} (hw : w ∈ ['@'] :: openings) (t : List Char) :
    ofCommand (String.ofList (w ++ t)) = ofCommand (String.ofList w) := by
  have hat : Text.startsWith (String.ofList (w ++ t)) "@" =
      Text.startsWith (String.ofList w) "@" := by
    have hends : ∀ w ∈ ['@'] :: openings, w <+: "@".toList → "@".toList <+: w := by decide
    exact startsWith_append (hends w hw) t
  have hword (word : String) (hmem : word ∈ words) :
      startsLike (String.ofList (w ++ t)) word = startsLike (String.ofList w) word := by
    have hends : ∀ word ∈ words, ∀ w ∈ ['@'] :: openings,
        ∀ k ∈ [word, String.ofList (word.toList.map Char.toUpper)],
          w <+: k.toList → k.toList <+: w := by decide
    obtain ⟨hsmall, hcapital⟩ := List.forall_mem_cons.1 (hends word hmem w hw)
    rw [startsLike, startsLike, startsWith_append hsmall,
      startsWith_append (hcapital _ List.mem_cons_self)]
  simp only [ofCommand, hat, hword "desc" (by decide), hword "create" (by decide),
    hword "drop" (by decide), hword "show" (by decide), hword "truncate" (by decide),
    hword "run" (by decide)]

/-- None of these words starts a query. -/
theorem ofSource_of_mem_openings {w : List Char} (hw : w ∈ ['@'] :: openings) (t : List Char) :
    ofSource (String.ofList (w ++ t)) =
      .error (.unsupported (Text.trim (String.ofList (w ++ t)))) := by
  have hwords : ∀ w ∈ openings, w ≠ [] ∧ w.all Lexeme.isWordChar = true ∧
      ∀ verb ∈ verbs, ¬ Text.capitals w <+: verb := by decide
  rcases List.mem_cons.1 hw with rfl | hw
  · exact ofSource_at t
  · obtain ⟨hne, hletters, hverbs⟩ := hwords w hw
    obtain ⟨c, w, rfl⟩ := List.exists_cons_of_ne_nil hne
    exact ofSource_append (List.all_eq_true.1 hletters) hverbs t

/-- A command of another kind is no query. -/
theorem ofSource_of_not_query {command : String} (h : ofCommand command ≠ .query) :
    ofSource command = .error (.unsupported (Text.trim command)) := by
  obtain ⟨w, hw, t, rfl⟩ := exists_opening h
  exact ofSource_of_mem_openings hw t

/-- Whatever the variables are, a command that is no query keeps its kind. -/
theorem ofCommand_substitute {command : String} (h : ofCommand command ≠ .query)
    (vars : Variables) (supply : Supply) (drawn : Nat) :
    ofCommand (vars.substitute supply drawn command).1 = ofCommand command := by
  have hdollar : ∀ w ∈ ['@'] :: openings, '$' ∉ w := by decide
  obtain ⟨w, hw, t, rfl⟩ := exists_opening h
  have hw' : ∀ c ∈ w, c ≠ '$' := fun c hc h => hdollar w hw (h ▸ hc)
  obtain ⟨u, hu⟩ := Variables.toList_substitute_append hw' t vars supply drawn
  rw [hu, ofCommand_append hw, ofCommand_append hw]

/-- Whatever the variables are, a command that is neither a query nor the latest one again is no
query with their values either. -/
theorem ofSource_substitute_of_not_query {command : String}
    (h : ofCommand command ∉ [.again, .query]) (vars : Variables) (supply : Supply)
    (drawn : Nat) :
    ofSource (vars.substitute supply drawn command).1 =
      .error (.unsupported (Text.trim (vars.substitute supply drawn command).1)) := by
  have hquery : ofCommand command ≠ .query := fun hq => h (by simp [hq])
  refine ofSource_of_not_query ?_
  rwa [ofCommand_substitute hquery]

end CommandKind

end TableShell
