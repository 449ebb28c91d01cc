import TableShell.Proofs.Number.Numeral
import TableShell.Proofs.Query.Parts

/-!
# Limits

A LIMIT clause is not sent with the statement; its number is. Where a SELECT has no limit, one can
be put behind any space that follows its table, and nothing else changes
(`Query.ofSource_append_limit`): the number is the limit if it has 32 bits, and the statement is
refused if it has not.
-/

namespace TableShell

namespace Query

open Lexeme

variable {source statement keyword text : String} {limit : Option Int} {p : Parts}
  {ls : List Lexeme} {as : List String}

/-- A character stands in a word if its capital does. -/
theorem isWordChar_of_toUpper {c : Char} (h : isWordChar c.toUpper = true) :
    isWordChar c = true := by
  by_cases hlower : 'a'.val ≤ c.val ∧ c.val ≤ 'z'.val
  · have hc : c.isLower = true := by
      change (decide (c.val ≥ 'a'.val) && decide (c.val ≤ 'z'.val)) = true
      rw [decide_eq_true hlower.1, decide_eq_true hlower.2]
      rfl
    have hletter : c.isAlphanum = true := by
      change (c.isUpper || c.isLower || c.isDigit) = true
      rw [hc, Bool.or_true, Bool.true_or]
    rw [isWordChar, hletter, Bool.true_or, Bool.true_or]
  · have hc : c.toUpper = c := dif_neg hlower
    rwa [hc] at h

/-- The keyword LIMIT is a word in every spelling. -/
theorem isWord_of_sameLetters (h : Text.sameLetters keyword "LIMIT" = true) :
    IsWord keyword.toList := by
  have hletters : keyword.toList.map Char.toUpper = "LIMIT".toList.map Char.toUpper := by
    simpa [Text.sameLetters] using h
  have hword : ("LIMIT".toList.map Char.toUpper).all isWordChar = true := by decide +kernel
  refine ⟨fun hnil => ?_, List.all_eq_true.2 fun c hc => isWordChar_of_toUpper ?_⟩
  · rw [hnil] at hletters
    exact absurd hletters (by decide +kernel)
  · exact List.all_eq_true.1 hword _ (hletters ▸ List.mem_map_of_mem hc)

/-! ## Clauses without a limit -/

/-- Without a limit among them, clauses have the limit that was found before. -/
theorem exists_clauses_append (h : ∀ token ∈ as, Text.sameLetters token "LIMIT" = false) :
    ∃ text, ∀ limit bs,
      clauses limit (as ++ bs) = (fun sent => (text ++ sent.1, sent.2)) <$> clauses limit bs := by
  induction as with
  | nil =>
    refine ⟨"", fun limit bs => ?_⟩
    rw [List.nil_append]
    cases clauses limit bs with
    | error => rfl
    | ok sent => simp [Functor.map, Except.map]
  | cons token as ih =>
    obtain ⟨htoken, has⟩ := List.forall_mem_cons.1 h
    obtain ⟨text, htext⟩ := ih has
    refine ⟨singleQuotes token ++ text, fun limit bs => ?_⟩
    have htoken : ¬ Text.sameLetters token "LIMIT" = true := by simp [htoken]
    rw [List.cons_append, clauses.eq_def]
    simp only [if_neg htoken, htext, bind, Except.bind]
    cases clauses limit bs with
    | error => rfl
    | ok sent => simp [Functor.map, Except.map, pure, Except.pure, String.append_assoc]

/-- Tokens without the keyword LIMIT are copied, whatever the limit is. -/
theorem exists_clauses_eq (h : ∀ token ∈ as, Text.sameLetters token "LIMIT" = false) :
    ∃ text, ∀ limit, clauses limit as = .ok (text, limit) := by
  obtain ⟨text, htext⟩ := exists_clauses_append h
  refine ⟨text, fun limit => ?_⟩
  have h := htext limit []
  rw [List.append_nil] at h
  simpa [clauses, Functor.map, Except.map] using h

/-- A limit that was found stays. -/
theorem eq_none_of_clauses (h : clauses limit as = .ok (text, none)) : limit = none := by
  fun_induction clauses limit as generalizing text with
  | case1 limit =>
    cases h
    rfl
  | case2 limit token hlimit sep value rest n hn ih => cases ih h
  | case3 | case4 => cases h
  | case5 limit token rest hlimit ih =>
    obtain ⟨⟨sent, limit'⟩, hrest, h⟩ := bind_eq_ok.1 h
    cases h
    exact ih hrest

/-- Clauses for which no limit is found have none. -/
theorem not_limit_of_clauses (h : clauses limit as = .ok (text, none)) :
    ∀ token ∈ as, Text.sameLetters token "LIMIT" = false := by
  fun_induction clauses limit as generalizing text with
  | case1 => exact nofun
  | case2 limit token hlimit sep value rest n hn ih => cases eq_none_of_clauses h
  | case3 | case4 => cases h
  | case5 limit token rest hlimit ih =>
    obtain ⟨⟨sent, limit'⟩, hrest, h⟩ := bind_eq_ok.1 h
    cases h
    exact List.forall_mem_cons.2 ⟨by simpa using hlimit, ih hrest⟩

/-- A limit is found wherever it stands, and the other clauses are sent as they are without it. -/
theorem clauses_insert_limit {bs : List String} {sep : String} {n : Number.Numeral}
    (h : clauses none (as ++ bs) = .ok (text, none))
    (hk : Text.sameLetters keyword "LIMIT" = true) :
    clauses none (as ++ keyword :: sep :: n.text :: bs) =
      if -0x80000000 ≤ n.value ∧ n.value ≤ 0x7FFFFFFF then .ok (text, some n.value)
      else .error (.notInteger "LIMIT" n.text) := by
  obtain ⟨has, hbs⟩ := List.forall_mem_append.1 (not_limit_of_clauses h)
  obtain ⟨front, hfront⟩ := exists_clauses_append has
  obtain ⟨back, hback⟩ := exists_clauses_eq hbs
  have hclause : clauses none (keyword :: sep :: n.text :: bs) =
      if -0x80000000 ≤ n.value ∧ n.value ≤ 0x7FFFFFFF then .ok (back, some n.value)
      else .error (.notInteger "LIMIT" n.text) := by
    rw [clauses.eq_def]
    simp only [hk, if_true, Number.Numeral.readInt32_text]
    split_ifs
    · exact hback _
    · rfl
  rw [hfront, hback] at h
  cases h
  rw [hfront, hclause]
  split_ifs <;> rfl

/-! ## Sources that go on after their table -/

/-- The source ends with a space that follows the table of a SELECT. -/
def EndsAfterTable (source : String) : Prop :=
  ∃ p : Parts, p.Of source .select ∧ p.rest.getLast? = some .space

/-- The parts of a statement that goes on with more lexemes. -/
def Parts.extended (p : Parts) (ls : List Lexeme) : Parts := { p with rest := p.rest ++ ls }

/-- The added lexemes come behind what is copied. -/
@[simp] theorem Parts.extended_rest (p : Parts) (ls : List Lexeme) :
    (p.extended ls).rest = p.rest ++ ls := rfl

/-- The added lexemes change nothing in front of the table. -/
@[simp] theorem Parts.extended_front (p : Parts) (ls : List Lexeme) :
    (p.extended ls).front = p.front := rfl

/-- The tail of an extended statement goes on with the added lexemes. -/
theorem Parts.extended_tail (p : Parts) (ls : List Lexeme) :
    (p.extended ls).tail = p.tail ++ ls := by
  simp [extended, tail]

/-- A statement that ends with a space behind its table has something behind it. -/
theorem Parts.rest_ne_nil (hlast : p.rest.getLast? = some .space) : p.rest ≠ [] := by
  intro hnil
  rw [hnil] at hlast
  cases hlast

/-- A SELECT that goes on behind its table can go on further. -/
theorem Parts.Fits.extended (h : p.Fits .select) (hne : p.rest ≠ []) (ls : List Lexeme) :
    (p.extended ls).Fits .select := by
  cases h with
  | @select verb keyword sep first head path rest hhead hkeyword hsep hpath hrest =>
    refine .select hhead hkeyword hsep hpath fun l hl => hrest l ?_
    rwa [List.head?_append_of_ne_nil _ hne] at hl

/-- What is written after the space is read on its own. -/
theorem Parts.Of.extended (hp : p.Of source .select) (hlast : p.rest.getLast? = some .space)
    {t : String} (ht : t.toList.head? ≠ some ' ') :
    (p.extended (lexemes true t.toList)).Of (source ++ t) .select := by
  have hne := Parts.rest_ne_nil hlast
  have hspace : (lexemes true source.toList).getLast? = some .space := by
    obtain ⟨skipped, hskipped⟩ := hp.suffix
    obtain ⟨front, hfront⟩ := p.rest_suffix
    rw [← hskipped, ← hfront, List.getLast?_append_of_ne_nil _ (by simp [hne]),
      List.getLast?_append_of_ne_nil _ hne, hlast]
  have happend : lexemes true (source ++ t).toList =
      lexemes true source.toList ++ lexemes true t.toList := by
    rw [String.toList_append]
    refine lexemes_append fun l hl => ?_
    obtain rfl : Lexeme.space = l := by simpa [hspace] using hl
    exact ht
  have hverb : (lexemes true source.toList).dropWhile (bare · == spaceToken) = p.verb :: p.tail :=
    hp.lexemesOf_eq
  refine ⟨?_, hp.subject?_eq, hp.fits.extended hne _⟩
  rw [lexemesOf, happend, List.dropWhile_append, hverb, Parts.extended_tail]
  rfl

/-- Lexemes added behind what follows a table are copied with the quotes they have. -/
theorem afterTarget_append {rest : List Lexeme} (h : rest ≠ []) (ls : List Lexeme) :
    afterTarget (rest ++ ls) = afterTarget rest ++ ls.map (Lexeme.token true) := by
  obtain ⟨l, rest, rfl⟩ := List.exists_cons_of_ne_nil h
  rw [List.cons_append, afterTarget, afterTarget, List.map_append]
  split <;> rfl

/-- A SELECT that goes on behind the space is sent, or refused, as its clauses are. -/
theorem Parts.Of.ofSource_append (hp : p.Of source .select)
    (hlast : p.rest.getLast? = some .space) {t : String} (ht : t.toList.head? ≠ some ' ')
    (hne : lexemes true t.toList ≠ []) :
    ofSource (source ++ t) =
      match clauses none (afterTarget p.rest ++ (lexemes true t.toList).map (token true)) with
      | .error fault => .error (.ofFault .select (source ++ t) fault)
      | .ok (text, limit) => .ok ⟨p.front ++ (" " ++ text), limit⟩ := by
  rw [(hp.extended hlast ht).ofSource_select, Parts.extended_rest, Parts.extended_front,
    sentClauses, afterTarget_append (Parts.rest_ne_nil hlast)]
  cases htokens : afterTarget p.rest ++ (lexemes true t.toList).map (token true) with
  | nil => exact absurd (List.append_eq_nil_iff.1 htokens).2 (by simpa using hne)
  | cons token tokens =>
    dsimp only
    cases clauses none (token :: tokens) <;> rfl

/-- A limit clause is its keyword, a space and its number. -/
theorem lexemes_limit (hk : Text.sameLetters keyword "LIMIT" = true) (n : Number.Numeral)
    (b : String) :
    (keyword ++ " " ++ n.text ++ (";" ++ b)).toList.head? ≠ some ' ' ∧
      lexemes true (keyword ++ " " ++ n.text ++ (";" ++ b)).toList =
        .word keyword.toList :: .space :: .word n.text.toList ::
          lexemes true (";" ++ b).toList := by
  have hword := isWord_of_sameLetters hk
  have htext : (keyword ++ " " ++ n.text ++ (";" ++ b)).toList =
      keyword.toList ++ ' ' :: (n.text.toList ++ (";" ++ b).toList) := by simp
  have hmark : (";" ++ b).toList.head?.any isWordChar = false := by
    rw [String.toList_append]
    rfl
  rw [htext]
  refine ⟨hword.head_ne_space _, ?_⟩
  rw [lexemes_word_space hword (n.isWord_text.head_ne_space _),
    lexemes_word_append n.isWord_text hmark]

/-- A limit behind a space that follows the table changes nothing but the limit. -/
theorem ofSource_append_limit {a b : String} {n : Number.Numeral} (ha : EndsAfterTable a)
    (hk : Text.sameLetters keyword "LIMIT" = true)
    (h : ofSource (a ++ (";" ++ b)) = .ok ⟨statement, none⟩) :
    ofSource (a ++ (keyword ++ " " ++ n.text ++ (";" ++ b))) =
      if -0x80000000 ≤ n.value ∧ n.value ≤ 0x7FFFFFFF then .ok ⟨statement, some n.value⟩
      else .error (.ofFault .select (a ++ (keyword ++ " " ++ n.text ++ (";" ++ b)))
        (.notInteger "LIMIT" n.text)) := by
  obtain ⟨p, hp, hlast⟩ := ha
  have hmark : lexemes true (";" ++ b).toList ≠ [] := by
    rw [String.toList_append]
    exact (lexemes_mark rfl _).trans_ne (List.cons_ne_nil _ _)
  obtain ⟨hhead, hclause⟩ := lexemes_limit hk n b
  have hkeyword : (Lexeme.word keyword.toList).token true = keyword := String.ofList_toList
  have hnumber : (Lexeme.word n.text.toList).token true = n.text := String.ofList_toList
  rw [hp.ofSource_append hlast (by simp) hmark] at h
  rw [hp.ofSource_append hlast hhead (hclause.trans_ne (List.cons_ne_nil _ _)), hclause,
    List.map_cons, List.map_cons, List.map_cons, hkeyword, hnumber]
  cases hclauses : clauses none
      (afterTarget p.rest ++ (lexemes true (";" ++ b).toList).map (token true)) with
  | error fault =>
    rw [hclauses] at h
    cases h
  | ok sent =>
    obtain ⟨text, limit⟩ := sent
    rw [hclauses] at h
    obtain ⟨rfl, rfl⟩ : p.front ++ (" " ++ text) = statement ∧ limit = none := by simpa using h
    rw [clauses_insert_limit hclauses hk]
    split_ifs <;> rfl

end Query

end TableShell
