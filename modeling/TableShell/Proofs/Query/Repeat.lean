import TableShell.Proofs.Query.Limit

/-!
# Statements that are read again

What is sent is a statement itself. Its table is one literal, its keyword is VALUE and its literals
have single quotes (`Query.Parts.sent`), and there is nothing left to be changed: a statement whose
literals can be written with single quotes is sent as what is sent unchanged when it is read again
(`Query.ofSource_statement`). An INSERT whose keyword stands in quotes is the exception, as its
quotes are not sent and a word behind it runs together with it
(`Query.ofSource_statement_fails`).
-/

namespace TableShell

namespace Query

open Lexeme

variable {source statement : String} {subject : Subject} {p : Parts} {ls : List Lexeme}

/-! ## Copies of copies -/

/-- A lexeme is copied with single quotes, whichever it has. -/
theorem requoted_single {l : Lexeme} (hs : l.Sound) : requoted (single l) = requoted l := by
  cases l with
  | literal quote content closed =>
    rcases isQuote_iff.1 hs with rfl | rfl
    · rfl
    · cases closed <;> simp [requoted, single, singleQuotes, Lexeme.token, Lexeme.text]
  | _ => rfl

/-- Lexemes are copied with single quotes, whatever quotes they have. -/
theorem copyRest_single (hs : ∀ l ∈ ls, l.Sound) : copyRest (ls.map single) = copyRest ls := by
  have hmap : (ls.map single).map requoted = ls.map requoted := by
    rw [List.map_map]
    exact List.map_congr_left fun l hl => requoted_single (hs l hl)
  rw [copyRest, hmap, copyRest]

/-- Lexemes without the keyword LIMIT are not changed by leaving out limits. -/
theorem withoutLimits_eq_self
    (h : ∀ l ∈ ls, Text.sameLetters (l.token true) "LIMIT" = false) : withoutLimits ls = ls := by
  induction ls with
  | nil => rfl
  | cons l ls ih =>
    obtain ⟨hl, hls⟩ := List.forall_mem_cons.1 h
    have hl : ¬ Text.sameLetters (l.token true) "LIMIT" = true := by simp [hl]
    rw [withoutLimits.eq_def]
    simp only [if_neg hl, ih hls]

/-- A literal with single quotes is no limit. -/
theorem not_limit_single {l : Lexeme} (hs : l.Sound)
    (h : Text.sameLetters (l.token true) "LIMIT" = false) :
    Text.sameLetters ((single l).token true) "LIMIT" = false := by
  cases l with
  | literal quote content closed =>
    by_contra hlimit
    obtain ⟨w, hw⟩ := eq_word_of_limit (sound_single hs) (by simpa using hlimit)
    cases hw
  | _ => exact h

/-! ## What is sent as a statement -/

/-- The parts of what is sent for a statement. -/
def Parts.sent (subject : Subject) (p : Parts) : Parts where
  verb := p.verb
  lead := p.lead
  sep := .space
  table := [.literal '"' (p.table.flatMap (Lexeme.text false)) true]
  link := sentLink p.link
  rest := (copied subject p.rest).map single

/-- The statement has no backslash and no layout. Its literals are the table or stand behind it, not
right behind it, and can be written with single quotes. -/
structure Simple (source : String) (p : Parts) : Prop where
  chars : ∀ c ∈ source.toList, c ≠ '\\' ∧ isLayout c = false
  lead : ∀ l ∈ p.verb :: p.lead ++ [p.sep], l.isLiteral = false
  next : ∀ l ∈ (p.link ++ p.rest).head?, l.isLiteral = false
  contents : ∀ quote content closed, .literal quote content closed ∈ lexemesOf source →
    ∀ c ∈ content, isQuote c = true → c = quote

/-- What is sent for a statement is of the same kind. -/
theorem Parts.Fits.sent (h : p.Fits subject) : (p.sent subject).Fits subject := by
  cases h with
  | select hhead hkeyword _ _ _ =>
    refine .select hhead hkeyword bare_space trivial fun l hl => ?_
    obtain rfl : Lexeme.space = l := by simpa [copied, single] using hl
    decide +kernel
  | @insert verb into sep table sep' keyword head rest value hhead hinto _ _ hvalue =>
    rw [Parts.sent, sentLink_eq hvalue]
    exact .insert hhead hinto bare_space bare_space (valueKeyword?_eq_self hvalue)
  | update _ => exact .update bare_space
  | delete hsep hkeyword _ => exact .delete hsep hkeyword bare_space

/-- The lexemes of what is sent: its front, and what was copied with single quotes. -/
theorem Parts.sent_eq (p : Parts) (subject : Subject) :
    (p.sent subject).verb :: (p.sent subject).tail =
      p.sentFront ++ (copied subject p.rest).map single := by
  simp [tail, sent, sentFront]

/-- The front of what is sent is sent again as it is. -/
theorem Parts.front_sent (h : p.Fits subject) : (p.sent subject).front = p.front := by
  simp [front, sent, h.sentLink_sentLink, written, Lexeme.text]

/-! ## What is sent is read as a statement -/

/-- Where no two spaces stand side by side, none does behind the space that is sent. -/
theorem isChain_space_unspaced {rest : List Lexeme} (hc : rest.IsChain (Apart true)) :
    (Lexeme.space :: unspaced rest).IsChain (Apart true) := by
  fun_cases unspaced rest with
  | case1 ls => exact hc
  | case2 _ hspace =>
    refine List.isChain_cons.2 ⟨fun l hl => ?_, hc⟩
    cases l with
    | space =>
      obtain ⟨ls, rfl⟩ := List.head?_eq_some_iff.1 hl
      exact absurd rfl (hspace ls)
    | word | literal | mark => trivial

namespace Simple

variable (hp : p.Of source subject) (hs : Simple source p)
include hp hs

/-- The lexemes of the statement stand apart. -/
theorem isChain : (p.verb :: p.tail).IsChain (Apart true) :=
  (isChain_lexemes fun c hc => (hs.chars c hc).2).suffix hp.suffix

/-- The characters that the lexemes show can be written in single quotes. -/
theorem ne_quote {l : Lexeme} (hl : l ∈ p.verb :: p.tail) :
    ∀ c ∈ Lexeme.text false l, c ≠ '\\' ∧ isQuote c = false := by
  have hescape : '\\' ∉ source.toList := fun hc => (hs.chars _ hc).1 rfl
  obtain ⟨hmem, hown⟩ := mem_of_mem_lexemes hescape (hp.suffix.subset hl)
  refine fun c hc => ⟨(hs.chars c (hmem c hc)).1, ?_⟩
  cases hliteral : l.isLiteral with
  | false => exact Unquoted.isQuote_eq_false ⟨hp.sound l hl, hliteral⟩ hc
  | true =>
    cases l with
    | literal quote content closed =>
      by_contra hquote
      have hsame : c = quote :=
        hs.contents quote content closed (hp.lexemesOf_eq ▸ hl) c hc (by simpa using hquote)
      exact hown quote content closed rfl (hsame ▸ hc)
    | space | word | mark => cases hliteral

/-- Every literal of the statement is plain. -/
theorem plain : ∀ l ∈ p.verb :: p.tail, l.Plain := by
  intro l hl
  cases l with
  | literal quote content closed => exact ne_quote hp hs hl
  | space | word | mark => trivial

/-- A space stands in front of the table: no literal can stand there. -/
theorem sep_eq : p.sep = .space := by
  refine eq_space_of_bare (hp.sound _ (by simp [Parts.tail])) ?_ hp.fits.bare_sep
  intro quote content closed hsep
  have hl := hs.lead p.sep (by simp)
  rw [hsep] at hl
  cases hl

/-- What stands in front of the table stands apart, the space in front of the table included. -/
theorem isChain_lead : (p.verb :: p.lead ++ [Lexeme.space]).IsChain (Apart true) := by
  have hchain := isChain hp hs
  have hsplit : p.verb :: p.tail =
      (p.verb :: p.lead ++ [Lexeme.space]) ++ (p.table ++ (p.link ++ p.rest)) := by
    simp [Parts.tail, sep_eq hp hs]
  rw [hsplit] at hchain
  exact hchain.left_of_append

/-- What is copied stands apart from the keyword that is sent in front of it. -/
theorem isChain_after
    (hcopied : subject = .select → withoutLimits (unspaced p.rest) = unspaced p.rest)
    (hkeyword : ∀ l ∈ p.link, l.isLiteral = true → ∀ w, p.rest.head? ≠ some (.word w)) :
    (sentLink p.link ++ copied subject p.rest).IsChain (Apart true) := by
  have hchain := isChain hp hs
  have hrest : p.rest.IsChain (Apart true) := hchain.suffix p.rest_suffix
  cases hp.fits with
  | select =>
    rw [copied, if_pos rfl, hcopied rfl]
    exact isChain_space_unspaced hrest
  | update | delete => exact hrest
  | @insert verb into sep table sep' keyword head rest value _ _ _ _ hvalue =>
    rw [sentLink_eq hvalue]
    refine List.isChain_cons.2 ⟨fun l hl => ?_, List.isChain_cons.2 ⟨fun l hl => ?_, hrest⟩⟩
    · obtain rfl : .word value.toList = l := by simpa using hl
      trivial
    · cases l with
      | word w =>
        cases hliteral : keyword.isLiteral with
        | true => exact absurd hl (hkeyword keyword (by simp) hliteral w)
        | false =>
          -- the keyword is a word, and no word follows another directly
          obtain ⟨v, rfl⟩ := eq_word_of_valueKeyword? hvalue hliteral
          simp only [Parts.tail] at hchain
          have hwords : (.word v :: rest).IsChain (Apart true) :=
            hchain.suffix ⟨verb :: (head ++ [into, sep, table, sep']), by simp⟩
          exact (List.isChain_cons.1 hwords).1 _ hl
      | space | literal | mark => trivial

/-- What is copied can be written with single quotes. -/
theorem sound_copied {l : Lexeme} (hl : l ∈ copied subject p.rest) : l.Sound ∧ l.Plain := by
  rcases mem_copied hl with rfl | hl
  · exact ⟨trivial, trivial⟩
  · have hmem := p.rest_suffix.subset hl
    exact ⟨hp.sound l hmem, plain hp hs l hmem⟩

/-- The lexemes that are sent can be written one after the other. -/
theorem sound_sent : ∀ l ∈ p.sentFront ++ (copied subject p.rest).map single,
    l.Sound ∧ l.Plain := by
  have hlead : ∀ l ∈ p.verb :: p.lead, l.Sound ∧ l.Plain := fun l hl =>
    ⟨hp.sound l (p.lead_subset hl), plain hp hs l (p.lead_subset hl)⟩
  have htable : (Lexeme.literal '"' (p.table.flatMap (Lexeme.text false)) true).Plain :=
    Parts.plain_table fun l hl => ne_quote hp hs (p.table_subset hl)
  have hlink : ∀ l ∈ sentLink p.link, l.Sound ∧ l.Plain := fun l hl =>
    ⟨hp.fits.sound_sentLink l hl, plain_of_not_literal (Parts.isLiteral_of_mem_sentLink hl)⟩
  refine List.forall_mem_append.2 ⟨List.forall_mem_append.2 ⟨hlead, ?_⟩, ?_⟩
  · exact List.forall_mem_cons.2 ⟨⟨trivial, trivial⟩, List.forall_mem_cons.2 ⟨⟨rfl, htable⟩, hlink⟩⟩
  · refine List.forall_mem_map.2 fun l hl => ?_
    obtain ⟨hsound, hplain⟩ := sound_copied hp hs hl
    exact ⟨sound_single hsound, plain_single hplain⟩

/-- The lexemes of what is sent stand apart, so that reading it gives them back. -/
theorem isChain_sent
    (hcopied : subject = .select → withoutLimits (unspaced p.rest) = unspaced p.rest)
    (hkeyword : ∀ l ∈ p.link, l.isLiteral = true → ∀ w, p.rest.head? ≠ some (.word w)) :
    (p.sentFront ++ (copied subject p.rest).map single).IsChain (Apart true) := by
  have hlink : (sentLink p.link).map single = sentLink p.link := by
    refine (List.map_congr_left fun l hl => ?_).trans (List.map_id _)
    have hl := Parts.isLiteral_of_mem_sentLink hl
    cases l with
    | literal => cases hl
    | space | word | mark => rfl
  have hafter : (sentLink p.link ++ (copied subject p.rest).map single).IsChain (Apart true) := by
    rw [← hlink, ← List.map_append]
    exact (List.isChain_map single).2
      ((isChain_after hp hs hcopied hkeyword).imp fun _ _ => apart_single)
  have hsplit : p.sentFront ++ (copied subject p.rest).map single =
      (p.verb :: p.lead ++ [Lexeme.space]) ++
        .literal '"' (p.table.flatMap (Lexeme.text false)) true ::
          (sentLink p.link ++ (copied subject p.rest).map single) := by simp [Parts.sentFront]
  rw [hsplit, List.isChain_append]
  refine ⟨isChain_lead hp hs, List.isChain_cons.2 ⟨fun _ _ => rfl, hafter⟩, fun l hl n hn => ?_⟩
  rw [List.getLast?_concat] at hl
  obtain rfl := Option.some.inj hl
  obtain rfl := Option.some.inj hn
  trivial

/-- What is sent is read as the lexemes that it consists of. -/
theorem lexemesOf_sent
    (hcopied : subject = .select → withoutLimits (unspaced p.rest) = unspaced p.rest)
    (hkeyword : ∀ l ∈ p.link, l.isLiteral = true → ∀ w, p.rest.head? ≠ some (.word w)) :
    lexemesOf (p.front ++ copyRest (copied subject p.rest)) =
      (p.sent subject).verb :: (p.sent subject).tail := by
  have htext : (p.front ++ copyRest (copied subject p.rest)).toList =
      (p.sentFront ++ (copied subject p.rest).map single).flatMap (Lexeme.text true) := by
    rw [String.toList_append,
      Parts.toList_front fun l hl => hs.lead l (List.mem_append_left _ hl),
      toList_copyRest_single (fun l hl => (sound_copied hp hs hl).1)
        (fun l hl => (sound_copied hp hs hl).2), List.flatMap_append]
  have hverb : ¬ bare p.verb = spaceToken := by
    intro hspace
    have hsubject := hp.subject?_eq
    have hnone : subject? spaceToken = none := by decide +kernel
    rw [hspace, hnone] at hsubject
    cases hsubject
  rw [lexemesOf, htext, lexemes_flatMap_text (fun l hl => (sound_sent hp hs l hl).1)
    (fun l hl => (sound_sent hp hs l hl).2) (isChain_sent hp hs hcopied hkeyword), ← Parts.sent_eq]
  simp only [Bool.true_or, List.filter_true]
  exact List.dropWhile_cons_of_neg (by simpa [Parts.sent] using hverb)

end Simple

/-! ## What is sent is sent again -/

/-- Without a limit, a SELECT is copied as it is. -/
theorem withoutLimits_of_follows {rest : List Lexeme} {out : String}
    (hf : Follows .select rest out none) (hs : ∀ l ∈ rest, l.Sound)
    (hfirst : ∀ quote content closed, rest.head? ≠ some (.literal quote content closed)) :
    ∀ l ∈ unspaced rest, Text.sameLetters (l.token true) "LIMIT" = false := by
  obtain ⟨-, text, hclauses, -⟩ := hf
  rw [afterTarget_eq hs hfirst] at hclauses
  exact fun l hl => not_limit_of_clauses hclauses _ (List.mem_map_of_mem hl)

/-- A copy of what follows the front is what is sent for it. -/
theorem follows_sent {rest : List Lexeme} {out : String} (hf : Follows subject rest out none)
    (hs : ∀ l ∈ rest, l.Sound)
    (hfirst : subject = .select → ∀ quote content closed,
      rest.head? ≠ some (.literal quote content closed)) :
    Follows subject ((copied subject rest).map single)
      (copyRest ((copied subject rest).map single)) none := by
  cases subject with
  | select =>
    have hlimit := withoutLimits_of_follows hf hs (hfirst rfl)
    have hcopied : copied .select rest = .space :: unspaced rest := by
      rw [copied, if_pos rfl, withoutLimits_eq_self hlimit]
    have hsingle : ∀ l ∈ (unspaced rest).map single,
        Text.sameLetters (l.token true) "LIMIT" = false :=
      List.forall_mem_map.2 fun l hl =>
        not_limit_single (hs l ((unspaced_suffix rest).subset hl)) (hlimit l hl)
    have hafter : afterTarget ((copied .select rest).map single) =
        ((unspaced rest).map single).map (Lexeme.token true) := by
      rw [hcopied]
      change afterTarget (.space :: (unspaced rest).map single) = _
      rw [afterTarget, if_pos bare_space]
    obtain ⟨text, htext⟩ := exists_clauses_eq (List.forall_mem_map.2 hsingle)
    have hne : unspaced rest ≠ [] := by
      have hne := hf.1
      rw [afterTarget_eq hs (hfirst rfl)] at hne
      simpa using hne
    refine ⟨by simpa [hafter] using hne, text, hafter ▸ htext none, ?_⟩
    rw [copyRest_of_clauses (htext none), withoutLimits_eq_self hsingle, hcopied]
    rfl
  | _ => exact ⟨rfl, rfl⟩

/-- What is sent for a statement is sent unchanged when it is read again, if the literals of the
statement can be written with single quotes and no word follows a quoted keyword directly. -/
theorem ofSource_statement (hp : p.Of source subject)
    (h : ofSource source = .ok ⟨statement, none⟩) (hs : Simple source p)
    (hkeyword : ∀ l ∈ p.link, l.isLiteral = true → ∀ w, p.rest.head? ≠ some (.word w)) :
    ofSource statement = .ok ⟨statement, none⟩ := by
  obtain ⟨out, hf, hout⟩ := hp.ofSource_eq_ok_iff.1 h
  have hsound : ∀ l ∈ p.rest, l.Sound := fun l hl => hp.sound l (p.rest_suffix.subset hl)
  have hfirst : subject = .select → ∀ quote content closed,
      p.rest.head? ≠ some (.literal quote content closed) := by
    rintro rfl quote content closed hhead
    have hlink : p.link = [] := by cases hp.fits with | select => rfl
    cases hs.next (.literal quote content closed) (by simpa [hlink] using hhead)
  have hcopied : subject = .select → withoutLimits (unspaced p.rest) = unspaced p.rest := by
    rintro rfl
    exact withoutLimits_eq_self (withoutLimits_of_follows hf hsound (hfirst rfl))
  have hstatement : statement = p.front ++ copyRest (copied subject p.rest) := by
    rw [← eq_copyRest_copied hf hsound hfirst]
    exact hout
  have hsent : (p.sent subject).Of statement subject :=
    ⟨hstatement ▸ hs.lexemesOf_sent hp hcopied hkeyword, hp.subject?_eq, hp.fits.sent⟩
  have hcopy : copyRest ((copied subject p.rest).map single) = copyRest (copied subject p.rest) :=
    copyRest_single fun l hl => (hs.sound_copied hp hl).1
  rw [hsent.ofSource_of_follows (follows_sent hf hsound hfirst), Parts.front_sent hp.fits, hcopy,
    ← hstatement]

/-- A literal in double quotes is sent with single quotes, and then it stays as it is. -/
theorem ofSource_statement_double_quotes :
    let source := "SELECT * FROM a.b WHERE c=\"d\";"
    let statement := "SELECT * FROM \"a.b\" WHERE c='d';"
    let p : Parts := ⟨.word "SELECT".toList, [.space, .mark '*', .space] ++ [.word "FROM".toList],
      .space, [.word ['a'], .mark '.', .word ['b']], [],
      [.space, .word "WHERE".toList, .space, .word ['c'], .mark '=', .literal '"' ['d'] true,
        .mark ';']⟩
    p.Of source .select ∧ Simple source p ∧ ofSource source = .ok ⟨statement, none⟩ ∧
      ofSource statement = .ok ⟨statement, none⟩ := by
  intro source statement p
  have hp : p.Of source .select := by
    refine ⟨by decide +kernel, by decide +kernel, ?_⟩
    refine .select ?_ ?_ ?_ ⟨rfl, trivial⟩ ?_ <;> decide +kernel
  have haccepted : ofSource source = .ok ⟨statement, none⟩ := eq_ok_of_toOption (by decide +kernel)
  have hchars : source.toList.all (fun c => c != '\\' && !isLayout c) = true := by decide +kernel
  have hs : Simple source p := by
    refine ⟨by simpa using hchars, by decide +kernel, by decide +kernel, ?_⟩
    intro quote content closed hl c hc hquote
    rw [hp.lexemesOf_eq] at hl
    obtain ⟨rfl, rfl, rfl⟩ : quote = '"' ∧ content = ['d'] ∧ closed = true := by
      simpa [p, Parts.tail] using hl
    obtain rfl : c = 'd' := by simpa using hc
    cases hquote
  exact ⟨hp, hs, haccepted, ofSource_statement hp haccepted hs (by simp [p])⟩

/-- The quotes of a quoted keyword are not sent, so that a word behind it runs together with it, and
what is sent is refused. -/
theorem ofSource_statement_fails :
    let source := "INSERT INTO t 'VALUE'x;"
    let statement := "INSERT INTO \"t\" VALUEx;"
    let p : Parts := ⟨.word "INSERT".toList, [.space] ++ [.word "INTO".toList], .space,
      [.word ['t']], [.space, .literal '\'' "VALUE".toList true], [.word ['x'], .mark ';']⟩
    p.Of source .insert ∧ Simple source p ∧ ofSource source = .ok ⟨statement, none⟩ ∧
      ∀ query, ofSource statement ≠ .ok query := by
  intro source statement p
  have hp : p.Of source .insert := by
    refine ⟨by decide +kernel, by decide +kernel, .insert ?_ ?_ rfl rfl rfl⟩ <;> decide +kernel
  have hchars : source.toList.all (fun c => c != '\\' && !isLayout c) = true := by decide +kernel
  have hs : Simple source p := by
    refine ⟨by simpa using hchars, by decide +kernel, by decide +kernel, ?_⟩
    intro quote content closed hl c hc hquote
    rw [hp.lexemesOf_eq] at hl
    obtain ⟨rfl, rfl, rfl⟩ : quote = '\'' ∧ content = "VALUE".toList ∧ closed = true := by
      simpa [p, Parts.tail] using hl
    have hplain : "VALUE".toList.all (fun c => !isQuote c) = true := by decide +kernel
    have hc : isQuote c = false := by simpa using List.all_eq_true.1 hplain c hc
    rw [hc] at hquote
    cases hquote
  have hrefused : (ofSource statement).toOption = none := by decide +kernel
  refine ⟨hp, hs, eq_ok_of_toOption (by decide +kernel), fun query haccepted => ?_⟩
  rw [haccepted] at hrefused
  cases hrefused

end Query

end TableShell
