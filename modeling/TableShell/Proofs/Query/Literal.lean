import TableShell.Proofs.Lexeme.Printed
import TableShell.Proofs.Query.Form

/-!
# Literals in a statement that is sent

What follows the front of a statement is sent with single quotes, and the contents of its literals
are sent as they stand: no escape is written for them. A reader of what was sent therefore finds the
tokens that were typed exactly if no literal contains a quote or a backslash
(`Query.literals_survive_iff`); each literal is then one literal with single quotes and the same
content.
-/

namespace TableShell

namespace Query

open Lexeme

variable {l : Lexeme} {ls rest : List Lexeme} {out : String} {limit : Option Int}

/-! ## Limits -/

/-- The lexemes without the LIMIT clauses among them: the keyword, one lexeme that is not looked at,
and the number. -/
def withoutLimits : List Lexeme → List Lexeme
  | [] => []
  | l :: ls =>
    if Text.sameLetters (l.token true) "LIMIT" then
      match ls with
      | _ :: _ :: ls => withoutLimits ls
      | _ => []
    else l :: withoutLimits ls

/-- What is sent for the clauses after the table are the copied lexemes without the limits. -/
theorem copyRest_of_clauses {limit' : Option Int} {text : String}
    (h : clauses limit (ls.map (Lexeme.token true)) = .ok (text, limit')) :
    text = copyRest (withoutLimits ls) := by
  fun_induction withoutLimits ls generalizing limit text with
  | case1 =>
    cases h
    rfl
  | case2 l hl sep value ls ih =>
    rw [List.map_cons, clauses.eq_def] at h
    simp only [hl, if_true, List.map_cons] at h
    split at h
    · exact ih h
    · cases h
  | case3 l ls hl hshort =>
    rw [List.map_cons, clauses.eq_def] at h
    simp only [hl, if_true] at h
    split at h
    · next sep value rest hrest =>
      obtain ⟨s, ls, rfl, rfl, hls⟩ := List.map_eq_cons_iff.1 hrest
      obtain ⟨v, ls, rfl, rfl, rfl⟩ := List.map_eq_cons_iff.1 hls
      exact absurd rfl (hshort s v ls)
    · cases h
  | case4 l ls hl ih =>
    rw [List.map_cons, clauses.eq_def] at h
    simp only [hl] at h
    obtain ⟨⟨sent, _⟩, hclauses, h⟩ := bind_eq_ok.1 h
    cases h
    rw [ih hclauses]
    rfl

/-- The keyword is a word. -/
theorem eq_word_of_limit (hs : l.Sound) (h : Text.sameLetters (l.token true) "LIMIT" = true) :
    ∃ w, l = .word w := by
  have htext : (text true l).map Char.toUpper = ['L', 'I', 'M', 'I', 'T'] := by
    simpa [Text.sameLetters] using h
  cases l with
  | word w => exact ⟨w, rfl⟩
  | space => simp [text] at htext
  | mark c => simp [text] at htext
  | literal quote content closed =>
    rcases isQuote_iff.1 hs with rfl | rfl <;> simp [text] at htext

/-- What stands apart from a word stands apart from anything, if spaces are not read. -/
theorem apart_of_word {w : List Char} (h : Apart false l (.word w)) (n : Lexeme) :
    Apart false l n := by
  cases l with
  | word v => exact h.elim
  | literal quote content closed => exact h
  | space => cases n <;> trivial
  | mark c => cases n <;> trivial

/-- Lexemes that stand apart stand apart without the limits, also from one in front of them. -/
theorem isChain_withoutLimits (hs : ∀ l ∈ ls, l.Sound) (hc : ls.IsChain (Apart false)) :
    (withoutLimits ls).IsChain (Apart false) ∧
      ∀ l, (∀ n ∈ ls.head?, Apart false l n) → ∀ n ∈ (withoutLimits ls).head?, Apart false l n := by
  fun_induction withoutLimits ls with
  | case1 => exact ⟨.nil, fun _ _ => nofun⟩
  | case2 k hk sep value ls ih =>
    obtain ⟨hkeyword, hs⟩ := List.forall_mem_cons.1 hs
    obtain ⟨w, rfl⟩ := eq_word_of_limit hkeyword hk
    have hs : ∀ l ∈ ls, l.Sound := fun l hl => hs l (by simp [hl])
    refine ⟨(ih hs (hc.drop 3)).1, fun l hl n _ => ?_⟩
    exact apart_of_word (hl _ rfl) n
  | case3 => exact ⟨.nil, fun _ _ => nofun⟩
  | case4 k ls hk ih =>
    obtain ⟨hhead, hc⟩ := List.isChain_cons.1 hc
    obtain ⟨hchain, hfirst⟩ := ih (List.forall_mem_cons.1 hs).2 hc
    exact ⟨List.isChain_cons.2 ⟨hfirst k hhead, hchain⟩, fun l hl => hl⟩

/-- Leaving out limits adds no lexeme. -/
theorem withoutLimits_subset (ls : List Lexeme) : withoutLimits ls ⊆ ls := by
  fun_induction withoutLimits ls with
  | case1 => exact List.Subset.refl _
  | case2 k hk sep value ls ih =>
    intro l hl
    simp [ih hl]
  | case3 => exact List.nil_subset _
  | case4 k ls hk ih => exact List.cons_subset_cons k ih

/-! ## What follows the front -/

/-- The lexemes of what follows the front of a statement, without limits and spaces. -/
def valueArea (subject : Subject) (rest : List Lexeme) : List Lexeme :=
  (if subject = .select then withoutLimits rest else rest).filter (· != .space)

/-- The lexemes without a space in front of them. -/
def unspaced : List Lexeme → List Lexeme
  | .space :: ls => ls
  | ls => ls

/-- Lexemes that do not start with a space are not changed. -/
theorem unspaced_of_ne (h : l ≠ .space) (ls : List Lexeme) : unspaced (l :: ls) = l :: ls := by
  cases l with
  | space => exact absurd rfl h
  | _ => rfl

/-- Leaving out a first space leaves an end of the lexemes. -/
theorem unspaced_suffix (ls : List Lexeme) : unspaced ls <:+ ls := by
  fun_cases unspaced ls with
  | case1 ls => exact List.suffix_cons .space ls
  | case2 => exact List.suffix_refl _

/-- The lexemes that are sent for those after the front: in a SELECT a space and, without the
limits, what follows the space that was typed. -/
def copied (subject : Subject) (rest : List Lexeme) : List Lexeme :=
  if subject = .select then .space :: withoutLimits (unspaced rest) else rest

/-- A lexeme that shows a space is one, or a literal. -/
theorem eq_space_of_bare (hs : l.Sound)
    (hl : ∀ quote content closed, l ≠ .literal quote content closed)
    (h : bare l = spaceToken) : l = .space := by
  have hbare : bare l = l.token true := by
    cases l with
    | literal quote content closed => exact absurd rfl (hl quote content closed)
    | _ => rfl
  obtain ⟨c, cs, htext, hc, _⟩ := hs.text_eq_cons
  rw [hbare, ← String.toList_inj, toList_token, htext] at h
  obtain ⟨rfl, -⟩ := List.cons.inj h
  exact hc rfl

/-- After a table that no literal follows directly, the clauses show their quotes; a space in front
of them is left out. -/
theorem afterTarget_eq (hs : ∀ l ∈ rest, l.Sound)
    (hfirst : ∀ quote content closed, rest.head? ≠ some (.literal quote content closed)) :
    afterTarget rest = (unspaced rest).map (Lexeme.token true) := by
  cases rest with
  | nil => rfl
  | cons l ls =>
    have hl : ∀ quote content closed, l ≠ .literal quote content closed :=
      fun quote content closed h => hfirst quote content closed (congrArg some h)
    by_cases hspace : l = .space
    · subst hspace
      rw [afterTarget, if_pos bare_space]
      rfl
    · have hne : bare l ≠ spaceToken := fun h =>
        hspace (eq_space_of_bare (hs l List.mem_cons_self) hl h)
      rw [afterTarget, if_neg hne, unspaced_of_ne hspace]
      cases l with
      | literal quote content closed => exact absurd rfl (hl quote content closed)
      | _ => rfl

/-- What is sent for the lexemes after the front is a copy. In a SELECT no literal may follow the
table directly. -/
theorem eq_copyRest_copied {subject : Subject} (hf : Follows subject rest out limit)
    (hs : ∀ l ∈ rest, l.Sound)
    (hfirst : subject = .select → ∀ quote content closed,
      rest.head? ≠ some (.literal quote content closed)) :
    out = copyRest (copied subject rest) := by
  cases subject with
  | select =>
    obtain ⟨-, text, htext, rfl⟩ := hf
    rw [afterTarget_eq hs (hfirst rfl)] at htext
    rw [copyRest_of_clauses htext]
    rfl
  | _ => exact hf.1

/-- What is copied was typed, apart from a space. -/
theorem mem_copied {subject : Subject} (hl : l ∈ copied subject rest) :
    l = .space ∨ l ∈ rest := by
  rw [copied] at hl
  split at hl
  · rcases List.mem_cons.1 hl with rfl | hl
    · exact .inl rfl
    · exact .inr ((unspaced_suffix rest).subset (withoutLimits_subset _ hl))
  · exact .inr hl

/-- What is copied is the value area, and spaces. -/
theorem filter_copied (subject : Subject) (rest : List Lexeme) :
    (copied subject rest).filter (· != .space) = valueArea subject rest := by
  rw [copied, valueArea]
  split
  · fun_cases unspaced rest with
    | case1 ls =>
      have hspace : withoutLimits (.space :: ls) = .space :: withoutLimits ls := by
        rw [withoutLimits.eq_def]
        exact if_neg (by decide +kernel)
      rw [hspace]
    | case2 => rfl
  · rfl

/-- What is sent for the lexemes after the front is a copy of lexemes that stand apart: those of the
value area, and spaces. -/
theorem copy_of_follows {subject : Subject} (hf : Follows subject rest out limit)
    (hs : ∀ l ∈ rest, l.Sound) (hc : rest.IsChain (Apart false))
    (hfirst : subject = .select → ∀ quote content closed,
      rest.head? ≠ some (.literal quote content closed)) :
    ∃ ls, out = copyRest ls ∧ ls.filter (· != .space) = valueArea subject rest ∧
      (∀ l ∈ ls, l.Sound) ∧ ls.IsChain (Apart false) := by
  refine ⟨copied subject rest, eq_copyRest_copied hf hs hfirst, filter_copied subject rest, ?_⟩
  rw [copied]
  split
  · have hs : ∀ l ∈ unspaced rest, l.Sound := fun l hl => hs l ((unspaced_suffix rest).subset hl)
    have hc := (isChain_withoutLimits hs (hc.suffix (unspaced_suffix rest))).1
    refine ⟨List.forall_mem_cons.2 ⟨trivial, fun l hl => hs l (withoutLimits_subset _ hl)⟩, ?_⟩
    refine List.isChain_cons.2 ⟨fun l _ => ?_, hc⟩
    cases l <;> trivial
  · exact ⟨hs, hc⟩

/-! ## Reading what was sent -/

/-- A lexeme with single quotes. -/
def single : Lexeme → Lexeme
  | .literal _ content closed => .literal '\'' content closed
  | l => l

/-- Single quotes keep a lexeme one that a text can have. -/
theorem sound_single (h : l.Sound) : (single l).Sound := by
  cases l with
  | literal quote content closed => exact (rfl : isQuote '\'' = true)
  | _ => exact h

/-- Single quotes keep the content of a literal. -/
theorem plain_single (h : l.Plain) : (single l).Plain := by
  cases l <;> exact h

/-- Single quotes keep lexemes apart. -/
theorem apart_single {spaces : Bool} {n : Lexeme} (h : Apart spaces l n) :
    Apart spaces (single l) (single n) := by
  cases l <;> cases n <;> exact h

/-- A lexeme shows the same without its quotes, whichever they are. -/
theorem bare_single (l : Lexeme) : bare (single l) = bare l := by
  cases l <;> rfl

/-- A character as it is sent. -/
def toSingle (c : Char) : Char := if c = '"' then '\'' else c

/-- What is copied is the written lexemes with every double quote made a single one. -/
theorem toList_copyRest (ls : List Lexeme) :
    (copyRest ls).toList = (ls.flatMap (Lexeme.text true)).map toSingle := by
  rw [copyRest_eq, singleQuotes, String.toList_ofList, String.toList_ofList]
  rfl

/-- Every quote is made a single one. -/
theorem toSingle_of_isQuote {c : Char} (h : isQuote c = true) : toSingle c = '\'' := by
  rcases isQuote_iff.1 h with rfl | rfl <;> rfl

/-- Where there is no quote, nothing is changed. -/
theorem map_toSingle {s : List Char} (h : ∀ c ∈ s, isQuote c = false) : s.map toSingle = s := by
  refine (List.map_congr_left fun c hc => ?_).trans (List.map_id s)
  rw [toSingle, if_neg]
  · rfl
  · rintro rfl
    exact absurd (h _ hc) (by decide)

/-- A sound lexeme without a quote in it is sent as it is, a literal with single quotes. -/
theorem map_toSingle_text (hs : l.Sound) (hp : l.Plain) :
    (Lexeme.text true l).map toSingle = Lexeme.text true (single l) := by
  cases l with
  | space => rfl
  | word w =>
    refine map_toSingle fun c hc => ?_
    exact (kind_of_isWordChar (List.all_eq_true.1 hs.2 c hc)).2.2
  | mark c =>
    refine map_toSingle fun d hd => ?_
    obtain rfl : d = c := by simpa [Lexeme.text] using hd
    exact (isMark_iff.1 hs).2.2.1
  | literal quote content closed =>
    have hquote := toSingle_of_isQuote hs
    have hcontent := map_toSingle fun c hc => (hp c hc).2
    cases closed <;> simp [Lexeme.text, single, hquote, hcontent]

/-- Plain lexemes are copied with single quotes around the literals. -/
theorem toList_copyRest_single (hs : ∀ l ∈ ls, l.Sound) (hp : ∀ l ∈ ls, l.Plain) :
    (copyRest ls).toList = (ls.map single).flatMap (Lexeme.text true) := by
  rw [toList_copyRest, List.map_flatMap, List.flatMap_map]
  exact List.flatMap_congr fun l hl => map_toSingle_text (hs l hl) (hp l hl)

/-- Plain lexemes that stand apart are read from their copy, each literal with single quotes. -/
theorem lexemes_copyRest (hs : ∀ l ∈ ls, l.Sound) (hp : ∀ l ∈ ls, l.Plain)
    (hc : ls.IsChain (Apart false)) :
    lexemes false (copyRest ls).toList = (ls.filter (· != .space)).map single := by
  have hkept : (fun l => false || l != Lexeme.space) ∘ single = (· != .space) := by
    funext l
    cases l <;> rfl
  rw [toList_copyRest_single hs hp, lexemes_flatMap_text, List.filter_map, hkept]
  · exact List.forall_mem_map.2 fun l hl => sound_single (hs l hl)
  · exact List.forall_mem_map.2 fun l hl => plain_single (hp l hl)
  · exact (List.isChain_map single).2 (hc.imp fun _ _ => apart_single)

/-! ## Contents that do not survive -/

/-- The change of quotes copies literals with single quotes. -/
theorem copies_toSingle : Copies '\'' toSingle where
  isQuote := rfl
  escape := rfl
  copy c := by
    by_cases hc : c = '"'
    · exact .inr (if_pos hc)
    · exact .inl (if_neg hc)

variable {content : List Char}

/-- A content that is read from its copy is plain. -/
theorem plain_of_scanLiteral {t : List Char} (ht : ∀ c ∈ t.head?, c = '\'')
    (h : (scanLiteral '\'' (content.map toSingle ++ t)).1 = content) :
    ∀ c ∈ content, c ≠ '\\' ∧ isQuote c = false := by
  intro c hc
  obtain ⟨hescape, hquote⟩ := copies_toSingle.of_scanLiteral ht h c hc
  exact ⟨hescape, Bool.eq_false_iff.2 (hquote ∘ toSingle_of_isQuote)⟩

/-- A copy starts with a word character only if what is copied starts with a word. -/
theorem head?_toSingle (s : List Char) :
    (s.map toSingle).head?.any isWordChar = s.head?.any isWordChar := by
  cases s with
  | nil => rfl
  | cons c s =>
    by_cases hc : c = '"'
    · subst hc
      rfl
    · have hsent : toSingle c = c := if_neg hc
      simp [hsent]

/-- A literal whose content is read from its copy is plain, and what follows it is read on its
own. -/
theorem plain_of_literal {quote : Char} {closed : Bool} {after : List Char} {tokens : List String}
    (hs : isQuote quote = true) (hend : closed = false → after = [])
    (h : (lexemes false ((Lexeme.text true (.literal quote content closed)).map toSingle ++
      after)).map bare = String.ofList content :: tokens) :
    Lexeme.Plain (.literal quote content closed) ∧ (lexemes false after).map bare = tokens := by
  have hquote := toSingle_of_isQuote hs
  have hsent : (Lexeme.text true (.literal quote content closed)).map toSingle ++ after =
      '\'' :: (content.map toSingle ++ ((if closed then ['\''] else []) ++ after)) := by
    cases closed <;> simp [Lexeme.text, hquote]
  have ht : ∀ c ∈ ((if closed then ['\''] else []) ++ after).head?, c = '\'' := by
    cases closed with
    | true => simp
    | false => simp [hend rfl]
  rw [hsent, lexemes_quote rfl] at h
  obtain ⟨hcontent, hafter⟩ := List.cons.inj h
  have hplain := plain_of_scanLiteral ht (String.ofList_inj.1 hcontent)
  have hscan : scanLiteral '\'' (content ++ ((if closed then ['\''] else []) ++ after)) =
      (content, closed, after) := scanLiteral_written rfl hplain hend
  refine ⟨hplain, ?_⟩
  rwa [map_toSingle fun c hc => (hplain c hc).2, hscan] at hafter

/-- Lexemes whose tokens are read from their copy are plain. -/
theorem plain_of_tokens (hs : ∀ l ∈ ls, l.Sound) (hc : ls.IsChain (Apart false))
    (h : (lexemes false (copyRest ls).toList).map bare = (ls.filter (· != .space)).map bare) :
    ∀ l ∈ ls, l.Plain := by
  rw [toList_copyRest] at h
  induction ls with
  | nil => exact nofun
  | cons l ls ih =>
    obtain ⟨hl, hsound⟩ := List.forall_mem_cons.1 hs
    obtain ⟨happart, hchain⟩ := List.isChain_cons.1 hc
    rw [List.flatMap_cons, List.map_append] at h
    suffices hfirst : l.Plain ∧
        (lexemes false ((ls.flatMap (Lexeme.text true)).map toSingle)).map bare =
          (ls.filter (· != .space)).map bare from
      List.forall_mem_cons.2 ⟨hfirst.1, ih hsound hchain hfirst.2⟩
    cases l with
    | space =>
      change (lexemes false (' ' :: (ls.flatMap (Lexeme.text true)).map toSingle)).map bare = _ at h
      rw [lexemes_false_space] at h
      exact ⟨trivial, h⟩
    | word w =>
      have hne : ((ls.flatMap (Lexeme.text true)).map toSingle).head?.any isWordChar = false := by
        rw [head?_toSingle, Bool.eq_false_iff]
        intro hword
        obtain ⟨v, hv⟩ := (head?_flatMap_text hsound).2 hword
        exact happart _ hv
      rw [map_toSingle_text hl trivial] at h
      change (lexemes false (w ++ _)).map bare = _ at h
      rw [lexemes_word_append hl hne] at h
      exact ⟨trivial, (List.cons.inj h).2⟩
    | mark c =>
      rw [map_toSingle_text hl trivial] at h
      change (lexemes false (c :: _)).map bare = _ at h
      rw [lexemes_mark hl] at h
      exact ⟨trivial, (List.cons.inj h).2⟩
    | literal quote content closed =>
      refine plain_of_literal hl (fun hopen => ?_) h
      cases ls with
      | nil => rfl
      | cons n ls => exact absurd (happart n rfl) (by simp [Apart, hopen])

/-! ## Statements -/

/-- The literals of an accepted source without layout survive exactly if they contain no quote and
no backslash: then, and only then, a reader of what is sent for the value area finds the tokens that
were typed there. Each literal is then one literal with single quotes and the same content. In a
SELECT no literal may follow the table directly. -/
theorem literals_survive_iff {source : String} {query : Query} (h : ofSource source = .ok query)
    (hs : ∀ c ∈ source.toList, isLayout c = false) :
    ∃ subject rest out, Sends source subject rest out query ∧
      ((subject = .select → ∀ quote content closed,
          rest.head? ≠ some (.literal quote content closed)) →
        (tokensOf out = (valueArea subject rest).map bare ↔
          ∀ l ∈ valueArea subject rest, l.Plain) ∧
        ((∀ l ∈ valueArea subject rest, l.Plain) →
          lexemes false out.toList = (valueArea subject rest).map single)) := by
  obtain ⟨subject, rest, out, hsends⟩ := ofSource_eq_ok.1 h
  refine ⟨subject, rest, out, hsends, fun hfirst => ?_⟩
  have hsuffix := hsends.rest_suffix
  have hsound : ∀ l ∈ rest, l.Sound := fun l hl => sound_of_mem_lexemes _ l (hsuffix.subset hl)
  have hchain : rest.IsChain (Apart false) :=
    ((isChain_lexemes hs).suffix hsuffix).imp fun _ _ => Apart.spaceless
  cases hsends with
  | mk hls hsubject hform hfollows =>
    obtain ⟨ls, rfl, harea, hsound, hchain⟩ := copy_of_follows hfollows hsound hchain hfirst
    have hplain : (∀ l ∈ valueArea subject rest, l.Plain) → ∀ l ∈ ls, l.Plain := by
      intro hp l hl
      by_cases hspace : l = .space
      · subst hspace
        trivial
      · exact hp l (by rw [← harea]; exact List.mem_filter.2 ⟨hl, by simpa using hspace⟩)
    have hread : (∀ l ∈ valueArea subject rest, l.Plain) →
        lexemes false (copyRest ls).toList = (valueArea subject rest).map single := by
      intro hp
      rw [lexemes_copyRest hsound (hplain hp) hchain, harea]
    refine ⟨⟨fun htokens => ?_, fun hp => ?_⟩, hread⟩
    · rw [← harea] at htokens ⊢
      intro l hl
      exact plain_of_tokens hsound hchain htokens l (List.mem_filter.1 hl).1
    · change (lexemes false (copyRest ls).toList).map bare = _
      rw [hread hp, List.map_map]
      exact List.map_congr_left fun l _ => bare_single l

/-- A literal with a quote in it is sent, and read differently. -/
theorem literals_survive_iff_quote_inside :
    let source := "UPDATE t SET a=\"it's\";"
    let query : Query := ⟨"UPDATE \"t\" SET a='it's';", none⟩
    ofSource source = .ok query ∧ (∀ c ∈ source.toList, isLayout c = false) ∧
      ∃ rest out, Sends source .update rest out query ∧
        tokensOf out ≠ (valueArea .update rest).map bare := by
  intro source query
  have haccepted : ofSource source = .ok query := eq_ok_of_toOption (by decide +kernel)
  have hlayout : ∀ c ∈ source.toList, isLayout c = false := by
    have hall : source.toList.all (fun c => !isLayout c) = true := by decide +kernel
    simpa using hall
  have hform {subject rest out q} (hsends : Sends source subject rest out q) :
      subject = .update ∧ .literal '"' "it's".toList true ∈ valueArea .update rest := by
    have hlexemes : lexemesOf source = [.word "UPDATE".toList, .space, .word ['t'], .space,
        .word "SET".toList, .space, .word ['a'], .mark '=', .literal '"' "it's".toList true,
        .mark ';'] := by decide +kernel
    cases hsends with
    | mk hls hs hform _ =>
      obtain ⟨rfl, rfl⟩ := List.cons.inj (hlexemes.symm.trans hls)
      have hverb : subject? (bare (.word "UPDATE".toList)) = some .update := by decide +kernel
      obtain rfl := Option.some.inj (hverb.symm.trans hs)
      cases hform with
      | update _ => exact ⟨rfl, by decide +kernel⟩
  obtain ⟨subject, rest, out, hsends, hiff⟩ := literals_survive_iff haccepted hlayout
  obtain ⟨rfl, hrest⟩ := hform hsends
  refine ⟨haccepted, hlayout, rest, out, hsends, fun htokens => ?_⟩
  have hplain := (hiff nofun).1.1 htokens _ hrest
  exact absurd (hplain '\'' (by simp)).2 (by decide)

end Query

end TableShell
