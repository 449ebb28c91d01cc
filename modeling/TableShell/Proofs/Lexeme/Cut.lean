import TableShell.Proofs.Lexeme.Printed

/-!
# Texts cut between lexemes

A lexeme is read the same in front of anything that does not go on with it (`Lexeme.EndsBefore`,
`Lexeme.exists_scan`). So a text can be cut where one of its lexemes ends
(`Lexeme.exists_append_of_lexemes`), and two texts are read one after the other if the first one
ends there (`Lexeme.lexemes_append`).

The last sections say which characters the lexemes of a text show: where there is no quote there is
no literal, and where there is no backslash each character that is shown was written.
-/

namespace TableShell

namespace Lexeme

variable {spaces : Bool} {quote : Char} {l : Lexeme} {ls : List Lexeme} {s t : List Char}

/-! ## Where a lexeme ends -/

/-- The text does not go on with the lexeme that stands in front of it. -/
def EndsBefore : Lexeme → List Char → Prop
  | space, t => t.head? ≠ some ' '
  | word _, t => t.head?.any isWordChar = false
  | literal _ _ closed, t => closed = false → t = []
  | mark _, _ => True

/-- Whether a lexeme ends is seen from the next character. -/
theorem EndsBefore.of_prefix {r : List Char} (h : l.EndsBefore r) (ht : t <+: r) :
    l.EndsBefore t := by
  obtain ⟨u, rfl⟩ := ht
  cases t with
  | nil => cases l <;> simp [EndsBefore]
  | cons c t =>
    cases l with
    | space | word => exact h
    | literal quote content closed => exact fun hopen => absurd (h hopen) (List.cons_ne_nil _ _)
    | mark => trivial

/-- A lexeme that ends before a text ends before that text with more behind it. -/
theorem EndsBefore.append {r : List Char} (h : l.EndsBefore r) (ht : r = [] → l.EndsBefore t) :
    l.EndsBefore (r ++ t) := by
  cases r with
  | nil => exact ht rfl
  | cons c r =>
    cases l with
    | space | word => exact h
    | literal quote content closed => exact fun hopen => absurd (h hopen) (List.cons_ne_nil _ _)
    | mark => trivial

/-- The first lexeme of a text ends where its rest begins, and it is read the same in front of
anything else that does not go on with it. -/
theorem exists_scan {r : List Char} (h : scan spaces s = some (l, r)) :
    l.EndsBefore r ∧
      ∃ u, s = u ++ r ∧ ∀ t, l.EndsBefore t → scan spaces (u ++ t) = some (l, t) := by
  induction s with
  | nil => cases h
  | cons c s ih =>
    -- a character that is skipped is part of the text of the lexeme
    have skipped (hskip : ∀ t, scan spaces (c :: t) = scan spaces t) :
        l.EndsBefore r ∧
          ∃ u, c :: s = u ++ r ∧ ∀ t, l.EndsBefore t → scan spaces (u ++ t) = some (l, t) := by
      obtain ⟨hend, u, rfl, hu⟩ := ih (hskip s ▸ h)
      exact ⟨hend, c :: u, rfl, fun t ht => (hskip (u ++ t)).trans (hu t ht)⟩
    by_cases hl : isLayout c = true
    · exact skipped fun t => by rw [scan, if_pos hl]
    by_cases hs : c = ' '
    · subst hs
      cases spaces with
      | false => exact skipped fun _ => rfl
      | true =>
        obtain ⟨rfl, rfl⟩ : .space = l ∧ s.dropWhile (· == ' ') = r := by simpa [scan, hl] using h
        have hend : (s.dropWhile (· == ' ')).head? ≠ some ' ' := by
          intro hhead
          have hany := head?_dropWhile_any (· == ' ') s
          rw [hhead] at hany
          cases hany
        refine ⟨hend, ' ' :: s.takeWhile (· == ' '), by simp, fun t ht => ?_⟩
        have hspaces : (s.takeWhile (· == ' ')).all (· == ' ') = true := List.all_takeWhile
        have htail : t.head?.any (· == ' ') = false := by
          cases t with
          | nil => rfl
          | cons d t => simpa [EndsBefore] using ht
        change some (Lexeme.space, (_ ++ t).dropWhile (· == ' ')) = _
        rw [(takeWhile_append_of_head hspaces htail).2]
    by_cases hq : isQuote c = true
    · rw [scan_quote hq] at h
      obtain ⟨rfl, rfl⟩ := by simpa using h
      obtain ⟨u, hu, hread⟩ := exists_scanLiteral hq s
      refine ⟨scanLiteral_rest_of_open, c :: u, by rw [List.cons_append, ← hu], fun t ht => ?_⟩
      rw [List.cons_append, scan_quote hq, hread t ht]
    by_cases hw : isWordChar c = true
    · rw [scan_word hw] at h
      obtain ⟨rfl, rfl⟩ := by simpa using h
      refine ⟨head?_dropWhile_any isWordChar s, c :: s.takeWhile isWordChar, by simp,
        fun t ht => ?_⟩
      obtain ⟨htake, hdrop⟩ := takeWhile_append_of_head List.all_takeWhile ht
      rw [List.cons_append, scan_word hw, htake, hdrop]
    · have hmark : isMark c = true := isMark_iff.2 (by simp_all)
      rw [scan_mark hmark] at h
      obtain ⟨rfl, rfl⟩ := by simpa using h
      exact ⟨trivial, [c], rfl, fun t _ => scan_mark hmark t⟩

/-! ## Texts one after the other -/

/-- The first lexeme of a text is the one that is read first, and the others are those of the rest.
-/
theorem exists_scan_of_lexemes (h : lexemes spaces s = l :: ls) :
    ∃ r, scan spaces s = some (l, r) ∧ lexemes spaces r = ls := by
  cases hs : scan spaces s with
  | none =>
    rw [lexemes_of_scan_none hs] at h
    cases h
  | some p =>
    obtain ⟨l', r⟩ := p
    rw [lexemes_of_scan_some hs] at h
    obtain ⟨rfl, rfl⟩ := List.cons.inj h
    exact ⟨r, rfl, rfl⟩

/-- A text can be cut where one of its lexemes ends. -/
theorem exists_append_of_lexemes {as bs : List Lexeme} (h : lexemes spaces s = as ++ bs) :
    ∃ x y, s = x ++ y ∧ lexemes spaces x = as ∧ lexemes spaces y = bs := by
  induction as generalizing s with
  | nil => exact ⟨[], s, rfl, rfl, h⟩
  | cons l as ih =>
    obtain ⟨r, hscan, hr⟩ := exists_scan_of_lexemes h
    obtain ⟨hend, u, rfl, hu⟩ := exists_scan hscan
    obtain ⟨x, y, rfl, rfl, hy⟩ := ih hr
    have hx := lexemes_of_scan_some (hu x (hend.of_prefix (List.prefix_append x y)))
    exact ⟨u ++ x, y, by simp, hx, hy⟩

/-- A text without lexemes changes nothing in front of another one. -/
theorem lexemes_append_of_nil (h : lexemes spaces s = []) (t : List Char) :
    lexemes spaces (s ++ t) = lexemes spaces t := by
  induction s with
  | nil => rfl
  | cons c s ih =>
    have hscan : scan spaces (c :: s) = none := by
      cases hs : scan spaces (c :: s) with
      | none => rfl
      | some p =>
        rw [lexemes_of_scan_some hs] at h
        cases h
    have hskip (t : List Char) : scan spaces (c :: t) = scan spaces t := by
      rw [scan] at hscan ⊢
      split_ifs at hscan ⊢ <;> rfl
    rw [List.cons_append, lexemes_eq_of_scan_eq (hskip (s ++ t))]
    exact ih ((lexemes_eq_of_scan_eq (hskip s)).symm.trans h)

/-- Texts are read one after the other if the second does not go on with the last lexeme of the
first. -/
theorem lexemes_append (h : ∀ l ∈ (lexemes spaces s).getLast?, l.EndsBefore t) :
    lexemes spaces (s ++ t) = lexemes spaces s ++ lexemes spaces t := by
  induction hls : lexemes spaces s generalizing s with
  | nil => exact lexemes_append_of_nil hls t
  | cons l ls ih =>
    obtain ⟨r, hscan, hr⟩ := exists_scan_of_lexemes hls
    obtain ⟨hend, u, rfl, hu⟩ := exists_scan hscan
    have hfirst : r = [] → l.EndsBefore t := by
      rintro rfl
      obtain rfl : [] = ls := hr
      exact h l (by rw [hls]; rfl)
    have hrest : ∀ n ∈ (lexemes spaces r).getLast?, n.EndsBefore t := by
      intro n hn
      refine h n ?_
      rw [hls, List.getLast?_cons, ← hr, Option.mem_def.1 hn]
      rfl
    rw [List.append_assoc, lexemes_of_scan_some (hu _ (hend.append hfirst)), ih hrest hr]
    rfl

/-- A word is read as itself only in front of what does not go on with it. -/
theorem ends_of_lexemes_word_append {w : List Char} (hw : IsWord w)
    (h : lexemes spaces (w ++ t) = .word w :: ls) :
    t.head?.any isWordChar = false ∧ lexemes spaces t = ls := by
  have hend : t.head?.any isWordChar = false := by
    obtain ⟨hne, hall⟩ := hw
    obtain ⟨c, w, rfl⟩ := List.exists_cons_of_ne_nil hne
    obtain ⟨hc, hall⟩ : isWordChar c = true ∧ w.all isWordChar = true := by simpa using hall
    rw [List.cons_append, lexemes_word hc, List.takeWhile_append_of_pos (List.all_eq_true.1 hall)]
      at h
    have htake : t.takeWhile isWordChar = [] := by simpa using (List.cons.inj h).1
    cases t with
    | nil => rfl
    | cons d t =>
      by_contra hd
      rw [List.takeWhile_cons_of_pos (by simpa using hd)] at htake
      cases htake
  rw [lexemes_word_append hw hend] at h
  exact ⟨hend, (List.cons.inj h).2⟩

/-! ## Literals -/

/-- The lexeme is a literal. -/
def isLiteral : Lexeme → Bool
  | literal .. => true
  | _ => false

/-- What is no literal is plain. -/
theorem plain_of_not_literal (h : l.isLiteral = false) : l.Plain := by
  cases l with
  | literal quote content closed => cases h
  | _ => trivial

/-- A lexeme of more than one character that is no literal is a word. -/
theorem exists_eq_word (hl : l.isLiteral = false) (h : 1 < (text false l).length) :
    ∃ w, l = .word w := by
  cases l with
  | word w => exact ⟨w, rfl⟩
  | literal quote content closed => cases hl
  | space | mark => exact absurd h (by simp [text])

/-- Lexemes without a literal among them show all that they are. -/
theorem flatMap_text_of_not_literal (h : ∀ l ∈ ls, l.isLiteral = false) :
    ls.flatMap (text false) = ls.flatMap (text true) := by
  refine List.flatMap_congr fun l hl => ?_
  cases l with
  | literal quote content closed => cases h _ hl
  | _ => rfl

/-- A text has no literals exactly if it has no quotes. -/
theorem isLiteral_eq_false_iff :
    (∀ l ∈ lexemes spaces s, l.isLiteral = false) ↔ ∀ c ∈ s, isQuote c = false := by
  -- the characters of a run are no quotes
  have run {p : Char → Bool} (hp : ∀ c, p c = true → isQuote c = false) (cs : List Char) :
      (∀ c ∈ cs.dropWhile p, isQuote c = false) ↔ ∀ c ∈ cs, isQuote c = false := by
    have hrun : ∀ c ∈ cs.takeWhile p, isQuote c = false := fun c hc =>
      hp c (List.all_eq_true.1 List.all_takeWhile c hc)
    conv_rhs => rw [← List.takeWhile_append_dropWhile (p := p) (l := cs), List.forall_mem_append]
    exact ⟨fun h => ⟨hrun, h⟩, fun h => h.2⟩
  induction s using scan_induction with
  | nil => simp
  | layout c cs h ih =>
    have hc : isQuote c = false := by rcases isLayout_iff.1 h with rfl | rfl | rfl <;> rfl
    simpa [lexemes_layout h, hc] using ih
  | space cs ih =>
    have hspace : ∀ l ∈ (if spaces then [space] else []), l.isLiteral = false := by
      cases spaces <;> simp [isLiteral]
    have hrun := run (p := (· == ' ')) (fun c hc => by simp_all [isQuote]) cs
    rw [lexemes_space, List.forall_mem_append, List.forall_mem_cons]
    exact ⟨fun h => ⟨rfl, hrun.1 (ih.1 h.2)⟩, fun h => ⟨hspace, ih.2 (hrun.2 h.2)⟩⟩
  | literal quote cs h _ => simp [lexemes_quote h, isLiteral, h]
  | word c cs h ih =>
    have hquote : ∀ c, isWordChar c = true → isQuote c = false := fun c hc =>
      (kind_of_isWordChar hc).2.2
    rw [lexemes_word h, List.forall_mem_cons, List.forall_mem_cons]
    have hrun := run hquote cs
    exact ⟨fun hs => ⟨hquote c h, hrun.1 (ih.1 hs.2)⟩, fun hs => ⟨rfl, ih.2 (hrun.2 hs.2)⟩⟩
  | mark c cs h ih => simpa [lexemes_mark h, isLiteral, (isMark_iff.1 h).2.2.1] using ih

/-- A lexeme that a text without quotes can have. -/
structure Unquoted (l : Lexeme) : Prop where
  sound : l.Sound
  not_literal : l.isLiteral = false

/-- The text of a lexeme that is no literal has no quote in it. -/
theorem Unquoted.isQuote_eq_false {keepQuotes : Bool} {c : Char} (h : l.Unquoted)
    (hc : c ∈ text keepQuotes l) : isQuote c = false := by
  obtain ⟨hs, hl⟩ := h
  cases l with
  | space =>
    obtain rfl : c = ' ' := by simpa [text] using hc
    rfl
  | word w => exact (kind_of_isWordChar (List.all_eq_true.1 hs.2 c hc)).2.2
  | mark d =>
    obtain rfl : c = d := by simpa [text] using hc
    exact (isMark_iff.1 hs).2.2.1
  | literal quote content closed => cases hl

/-- Lexemes that a text without quotes can have are written without quotes. -/
theorem isQuote_of_mem_flatMap (h : ∀ l ∈ ls, l.Unquoted) :
    ∀ c ∈ ls.flatMap (text true), isQuote c = false := by
  intro c hc
  obtain ⟨l, hl, hc⟩ := List.mem_flatMap.1 hc
  exact (h l hl).isQuote_eq_false hc

/-- The lexeme is a literal without its second quote. -/
def isOpen : Lexeme → Bool
  | literal _ _ closed => !closed
  | _ => false

/-- What is no literal is no open literal. -/
theorem Unquoted.isOpen_eq_false (h : l.Unquoted) : l.isOpen = false := by
  obtain ⟨-, hl⟩ := h
  cases l with
  | literal => cases hl
  | _ => rfl

/-- A quote goes on with no lexeme but an open literal. -/
theorem endsBefore_quote (h : l.isOpen = false) (hq : isQuote quote = true) (t : List Char) :
    l.EndsBefore (quote :: t) := by
  cases l with
  | space => simpa [EndsBefore] using (kind_of_isQuote hq).2
  | word w =>
    have hw : ¬ isWordChar quote = true := fun hw => by simp [(kind_of_isWordChar hw).2.2] at hq
    simpa [EndsBefore] using hw
  | literal _ _ closed => exact fun hopen => by simp [isOpen, hopen] at h
  | mark => trivial

/-- A text without quotes has no literals. -/
theorem unquoted_of_mem_lexemes (hs : ∀ c ∈ s, isQuote c = false) :
    ∀ l ∈ lexemes spaces s, l.Unquoted := fun l hl =>
  ⟨sound_of_mem_lexemes s l hl, isLiteral_eq_false_iff.2 hs l hl⟩

/-- Lexemes without a literal among them are read as themselves exactly if no two words stand side
by side. -/
theorem lexemes_flatMap_text_iff (hs : ∀ l ∈ ls, l.Unquoted) :
    lexemes false (ls.flatMap (text true)) = ls.filter (· != .space) ↔
      ls.IsChain (Apart false) := by
  constructor
  · intro h
    induction ls with
    | nil => exact .nil
    | cons l ls ih =>
      obtain ⟨⟨hsound, hliteral⟩, hrests⟩ := List.forall_mem_cons.1 hs
      have ih := ih hrests
      rw [List.flatMap_cons] at h
      cases l with
      | literal quote content closed => cases hliteral
      | space =>
        change lexemes false (' ' :: ls.flatMap (text true)) = _ at h
        rw [lexemes_false_space] at h
        refine List.isChain_cons.2 ⟨fun n _ => ?_, ih h⟩
        cases n <;> trivial
      | mark c =>
        change lexemes false (c :: ls.flatMap (text true)) = _ at h
        rw [lexemes_mark hsound] at h
        exact List.isChain_cons.2 ⟨fun _ _ => trivial, ih (List.cons.inj h).2⟩
      | word w =>
        obtain ⟨hend, hrest⟩ := ends_of_lexemes_word_append hsound h
        refine List.isChain_cons.2 ⟨fun n hn => ?_, ih hrest⟩
        cases n with
        | word v =>
          obtain ⟨ns, rfl⟩ : ∃ ns, ls = .word v :: ns := List.head?_eq_some_iff.1 hn
          obtain ⟨hne, hv⟩ : IsWord v := (hrests _ List.mem_cons_self).sound
          obtain ⟨c, v, rfl⟩ := List.exists_cons_of_ne_nil hne
          have hc : isWordChar c = true := List.all_eq_true.1 hv c List.mem_cons_self
          exact absurd hend (by simp [text, hc])
        | _ => trivial
  · intro hc
    have hplain : ∀ l ∈ ls, l.Plain := fun l hl => plain_of_not_literal (hs l hl).not_literal
    simpa using lexemes_flatMap_text (fun l hl => (hs l hl).sound) hplain hc

/-- What stands in front of a literal, the literal, and what follows it are read on their own. -/
theorem lexemes_around_literal {content : List Char} (hs : ∀ l ∈ ls, l.Unquoted)
    (hq : isQuote quote = true) (hp : (literal quote content true).Plain) :
    lexemes spaces (ls.flatMap (text true) ++ (text true (.literal quote content true) ++ t)) =
      lexemes spaces (ls.flatMap (text true)) ++
        .literal quote content true :: lexemes spaces t := by
  have hread : ∀ l ∈ lexemes spaces (ls.flatMap (text true)), l.Unquoted :=
    unquoted_of_mem_lexemes (isQuote_of_mem_flatMap hs)
  rw [lexemes_append, lexemes_literal_append hq hp nofun]
  intro l hl
  exact endsBefore_quote (hread l (List.mem_of_getLast? hl)).isOpen_eq_false hq _

/-- Nothing follows an open literal. -/
theorem eq_nil_of_open {content : List Char} {as bs : List Lexeme}
    (h : lexemes spaces s = as ++ .literal quote content false :: bs) : bs = [] := by
  obtain ⟨x, y, -, -, hy⟩ := exists_append_of_lexemes h
  obtain ⟨r, hscan, rfl⟩ := exists_scan_of_lexemes hy
  obtain rfl : r = [] := (exists_scan hscan).1 rfl
  rfl

/-- A content in quotes is read as a literal of that content, and what stands around it on its own,
exactly if no literal is open in front of it and the content has neither a backslash nor the
quote. -/
theorem lexemes_around_quoted_iff {before content after : List Char} (hq : isQuote quote = true) :
    lexemes spaces (before ++ quote :: (content ++ quote :: after)) =
        lexemes spaces before ++ .literal quote content true :: lexemes spaces after ↔
      (∀ l ∈ lexemes spaces before, l.isOpen = false) ∧
        ∀ c ∈ content, c ≠ '\\' ∧ c ≠ quote := by
  have hcut (hopen : ∀ l ∈ lexemes spaces before, l.isOpen = false) :
      lexemes spaces (before ++ quote :: (content ++ quote :: after)) =
        lexemes spaces before ++ lexemes spaces (quote :: (content ++ quote :: after)) :=
    lexemes_append fun l hl => endsBefore_quote (hopen l (List.mem_of_getLast? hl)) hq _
  constructor
  · intro h
    have hopen : ∀ l ∈ lexemes spaces before, l.isOpen = false := by
      intro l hl
      obtain ⟨as, bs, has⟩ := List.append_of_mem hl
      rw [has, List.append_assoc] at h
      cases l with
      | literal q c closed =>
        cases closed with
        | true => rfl
        | false => exact absurd (eq_nil_of_open h) (by simp)
      | _ => rfl
    refine ⟨hopen, ?_⟩
    rw [hcut hopen, lexemes_quote hq] at h
    obtain ⟨hliteral, -⟩ := List.cons.inj (List.append_cancel_left h)
    have hcontent : (scanLiteral quote (content.map id ++ quote :: after)).1 = content := by
      rw [List.map_id]
      exact (Lexeme.literal.inj hliteral).2.1
    exact Copies.of_scanLiteral ⟨hq, rfl, fun _ => .inl rfl⟩ (by simp) hcontent
  · rintro ⟨hopen, hcontent⟩
    rw [hcut hopen, lexemes_quote hq, (decodes_self hcontent).scanLiteral_closed hq]

/-! ## Characters -/

/-- Without escapes a literal contains what was written, and not its own quote. -/
theorem mem_of_mem_scanLiteral {c : Char} (hs : '\\' ∉ s) (hc : c ∈ (scanLiteral quote s).1) :
    c ∈ s ∧ c ≠ quote := by
  fun_induction scanLiteral quote s with
  | case1 | case2 | case4 => cases hc
  | case3 => exact absurd List.mem_cons_self hs
  | case5 d s _ hquote content closed rest hrest ih =>
    rw [hrest] at ih
    rcases List.mem_cons.1 hc with rfl | hc
    · exact ⟨List.mem_cons_self, hquote⟩
    · obtain ⟨hmem, hne⟩ := ih (fun h => hs (List.mem_cons_of_mem d h)) hc
      exact ⟨List.mem_cons_of_mem d hmem, hne⟩

/-- Without escapes the first lexeme shows characters of the text, a literal none that ends it. -/
theorem mem_of_scan {r : List Char} (hs : '\\' ∉ s) (h : scan spaces s = some (l, r)) :
    (∀ c ∈ text false l, c ∈ s) ∧
      ∀ quote content closed, l = .literal quote content closed → quote ∉ content := by
  induction s with
  | nil => cases h
  | cons c s ih =>
    obtain ⟨-, htail⟩ : '\\' ≠ c ∧ '\\' ∉ s := by simpa using hs
    have tail {P : Prop} (h : (∀ c ∈ text false l, c ∈ s) ∧ P) :
        (∀ d ∈ text false l, d ∈ c :: s) ∧ P :=
      ⟨fun d hd => List.mem_cons_of_mem c (h.1 d hd), h.2⟩
    rw [scan] at h
    split at h
    · exact tail (ih htail h)
    split at h
    · next hspace =>
      split at h
      · obtain ⟨rfl, -⟩ := by simpa using h
        exact ⟨by simp [text, hspace], by simp⟩
      · exact tail (ih htail h)
    split at h
    · obtain ⟨rfl, -⟩ := by simpa using h
      refine ⟨fun d hd => List.mem_cons_of_mem c (mem_of_mem_scanLiteral htail hd).1, ?_⟩
      rintro _ _ _ ⟨⟩ hmem
      exact (mem_of_mem_scanLiteral htail hmem).2 rfl
    split at h
    · obtain ⟨rfl, -⟩ := by simpa using h
      refine ⟨fun d hd => ?_, by simp⟩
      exact List.cons_subset_cons c (List.takeWhile_prefix isWordChar).subset hd
    · obtain ⟨rfl, -⟩ := by simpa using h
      exact ⟨by simp [text], by simp⟩

/-- Without escapes the lexemes of a text show characters of the text. -/
theorem mem_of_mem_lexemes (hs : '\\' ∉ s) (hl : l ∈ lexemes spaces s) :
    (∀ c ∈ text false l, c ∈ s) ∧
      ∀ quote content closed, l = .literal quote content closed → quote ∉ content := by
  obtain ⟨as, bs, has⟩ := List.append_of_mem hl
  obtain ⟨x, y, rfl, -, hy⟩ := exists_append_of_lexemes has
  obtain ⟨r, hscan, -⟩ := exists_scan_of_lexemes hy
  have hmem := mem_of_scan (fun h => hs (List.mem_append_right x h)) hscan
  exact ⟨fun c hc => List.mem_append_right x (hmem.1 c hc), hmem.2⟩

end Lexeme

end TableShell
