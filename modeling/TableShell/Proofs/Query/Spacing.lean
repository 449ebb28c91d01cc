import Mathlib.Data.List.Basic
import TableShell.Proofs.Query.Parts

/-!
# Words that run together

Of what separates the words of a statement only spaces are sent; tab, carriage return and line feed
are left out. Two words with nothing else between them are therefore sent as one, and a table that
starts after other layout than a space is sent as that space. A reader of what is sent for a
statement without quotes finds what was typed exactly if neither happens (`Query.lexemes_kept_iff`).
-/

namespace TableShell

namespace Query

open Lexeme

variable {source : String} {subject : Subject} {query : Query} {p : Parts}

/-- The lexemes of a statement as they are found in its source, without spaces. -/
def Parts.typed (p : Parts) : List Lexeme :=
  (p.verb :: p.lead).filter (· != .space) ++ (p.table.filter (· != .space) ++
    (p.link.filter (· != .space) ++ p.rest.filter (· != .space)))

/-- The lexemes of a statement as they should be found in what is sent for it, without spaces: the
table is one literal in double quotes, the keyword of an INSERT is VALUE, and the limits are
gone. -/
def Parts.kept (subject : Subject) (p : Parts) : List Lexeme :=
  (p.verb :: p.lead).filter (· != .space) ++
    .literal '"' ((p.table.filter (· != .space)).flatMap (Lexeme.text false)) true ::
      ((sentLink p.link).filter (· != .space) ++ valueArea subject p.rest)

/-- Nothing in the statement runs together: no two words stand side by side in front of the table or
after it, once the limits are gone, and no space is taken for the table or for a segment of it. -/
structure Parts.Separate (subject : Subject) (p : Parts) : Prop where
  lead : (p.verb :: p.lead).IsChain (Apart false)
  table : .space ∉ p.table
  rest : (sentLink p.link ++ copied subject p.rest).IsChain (Apart false)

/-- A space at the end changes nothing for a reader without spaces. -/
theorem isChain_append_space {ls : List Lexeme} (hs : ∀ l ∈ ls, l.Unquoted) :
    (ls ++ [Lexeme.space]).IsChain (Apart false) ↔ ls.IsChain (Apart false) := by
  rw [List.isChain_append]
  refine ⟨fun h => h.1, fun h => ⟨h, .singleton _, fun l hlast n hn => ?_⟩⟩
  obtain rfl : Lexeme.space = n := by simpa using hn
  have hl := (hs l (List.mem_of_getLast? hlast)).not_literal
  cases l with
  | literal quote content closed => cases hl
  | space | word | mark => trivial

/-- A space is as long as it is. -/
theorem length_flatMap_filter (ls : List Lexeme) :
    (ls.flatMap (Lexeme.text false)).length =
      ((ls.filter (· != .space)).flatMap (Lexeme.text false)).length + ls.count .space := by
  induction ls with
  | nil => rfl
  | cons l ls ih =>
    by_cases hl : l = .space
    · subst hl
      rw [List.filter_cons_of_neg (by simp), List.flatMap_cons, List.length_append, ih,
        List.count_cons_self]
      simp only [Lexeme.text, List.length_singleton]
      omega
    · rw [List.filter_cons_of_pos (by simpa using hl), List.flatMap_cons, List.flatMap_cons,
        List.length_append, List.length_append, ih, List.count_cons_of_ne hl, Nat.add_assoc]

/-- Lexemes without the spaces show the same text only if there are none. -/
theorem flatMap_filter_eq_iff {ls : List Lexeme} :
    (ls.filter (· != .space)).flatMap (Lexeme.text false) = ls.flatMap (Lexeme.text false) ↔
      .space ∉ ls := by
  constructor
  · intro h
    have hlength := length_flatMap_filter ls
    rw [h] at hlength
    exact List.count_eq_zero.1 (by omega)
  · intro h
    rw [List.filter_eq_self.2]
    intro l hl
    have hne : l ≠ .space := fun hspace => h (hspace ▸ hl)
    simpa using hne

/-! ## What is sent -/

/-- In a source without quotes no part has a quote. -/
structure Parts.Unquoted (subject : Subject) (p : Parts) : Prop where
  lead : ∀ l ∈ p.verb :: p.lead, l.Unquoted
  rest : ∀ l ∈ p.rest, l.Unquoted
  after : ∀ l ∈ sentLink p.link ++ copied subject p.rest, l.Unquoted

/-- The parts of a statement without quotes have no literals. -/
theorem Parts.Of.unquoted (hp : p.Of source subject)
    (hs : ∀ c ∈ source.toList, isQuote c = false) : p.Unquoted subject := by
  have hall : ∀ l ∈ p.verb :: p.tail, l.Unquoted := fun l hl =>
    unquoted_of_mem_lexemes hs l (hp.suffix.subset hl)
  have hrest : ∀ l ∈ p.rest, l.Unquoted := fun l hl => hall l (p.rest_suffix.subset hl)
  refine ⟨fun l hl => hall l (p.lead_subset hl), hrest, fun l hl => ?_⟩
  rcases List.mem_append.1 hl with hl | hl
  · exact ⟨hp.fits.sound_sentLink l hl, isLiteral_of_mem_sentLink hl⟩
  · rcases mem_copied hl with rfl | hl
    · exact ⟨trivial, rfl⟩
    · exact hrest l hl

/-- The parts of a source without quotes are all that a reader finds in it. -/
theorem Parts.Of.lexemes_source (hp : p.Of source subject)
    (hs : ∀ c ∈ source.toList, isQuote c = false) : lexemes false source.toList = p.typed := by
  have hall : ∀ l ∈ lexemes true source.toList, l.Unquoted := unquoted_of_mem_lexemes hs
  -- what shows a space is one
  have hspace {l : Lexeme} (hl : l ∈ lexemes true source.toList) (hbare : bare l = spaceToken) :
      l = .space := by
    refine eq_space_of_bare (hall l hl).sound (fun quote content closed hliteral => ?_) hbare
    subst hliteral
    cases (hall _ hl).not_literal
  have hsep : p.sep = .space :=
    hspace (hp.suffix.subset (by simp [Parts.tail])) hp.fits.bare_sep
  have hskipped : ((lexemes true source.toList).takeWhile (bare · == spaceToken)).filter
      (· != .space) = [] := by
    refine List.filter_eq_nil_iff.2 fun l hl => ?_
    have hbare : bare l = spaceToken := by
      simpa using List.all_eq_true.1 List.all_takeWhile l hl
    simp [hspace ((List.takeWhile_prefix _).subset hl) hbare]
  have hlexemes : (lexemes true source.toList).dropWhile (bare · == spaceToken) =
      p.verb :: p.tail := hp.lexemesOf_eq
  have htail : (p.verb :: p.tail).filter (· != .space) = p.typed := by
    rw [Parts.tail, hsep, ← List.cons_append, List.filter_append]
    simp [Parts.typed]
  rw [lexemes_false, ← List.takeWhile_append_dropWhile (p := (bare · == spaceToken))
    (l := lexemes true source.toList), List.filter_append, hskipped, hlexemes, htail]
  rfl

/-- What is sent for a source without quotes: the lexemes in front of the table and a space, the
table as one literal, and the lexemes after it. -/
theorem toList_statement (hp : p.Of source subject) (h : ofSource source = .ok query)
    (hs : p.Unquoted subject) :
    query.statement.toList =
      (p.verb :: p.lead ++ [Lexeme.space]).flatMap (Lexeme.text true) ++
        (Lexeme.text true (.literal '"' (p.table.flatMap (Lexeme.text false)) true) ++
          (sentLink p.link ++ copied subject p.rest).flatMap (Lexeme.text true)) := by
  obtain ⟨out, hf, hout⟩ := hp.ofSource_eq_ok_iff.1 h
  have hcopied : out = copyRest (copied subject p.rest) := by
    refine eq_copyRest_copied hf (fun l hl => (hs.rest l hl).sound) ?_
    intro _ quote content closed hfirst
    cases (hs.rest _ (List.mem_of_head? hfirst)).not_literal
  have hcopy : (copyRest (copied subject p.rest)).toList =
      (copied subject p.rest).flatMap (Lexeme.text true) := by
    rw [toList_copyRest, map_toSingle (isQuote_of_mem_flatMap fun l hl => ?_)]
    exact hs.after l (List.mem_append_right _ hl)
  rw [hout, hcopied, String.toList_append, hcopy,
    Parts.toList_front fun l hl => (hs.lead l hl).not_literal, Parts.sentFront]
  simp

/-- Where there are no quotes, no literal is found. -/
theorem literal_notMem_lexemes {spaces : Bool} {ls : List Lexeme} (hs : ∀ l ∈ ls, l.Unquoted)
    (quote : Char) (content : List Char) (closed : Bool) :
    .literal quote content closed ∉ lexemes spaces (ls.flatMap (Lexeme.text true)) := fun hmem => by
  cases (unquoted_of_mem_lexemes (isQuote_of_mem_flatMap hs) _ hmem).not_literal

/-- A reader of an accepted statement without quotes and backslashes finds its parts. In what is
sent for it, a reader finds the same lexemes, with the table as one literal, the keyword VALUE and
without the limits, exactly if nothing in the statement runs together. -/
theorem lexemes_kept_iff (hp : p.Of source subject) (h : ofSource source = .ok query)
    (hs : ∀ c ∈ source.toList, isQuote c = false ∧ c ≠ '\\') :
    lexemes false source.toList = p.typed ∧
      (lexemes false query.statement.toList = p.kept subject ↔ p.Separate subject) := by
  have hquote : ∀ c ∈ source.toList, isQuote c = false := fun c hc => (hs c hc).1
  have hunquoted := hp.unquoted hquote
  have hlead : ∀ l ∈ p.verb :: p.lead ++ [Lexeme.space], l.Unquoted :=
    List.forall_mem_append.2 ⟨hunquoted.lead, List.forall_mem_singleton.2 ⟨trivial, rfl⟩⟩
  have hplain : (Lexeme.literal '"' (p.table.flatMap (Lexeme.text false)) true).Plain := by
    have hescape : '\\' ∉ source.toList := fun hc => (hs _ hc).2 rfl
    refine Parts.plain_table fun l hl c hc => ?_
    have hmem := hp.suffix.subset (p.table_subset hl)
    exact (hs c ((mem_of_mem_lexemes hescape hmem).1 c hc)).symm
  have hfront : (p.verb :: p.lead).filter (· != .space) =
      (p.verb :: p.lead ++ [Lexeme.space]).filter (· != .space) := by
    rw [List.filter_append]
    simp
  have hafter : (sentLink p.link).filter (· != .space) ++ valueArea subject p.rest =
      (sentLink p.link ++ copied subject p.rest).filter (· != .space) := by
    rw [List.filter_append, filter_copied]
  have htable : Lexeme.literal '"' (p.table.flatMap (Lexeme.text false)) true =
      .literal '"' ((p.table.filter (· != .space)).flatMap (Lexeme.text false)) true ↔
        .space ∉ p.table := by
    rw [← flatMap_filter_eq_iff, eq_comm]
    simp
  refine ⟨hp.lexemes_source hquote, ?_⟩
  -- the literal of the table is the only one, so the pieces around it can be compared
  rw [toList_statement hp h hunquoted, lexemes_around_literal hlead rfl hplain, Parts.kept, hfront,
    hafter, List.append_cons_inj_of_notMem (literal_notMem_lexemes hlead _ _ _)
      (literal_notMem_lexemes hunquoted.after _ _ _), lexemes_flatMap_text_iff hlead,
    lexemes_flatMap_text_iff hunquoted.after, isChain_append_space hunquoted.lead, htable]
  exact ⟨fun ⟨hlead, htable, hrest⟩ => ⟨hlead, htable, hrest⟩,
    fun ⟨hlead, htable, hrest⟩ => ⟨hlead, htable, hrest⟩⟩

/-- Two words with a tab between them are sent as one. -/
theorem lexemes_kept_iff_tab :
    let source := "UPDATE t SET a=1\tREMOVE b;"
    let query : Query := ⟨"UPDATE \"t\" SET a=1REMOVE b;", none⟩
    let p : Parts := ⟨.word "UPDATE".toList, [], .space, [.word ['t']], [],
      [.space, .word "SET".toList, .space, .word ['a'], .mark '=', .word ['1'],
        .word "REMOVE".toList, .space, .word ['b'], .mark ';']⟩
    p.Of source .update ∧ ofSource source = .ok query ∧
      (∀ c ∈ source.toList, isQuote c = false ∧ c ≠ '\\') ∧
      lexemes false query.statement.toList ≠ p.kept .update := by
  intro source query p
  have hp : p.Of source .update := ⟨by decide +kernel, by decide +kernel, .update rfl⟩
  have haccepted : ofSource source = .ok query := eq_ok_of_toOption (by decide +kernel)
  have hplain : ∀ c ∈ source.toList, isQuote c = false ∧ c ≠ '\\' := by
    have hall : source.toList.all (fun c => !isQuote c && c != '\\') = true := by decide +kernel
    simpa using hall
  refine ⟨hp, haccepted, hplain, fun hkept => ?_⟩
  have hrest := ((lexemes_kept_iff hp haccepted hplain).2.1 hkept).rest
  -- the two words stand side by side
  have hwords : Apart false (.word ['1']) (.word "REMOVE".toList) :=
    (List.isChain_cons.1 (hrest.drop 5)).1 _ rfl
  exact hwords

end Query

end TableShell
