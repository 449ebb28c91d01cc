import Mathlib.Algebra.Order.BigOperators.Group.List
import Mathlib.Algebra.Order.Group.Nat
import TableShell.Proofs.Query.Parts

/-!
# How the projection of a SELECT is sent

What a SELECT asks for stands between its verb and FROM. It is read before quotes are kept, so a
literal in it is sent without its quotes, and a literal that contains the word ends the projection
as FROM does. The projection is sent as it was typed exactly if there is no literal in it
(`Query.projection_verbatim_iff`).
-/

namespace TableShell

namespace Lexeme

variable {l : Lexeme} {ls : List Lexeme} {s : List Char}

/-! ## Texts as they were typed -/

/-- The rest of a text without layout and with one space for each run of them. Nothing is changed
inside literals. -/
def squeezeFrom : Place → List Char → List Char
  | _, [] => []
  | .inside quote, c :: cs =>
    if c = '\\' then
      match cs with
      | [] => [c]
      | e :: cs => c :: e :: squeezeFrom (.inside quote) cs
    else if c = quote then c :: squeezeFrom .outside cs
    else c :: squeezeFrom (.inside quote) cs
  | place, c :: cs =>
    if isLayout c then squeezeFrom .outside cs
    else if c = ' ' then
      if place = .spaced then squeezeFrom .spaced cs else ' ' :: squeezeFrom .spaced cs
    else if isQuote c then c :: squeezeFrom (.inside c) cs
    else c :: squeezeFrom .outside cs

/-- A text without layout and with one space for each run of them, outside of literals. -/
def squeeze (s : List Char) : List Char := squeezeFrom .outside s

/-- A tidy text is no longer than it was typed: an escape has become one character. -/
theorem length_tidyFrom_le (place : Place) (s : List Char) :
    (tidyFrom place s).length ≤ (squeezeFrom place s).length := by
  fun_induction squeezeFrom place s with
  | case1 => simp [tidyFrom]
  | case2 quote => simp [tidyFrom]
  | case3 quote e cs ih => simpa [tidyFrom] using Nat.le_succ_of_le ih
  | case4 quote cs hescape ih =>
    rw [tidyFrom.eq_def]
    simpa [hescape] using ih
  | case5 quote c cs hescape hquote ih =>
    rw [tidyFrom.eq_def]
    simpa [hescape, hquote] using ih
  | case6 place c cs hplace hl ih => simpa [tidyFrom, hl] using ih
  | case7 cs hplace hl ih => simpa [tidyFrom, hl] using ih
  | case8 place cs hplace hl hs ih => simpa [tidyFrom, hl, hs] using ih
  | case9 place c cs hplace hl hs hq ih => simpa [tidyFrom, hl, hs, hq] using ih
  | case10 place c cs hplace hl hs hq ih => simpa [tidyFrom, hl, hs, hq] using ih

/-- Where there is no literal, there is no escape. -/
theorem squeeze_eq_tidy (hs : ∀ c ∈ s, isQuote c = false) : squeeze s = tidy s := by
  suffices h : squeezeFrom .outside s = tidyFrom .outside s ∧
      squeezeFrom .spaced s = tidyFrom .spaced s from h.1
  induction s with
  | nil => exact ⟨rfl, rfl⟩
  | cons c s ih =>
    obtain ⟨hc, hs⟩ := List.forall_mem_cons.1 hs
    obtain ⟨houtside, hspaced⟩ := ih hs
    simp [squeezeFrom, tidyFrom, hc, houtside, hspaced]

/-! ## Quotes that are not shown -/

/-- A literal with its quotes is longer than its content by the first quote, and by the second if it
has one. -/
theorem length_text_literal (quote : Char) (content : List Char) (closed : Bool) :
    (text true (.literal quote content closed)).length = content.length + 1 + closed.toNat := by
  cases closed <;> simp [text]

/-- A lexeme is not longer without its quotes. -/
theorem length_text_false_le (l : Lexeme) : (text false l).length ≤ (text true l).length := by
  cases l with
  | literal quote content closed =>
    rw [length_text_literal]
    change content.length ≤ _
    omega
  | _ => exact Nat.le_refl _

/-- A literal is shorter without its quotes. -/
theorem length_text_false_lt (h : l.isLiteral = true) :
    (text false l).length < (text true l).length := by
  cases l with
  | literal quote content closed =>
    rw [length_text_literal]
    change content.length < _
    omega
  | _ => cases h

/-- Lexemes that show no quotes are shorter if there is a literal among them. -/
theorem length_flatMap_text_lt (h : ∃ l ∈ ls, l.isLiteral = true) :
    (ls.flatMap (text false)).length < (ls.flatMap (text true)).length := by
  obtain ⟨l, hl, hliteral⟩ := h
  rw [List.length_flatMap, List.length_flatMap]
  exact List.sum_lt_sum _ _ (fun n _ => length_text_false_le n)
    ⟨l, hl, length_text_false_lt hliteral⟩

end Lexeme

namespace Query

open Lexeme

variable {source : String} {query : Query} {p : Parts}

/-! ## Projections -/

/-- The letters spell FROM, capital or small. -/
def SpellsFrom (w : List Char) : Prop := Text.sameLetters (String.ofList w) "FROM" = true

/-- The projection is sent as it was typed: the FROM that ends it is the first one behind the verb
and outside of literals, and its text is the typed one, outside of literals with one space for each
run of them and without layout. -/
structure Verbatim (projection : List Char) (sent : String) : Prop where
  ends_at_from : ∃ verb head w, lexemes true projection = verb :: (head ++ [.word w]) ∧
    SpellsFrom w ∧ ∀ v, .word v ∈ head → ¬ SpellsFrom v
  text_eq : sent.toList = squeeze projection

/-- The text of the projection in its source: in front of it stands what is skipped, behind it the
space in front of the table. The text is cut where lexemes end. -/
structure ProjectionAt (source : String) (p : Parts) (before projection after : List Char) :
    Prop where
  source_eq : source.toList = before ++ projection ++ after
  cut : lexemes true source.toList =
    lexemes true before ++ lexemes true projection ++ lexemes true after
  skipped : ∀ l ∈ lexemes true before, bare l = spaceToken
  lexemes_eq : lexemes true projection = p.verb :: p.lead

/-- Every SELECT of the accepted form has a projection between its verb and FROM. -/
theorem exists_projectionAt (hp : p.Of source .select) :
    ∃ before projection after, ProjectionAt source p before projection after := by
  obtain ⟨before, rest, hsource, hbefore, hrest⟩ :=
    exists_append_of_lexemes (List.takeWhile_append_dropWhile (p := (bare · == spaceToken))).symm
  have hverb : lexemes true rest = (p.verb :: p.lead) ++ p.sep :: (p.table ++ (p.link ++ p.rest)) :=
    hrest.trans hp.lexemesOf_eq
  obtain ⟨projection, after, rfl, hprojection, hafter⟩ := exists_append_of_lexemes hverb
  refine ⟨before, projection, after, by simpa using hsource, ?_, fun l hl => ?_, hprojection⟩
  · rw [hprojection, hafter, List.append_assoc, ← hverb, hbefore, hrest,
      List.takeWhile_append_dropWhile]
  · rw [hbefore] at hl
    simpa using List.all_eq_true.1 List.all_takeWhile l hl

/-- The keyword that ends a projection without literals is a word. -/
theorem Parts.Fits.ends_at_from (h : p.Fits .select)
    (hl : ∀ l ∈ p.lead, l.isLiteral = false) :
    ∃ head w, p.lead = head ++ [.word w] ∧ SpellsFrom w ∧ ∀ v, .word v ∈ head → ¬ SpellsFrom v := by
  cases h with
  | @select verb keyword sep first head path rest hhead hkeyword _ _ _ =>
    have hlength : 1 < (text false keyword).length := by
      have hletters : (text false keyword).map Char.toUpper = "FROM".toList.map Char.toUpper := by
        simpa [Text.sameLetters] using hkeyword
      rw [← List.length_map (f := Char.toUpper), hletters]
      decide +kernel
    obtain ⟨w, rfl⟩ := exists_eq_word (hl keyword (by simp)) hlength
    refine ⟨head, w, rfl, hkeyword, fun v hv => ?_⟩
    have hbare : bare (.word v) = String.ofList v := rfl
    rw [SpellsFrom, Bool.not_eq_true, ← hbare]
    exact hhead _ hv

/-- The projection of an accepted SELECT is sent as it was typed exactly if there is no literal in
it. What is sent are the contents of its lexemes, up to the first one, word or literal, that spells
FROM. -/
theorem projection_verbatim_iff (hp : p.Of source .select) (h : ofSource source = .ok query) :
    ∃ before projection after, ProjectionAt source p before projection after ∧
      (∃ out, query.statement =
        written (p.verb :: p.lead) ++ " " ++ quoted (written p.table) ++ out) ∧
      (Verbatim projection (written (p.verb :: p.lead)) ↔
        ∀ l ∈ lexemes true projection, l.isLiteral = false) := by
  obtain ⟨before, projection, after, hcut⟩ := exists_projectionAt hp
  refine ⟨before, projection, after, hcut, ?_, fun hverbatim => ?_, fun hl => ?_⟩
  · obtain ⟨out, -, hout⟩ := hp.ofSource_eq_ok_iff.1 h
    exact ⟨written (sentLink p.link) ++ out, by rw [hout, Parts.front, String.append_assoc]⟩
  · -- quotes that are not shown make the text shorter than it was typed
    by_contra hliteral
    have hliteral : ∃ l ∈ lexemes true projection, l.isLiteral = true := by simpa using hliteral
    have hlt := length_flatMap_text_lt hliteral
    rw [flatMap_text_lexemes, tidy] at hlt
    have hle := length_tidyFrom_le .outside projection
    have heq : (lexemes true projection).flatMap (text false) = squeeze projection := by
      rw [hcut.lexemes_eq, ← hverbatim.text_eq, written, String.toList_ofList]
    rw [heq, squeeze] at hlt
    omega
  · constructor
    · have hlead : ∀ l ∈ p.lead, l.isLiteral = false := fun l hmem =>
        hl l (hcut.lexemes_eq ▸ List.mem_cons_of_mem p.verb hmem)
      obtain ⟨head, w, hw, hfrom, hhead⟩ := hp.fits.ends_at_from hlead
      exact ⟨p.verb, head, w, by rw [hcut.lexemes_eq, hw], hfrom, hhead⟩
    · have htext : (lexemes true projection).flatMap (text false) = tidy projection := by
        rw [← flatMap_text_lexemes]
        exact flatMap_text_of_not_literal hl
      rw [squeeze_eq_tidy (isLiteral_eq_false_iff.1 hl), ← htext, hcut.lexemes_eq, written,
        String.toList_ofList]

/-- A quoted name in a projection is sent as two words. -/
theorem projection_verbatim_iff_quoted_name :
    let source := "SELECT \"a b\" FROM t;"
    let p : Parts := ⟨.word "SELECT".toList,
      [.space, .literal '"' "a b".toList true, .space] ++ [.word "FROM".toList], .space,
      [.word ['t']], [], [.mark ';']⟩
    p.Of source .select ∧ ofSource source = .ok ⟨"SELECT a b FROM \"t\" ;", none⟩ ∧
      ∃ before projection after, ProjectionAt source p before projection after ∧
        ¬ Verbatim projection (written (p.verb :: p.lead)) := by
  intro source p
  have hp : p.Of source .select := by
    refine ⟨by decide +kernel, by decide +kernel, ?_⟩
    refine .select ?_ ?_ ?_ trivial ?_ <;> decide +kernel
  have haccepted : ofSource source = .ok ⟨"SELECT a b FROM \"t\" ;", none⟩ :=
    eq_ok_of_toOption (by decide +kernel)
  obtain ⟨before, projection, after, hcut, -, hiff⟩ := projection_verbatim_iff hp haccepted
  refine ⟨hp, haccepted, before, projection, after, hcut, fun hverbatim => ?_⟩
  have hliteral : .literal '"' "a b".toList true ∈ lexemes true projection := by
    rw [hcut.lexemes_eq]
    simp [p]
  cases hiff.1 hverbatim _ hliteral

end Query

end TableShell
