import TableShell.Proofs.Query.Parts

/-!
# The table of a statement

A statement is accepted whatever lexeme stands where its table has to: a space or a mark is put in
double quotes as a name is, and the content of a name is put there without escapes. A statement has
a real table, which a reader finds in what is sent as one literal of the same name, exactly if its
table is made up of names, none of them contains a double quote or a backslash, and what is sent in
front of it leaves no literal open (`Query.real_table_iff`).
-/

namespace TableShell

namespace Lexeme

/-- A word or a literal. -/
def isName : Lexeme → Bool
  | word _ | literal .. => true
  | space | mark _ => false

end Lexeme

namespace Query

open Lexeme

variable {source : String} {subject : Subject} {query : Query} {p : Parts}

/-! ## Segments and dots -/

/-- Words and literals with dots between them. -/
def IsDotted : List Lexeme → Prop
  | [] => False
  | [l] => l.isName = true
  | l :: dot :: ls => l.isName = true ∧ dot = .mark '.' ∧ IsDotted ls

/-- The lexemes that stand where a table has its segments. -/
def segments : List Lexeme → List Lexeme
  | [] => []
  | [l] => [l]
  | l :: _ :: ls => l :: segments ls

/-- The lexemes that stand where a table has its dots. -/
def dots : List Lexeme → List Lexeme
  | _ :: dot :: ls => dot :: dots ls
  | _ => []

/-- A lexeme that shows a dot is one, or a literal. -/
theorem eq_mark_of_bare {l : Lexeme} (hs : l.Sound) (h : bare l = ".") :
    l = .mark '.' ↔ l.isLiteral = false := by
  have htext : Lexeme.text false l = ['.'] := by
    rw [← toList_token, show l.token false = "." from h]
    rfl
  cases l with
  | space => cases htext
  | word w =>
    have hw : isWordChar '.' = true := List.all_eq_true.1 hs.2 '.' (by
      rw [show w = ['.'] from htext]
      exact List.mem_cons_self)
    cases hw
  | literal => simp [isLiteral]
  | mark c =>
    obtain rfl : c = '.' := by simpa [Lexeme.text] using htext
    simp [isLiteral]

/-- What stands where a table has its segments decides whether it is made up of names, unless a dot
is quoted. -/
theorem isDotted_iff {first : Lexeme} {path : List Lexeme} (hpath : IsPath path)
    (hs : ∀ l ∈ path, l.Sound) :
    IsDotted (first :: path) ↔
      (∀ l ∈ segments (first :: path), l.isName = true) ∧
        ∀ l ∈ dots (first :: path), l.isLiteral = false := by
  fun_induction IsPath path generalizing first with
  | case1 => simp [IsDotted, segments, dots]
  | case2 => exact hpath.elim
  | case3 dot segment path ih =>
    obtain ⟨hdot, hpath⟩ := hpath
    obtain ⟨hsdot, hs⟩ := List.forall_mem_cons.1 hs
    have ih : IsDotted (segment :: path) ↔ _ := ih hpath (List.forall_mem_cons.1 hs).2
    simp only [IsDotted, segments, dots, List.forall_mem_cons, ih, eq_mark_of_bare hsdot hdot]
    constructor
    · rintro ⟨hfirst, hdot, hsegments, hdots⟩
      exact ⟨⟨hfirst, hsegments⟩, hdot, hdots⟩
    · rintro ⟨⟨hfirst, hsegments⟩, hdot, hdots⟩
      exact ⟨hfirst, hdot, hsegments, hdots⟩

/-- The table of parts that fit is a first lexeme and a path. -/
theorem Parts.Fits.exists_table (h : p.Fits subject) :
    ∃ first path, p.table = first :: path ∧ IsPath path := by
  cases h with
  | @select verb keyword sep first head path rest _ _ _ hpath _ => exact ⟨first, path, rfl, hpath⟩
  | insert | update | delete => exact ⟨_, [], rfl, trivial⟩

/-! ## Real tables -/

/-- What is sent in front of the table. -/
def Parts.before (p : Parts) : String := written (p.verb :: p.lead) ++ " "

/-- The name that is sent as the table. -/
def Parts.name (p : Parts) : String := written p.table

/-- The table was written as words or literals with dots between them, no double quote is in its
name, and a reader of the statement that is sent finds that name as one literal. -/
structure Parts.HasRealTable (p : Parts) (statement : String) : Prop where
  dotted : IsDotted p.table
  notMem_quote : '"' ∉ p.name.toList
  found : ∃ after, statement = p.before ++ quoted p.name ++ after ∧
    lexemes true statement.toList =
      lexemes true p.before.toList ++ .literal '"' p.name.toList true ::
        lexemes true after.toList

/-- Nothing in the statement keeps its table from being real: no mark and no space stands where the
table has a segment, no dot is quoted, no character of its name ends or escapes anything in double
quotes, and no literal is open in front of it. -/
structure Parts.Allows (p : Parts) : Prop where
  segments : ∀ l ∈ segments p.table, l.isName = true
  dots : ∀ l ∈ dots p.table, l.isLiteral = false
  name : ∀ c ∈ p.name.toList, c ≠ '\\' ∧ c ≠ '"'
  before : ∀ l ∈ lexemes true p.before.toList, l.isOpen = false

/-- The table that is sent is a real one exactly when the parts of the statement allow it. -/
theorem Parts.Of.hasRealTable_iff (hp : p.Of source subject) (h : ofSource source = .ok query) :
    p.HasRealTable query.statement ↔ p.Allows := by
  obtain ⟨out, -, hout⟩ := hp.ofSource_eq_ok_iff.1 h
  have hstatement : query.statement =
      p.before ++ quoted p.name ++ (written (sentLink p.link) ++ out) := by
    rw [hout, Parts.front, Parts.before, Parts.name]
    simp [String.append_assoc]
  have hchars (after : String) : (p.before ++ quoted p.name ++ after).toList =
      p.before.toList ++ '"' :: (p.name.toList ++ '"' :: after.toList) := by simp [quoted]
  obtain ⟨first, path, htable, hpath⟩ := hp.fits.exists_table
  have hsound : ∀ l ∈ path, l.Sound := fun l hl =>
    hp.sound l (p.table_subset (by rw [htable]; exact List.mem_cons_of_mem first hl))
  have hdotted : IsDotted (first :: path) ↔ _ := isDotted_iff hpath hsound
  rw [← htable] at hdotted
  constructor
  · rintro ⟨hdots, -, after, hafter, hfound⟩
    obtain ⟨hsegments, hdots⟩ := hdotted.1 hdots
    rw [hafter, hchars, lexemes_around_quoted_iff rfl] at hfound
    exact ⟨hsegments, hdots, hfound.2, hfound.1⟩
  · rintro ⟨hsegments, hdots, hname, hbefore⟩
    refine ⟨hdotted.2 ⟨hsegments, hdots⟩, fun hmem => (hname _ hmem).2 rfl, _, hstatement, ?_⟩
    rw [hstatement, hchars, lexemes_around_quoted_iff rfl]
    exact ⟨hbefore, hname⟩

/-- An accepted statement has its parts, and its table is real exactly if nothing in them keeps it
from being so. -/
theorem real_table_iff (h : ofSource source = .ok query) :
    (∃ subject p, Parts.Of source subject p) ∧
      ∀ subject p, Parts.Of source subject p → (p.HasRealTable query.statement ↔ p.Allows) :=
  ⟨exists_parts h, fun _ _ hp => hp.hasRealTable_iff h⟩

/-- A semicolon is taken for a table. -/
theorem real_table_iff_semicolon :
    let p : Parts := ⟨.word "UPDATE".toList, [], .space, [.mark ';'], [], []⟩
    p.Of "UPDATE ;" .update ∧ ofSource "UPDATE ;" = .ok ⟨"UPDATE \";\"", none⟩ ∧
      ¬ p.HasRealTable "UPDATE \";\"" := by
  intro p
  have hp : p.Of "UPDATE ;" .update := ⟨by decide +kernel, by decide +kernel, .update rfl⟩
  have haccepted : ofSource "UPDATE ;" = .ok ⟨"UPDATE \";\"", none⟩ :=
    eq_ok_of_toOption (by decide +kernel)
  refine ⟨hp, haccepted, fun hreal => ?_⟩
  cases (((real_table_iff haccepted).2 _ p hp).1 hreal).segments _ List.mem_cons_self

end Query

end TableShell
