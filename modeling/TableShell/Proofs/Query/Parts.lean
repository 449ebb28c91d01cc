import TableShell.Proofs.Lexeme.Cut
import TableShell.Proofs.Query.Literal

/-!
# The parts of a statement

`Query.Parts` is a statement cut where its table stands: what leads up to the table, the table, and
what follows it. A source that is accepted can be cut (`Query.exists_parts`), and its parts decide
what is sent for it, or why it is refused (`Query.Parts.Of.ofSource_select`,
`Query.Parts.Of.ofSource_eq_ok_iff`).
-/

namespace TableShell

namespace Query

open Lexeme

variable {source : String} {subject : Subject} {query : Query}

/-- A statement cut into its parts, in the order in which they stand. -/
structure Parts where
  verb : Lexeme
  /-- What stands between the verb and the space in front of the table. -/
  lead : List Lexeme
  /-- The space in front of the table. -/
  sep : Lexeme
  /-- The table, one lexeme or the segments of a path and their dots. -/
  table : List Lexeme
  /-- What stands between the table and what is copied: in an INSERT, a space and the keyword. -/
  link : List Lexeme
  /-- What is copied. -/
  rest : List Lexeme

/-- What is sent between the table and what is copied: a space and the keyword VALUE. -/
def sentLink : List Lexeme → List Lexeme
  | [_, keyword] => [.space, .word ((valueKeyword? (bare keyword)).getD "").toList]
  | _ => []

/-! ## The keyword of an INSERT -/

/-- The keyword that is sent is VALUE, in small letters or in capitals. -/
theorem eq_of_valueKeyword? {token value : String} (h : valueKeyword? token = some value) :
    value = "value" ∨ value = "VALUE" := by
  rw [valueKeyword?] at h
  split at h
  · next hkeyword =>
    cases h
    exact hkeyword
  · split at h
    · cases h
      exact .inr rfl
    · cases h

/-- The keyword of an INSERT is a word or a literal. -/
theorem eq_word_of_valueKeyword? {l : Lexeme} {value : String}
    (h : valueKeyword? (bare l) = some value) (hl : l.isLiteral = false) : ∃ w, l = .word w := by
  refine exists_eq_word hl ?_
  rw [← toList_token false l]
  change 1 < (bare l).toList.length
  rw [valueKeyword?] at h
  split at h
  · next hkeyword => rcases hkeyword with h | h <;> rw [h] <;> decide +kernel
  · split at h
    · next hkeyword => rcases hkeyword with h | h <;> rw [h] <;> decide +kernel
    · cases h

/-- What is sent in front of the copied part of an INSERT is a space and the keyword. -/
theorem sentLink_eq {sep keyword : Lexeme} {value : String}
    (h : valueKeyword? (bare keyword) = some value) :
    sentLink [sep, keyword] = [.space, .word value.toList] := by
  simp [sentLink, h]

/-- The keyword that is sent is one that is not changed. -/
theorem valueKeyword?_eq_self {token value : String} (h : valueKeyword? token = some value) :
    valueKeyword? (bare (.word value.toList)) = some value := by
  rw [bare_word]
  rcases eq_of_valueKeyword? h with rfl | rfl <;> rfl

/-! ## The clauses of a SELECT -/

/-- What is sent for the lexemes after the table of a SELECT, and the limit. -/
def sentClauses (rest : List Lexeme) : Except Fault (String × Option Int) :=
  match afterTarget rest with
  | [] => .error .endAfterTable
  | token :: tokens => (fun sent => (" " ++ sent.1, sent.2)) <$> clauses none (token :: tokens)

/-- What follows the table of a SELECT is sent as its clauses are. -/
theorem follows_select_iff {rest : List Lexeme} {out : String} {limit : Option Int} :
    Follows .select rest out limit ↔ sentClauses rest = .ok (out, limit) := by
  rw [Follows, sentClauses]
  cases afterTarget rest with
  | nil => exact ⟨fun h => absurd rfl h.1, nofun⟩
  | cons token tokens =>
    dsimp only
    cases hclauses : clauses none (token :: tokens) with
    | error fault =>
      constructor
      · rintro ⟨-, _, ⟨⟩, -⟩
      · exact nofun
    | ok sent =>
      constructor
      · rintro ⟨-, _, ⟨⟩, rfl⟩
        rfl
      · rintro ⟨⟩
        exact ⟨List.cons_ne_nil _ _, sent.1, rfl, rfl⟩

/-- A SELECT of the form that is accepted is sent, or refused, as its clauses are. -/
theorem select_of_form {ls rest : List Lexeme} {front : String} (h : Form .select ls front rest) :
    select ls = (fun sent => (front ++ sent.1, sent.2)) <$> sentClauses rest := by
  cases h with
  | @select head path keyword sep first _ hhead hkeyword hsep hpath hrest =>
    have hcopied (ls : List Lexeme) :
        copyThrough "FROM" (Text.sameLetters · "FROM") (head ++ keyword :: ls) =
          .ok (written (head ++ [keyword]), ls) :=
      copyThrough_eq_ok.2 ⟨head, keyword, rfl, hhead, hkeyword, rfl⟩
    have hspace (ls : List Lexeme) : afterSpace (sep :: ls) = .ok ls :=
      afterSpace_eq_ok.2 ⟨sep, rfl, hsep⟩
    have htarget : target (bare first) (path ++ rest) = .ok (bare first ++ written path, rest) :=
      target_eq_ok.2 ⟨path, hpath, rfl, rfl, hrest⟩
    simp only [select, hcopied, hspace, uncons, htarget, bind, Except.bind, sentClauses]
    cases afterTarget rest with
    | nil => rfl
    | cons token tokens =>
      dsimp only
      cases clauses none (token :: tokens) with
      | error fault => rfl
      | ok sent => simp [pure, Except.pure, Functor.map, Except.map, String.append_assoc]

namespace Parts

/-- The lexemes after the verb. -/
def tail (p : Parts) : List Lexeme := p.lead ++ p.sep :: (p.table ++ (p.link ++ p.rest))

/-- The text that is sent up to what is copied. -/
def front (p : Parts) : String :=
  written (p.verb :: p.lead) ++ " " ++ quoted (written p.table) ++ written (sentLink p.link)

/-- The lexemes that are sent up to what is copied, the table as one literal. -/
def sentFront (p : Parts) : List Lexeme :=
  p.verb :: p.lead ++
    (.space :: .literal '"' (p.table.flatMap (Lexeme.text false)) true :: sentLink p.link)

/-- The parts are those of a statement of the given kind. -/
inductive Fits : Subject → Parts → Prop
  | select {verb keyword sep first : Lexeme} {head path rest : List Lexeme}
      (hhead : ∀ l ∈ head, Text.sameLetters (bare l) "FROM" = false)
      (hkeyword : Text.sameLetters (bare keyword) "FROM" = true) (hsep : bare sep = spaceToken)
      (hpath : IsPath path) (hrest : ∀ l ∈ rest.head?, bare l ≠ ".") :
      Fits .select ⟨verb, head ++ [keyword], sep, first :: path, [], rest⟩
  | insert {verb into sep table sep' keyword : Lexeme} {head rest : List Lexeme} {value : String}
      (hhead : ∀ l ∈ head, bare l ≠ "into" ∧ bare l ≠ "INTO")
      (hinto : bare into = "into" ∨ bare into = "INTO") (hsep : bare sep = spaceToken)
      (hsep' : bare sep' = spaceToken) (hvalue : valueKeyword? (bare keyword) = some value) :
      Fits .insert ⟨verb, head ++ [into], sep, [table], [sep', keyword], rest⟩
  | update {verb sep table : Lexeme} {rest : List Lexeme} (hsep : bare sep = spaceToken) :
      Fits .update ⟨verb, [], sep, [table], [], rest⟩
  | delete {verb sep keyword sep' table : Lexeme} {rest : List Lexeme}
      (hsep : bare sep = spaceToken) (hkeyword : bare keyword = "from" ∨ bare keyword = "FROM")
      (hsep' : bare sep' = spaceToken) :
      Fits .delete ⟨verb, [sep, keyword], sep', [table], [], rest⟩

/-- The parts are those of the source. -/
structure Of (source : String) (subject : Subject) (p : Parts) : Prop where
  lexemesOf_eq : lexemesOf source = p.verb :: p.tail
  subject?_eq : subject? (bare p.verb) = some subject
  fits : p.Fits subject

variable {p : Parts}

/-- A space stands in front of the table. -/
theorem Fits.bare_sep (h : p.Fits subject) : bare p.sep = spaceToken := by
  cases h <;> assumption

/-- The parts are an end of the lexemes of the statement. -/
theorem Of.suffix (hp : p.Of source subject) :
    p.verb :: p.tail <:+ lexemes true source.toList := by
  rw [← hp.lexemesOf_eq]
  exact List.dropWhile_suffix _

/-- The parts of a statement consist of lexemes that a text can have. -/
theorem Of.sound (hp : p.Of source subject) : ∀ l ∈ p.verb :: p.tail, l.Sound := fun l hl =>
  sound_of_mem_lexemes _ l (hp.suffix.subset hl)

/-- The rest of the source is read as it is copied. -/
theorem rest_suffix (p : Parts) : p.rest <:+ p.verb :: p.tail :=
  ⟨p.verb :: (p.lead ++ p.sep :: (p.table ++ p.link)), by simp [tail]⟩

/-- What stands in front of the table is part of the statement. -/
theorem lead_subset (p : Parts) : p.verb :: p.lead ⊆ p.verb :: p.tail :=
  List.cons_subset_cons _ (List.subset_append_left _ _)

/-- The table is part of the statement. -/
theorem table_subset (p : Parts) : p.table ⊆ p.verb :: p.tail := by
  intro l hl
  simp [tail, hl]

/-- A table that shows no quote and no backslash can be written as one literal. -/
theorem plain_table (h : ∀ l ∈ p.table, ∀ c ∈ Lexeme.text false l, c ≠ '\\' ∧ isQuote c = false) :
    (Lexeme.literal '"' (p.table.flatMap (Lexeme.text false)) true).Plain := by
  intro c hc
  obtain ⟨l, hl, hc⟩ := List.mem_flatMap.1 hc
  exact h l hl c hc

/-- No literal is sent as the link. -/
theorem isLiteral_of_mem_sentLink {link : List Lexeme} {l : Lexeme} (hl : l ∈ sentLink link) :
    l.isLiteral = false := by
  rw [sentLink.eq_def] at hl
  split at hl
  · obtain rfl | rfl := by simpa using hl
    · rfl
    · rfl
  · cases hl

/-- The link that is sent consists of lexemes that a text can have. -/
theorem Fits.sound_sentLink (h : p.Fits subject) : ∀ l ∈ sentLink p.link, l.Sound := by
  cases h with
  | @insert verb into sep table sep' keyword head rest value _ _ _ _ hvalue =>
    have hword : IsWord value.toList := by
      rcases eq_of_valueKeyword? hvalue with rfl | rfl <;> decide +kernel
    rw [sentLink_eq hvalue]
    exact List.forall_mem_cons.2 ⟨trivial, List.forall_mem_singleton.2 hword⟩
  | select | update | delete => exact nofun

/-- The link that is sent is sent again as it is. -/
theorem Fits.sentLink_sentLink (h : p.Fits subject) :
    sentLink (sentLink p.link) = sentLink p.link := by
  cases h with
  | @insert verb into sep table sep' keyword head rest value _ _ _ _ hvalue =>
    rw [sentLink_eq hvalue, sentLink_eq (valueKeyword?_eq_self hvalue)]
  | select | update | delete => rfl

/-- Without a literal in front of the table, the lexemes that are sent are what is sent. -/
theorem toList_front (hl : ∀ l ∈ p.verb :: p.lead, l.isLiteral = false) :
    p.front.toList = p.sentFront.flatMap (Lexeme.text true) := by
  have hlead := flatMap_text_of_not_literal hl
  have hlink : (sentLink p.link).flatMap (Lexeme.text false) =
      (sentLink p.link).flatMap (Lexeme.text true) :=
    flatMap_text_of_not_literal fun _ => isLiteral_of_mem_sentLink
  have htable : (.space :: .literal '"' (p.table.flatMap (Lexeme.text false)) true ::
      sentLink p.link).flatMap (Lexeme.text true) =
        ' ' :: '"' :: (p.table.flatMap (Lexeme.text false) ++
          '"' :: (sentLink p.link).flatMap (Lexeme.text true)) := by simp [Lexeme.text]
  rw [sentFront, List.flatMap_append, ← hlead, htable, ← hlink]
  simp [front, written, quoted]

/-! ## Parts and forms -/

/-- Parts that fit are a statement of the form that is accepted. -/
theorem Fits.form (h : p.Fits subject) :
    ∃ front, p.front = bare p.verb ++ front ∧ Form subject p.tail front p.rest := by
  cases h with
  | @select verb keyword sep first head path rest hhead hkeyword hsep hpath hrest =>
    have htail : tail ⟨verb, head ++ [keyword], sep, first :: path, [], rest⟩ =
        head ++ keyword :: sep :: first :: (path ++ rest) := by simp [tail]
    have hform : Form .select (head ++ keyword :: sep :: first :: (path ++ rest)) _ rest :=
      .select hhead hkeyword hsep hpath hrest
    exact ⟨_, by simp [front, sentLink, String.append_assoc], htail ▸ hform⟩
  | @insert verb into sep table sep' keyword head rest value hhead hinto hsep hsep' hvalue =>
    have htail : tail ⟨verb, head ++ [into], sep, [table], [sep', keyword], rest⟩ =
        head ++ into :: sep :: table :: sep' :: keyword :: rest := by simp [tail]
    have hform : Form .insert (head ++ into :: sep :: table :: sep' :: keyword :: rest) _ rest :=
      .insert hhead hinto hsep hsep' hvalue
    refine ⟨_, ?_, htail ▸ hform⟩
    simp [front, sentLink, hvalue, String.append_assoc, bare_space, bare_word, spaceToken]
  | update hsep => exact ⟨_, by simp [front, sentLink, String.append_assoc], .update hsep⟩
  | delete hsep hkeyword hsep' =>
    refine ⟨_, ?_, .delete hsep hkeyword hsep'⟩
    simp [front, sentLink, hsep, spaceToken, String.append_assoc]

/-- A statement of the form that is accepted can be cut. -/
theorem exists_fits {ls rest : List Lexeme} {front : String} (h : Form subject ls front rest)
    (verb : Lexeme) : ∃ p : Parts, p.verb = verb ∧ p.tail = ls ∧ p.Fits subject := by
  cases h with
  | @select head path keyword sep first _ hhead hkeyword hsep hpath hrest =>
    exact ⟨⟨verb, head ++ [keyword], sep, first :: path, [], rest⟩, rfl, by simp [tail],
      .select hhead hkeyword hsep hpath hrest⟩
  | @insert head into sep table sep' keyword _ value hhead hinto hsep hsep' hvalue =>
    exact ⟨⟨verb, head ++ [into], sep, [table], [sep', keyword], rest⟩, rfl, by simp [tail],
      .insert hhead hinto hsep hsep' hvalue⟩
  | @update sep table _ hsep =>
    exact ⟨⟨verb, [], sep, [table], [], rest⟩, rfl, rfl, .update hsep⟩
  | @delete sep keyword sep' table _ hsep hkeyword hsep' =>
    exact ⟨⟨verb, [sep, keyword], sep', [table], [], rest⟩, rfl, rfl, .delete hsep hkeyword hsep'⟩

/-! ## What is sent -/

/-- What follows the front decides what is sent. -/
theorem Of.ofSource_of_follows {out : String} {limit : Option Int} (hp : p.Of source subject)
    (hf : Follows subject p.rest out limit) : ofSource source = .ok ⟨p.front ++ out, limit⟩ := by
  obtain ⟨front, hfront, hform⟩ := hp.fits.form
  have hsends := Sends.mk hp.lexemesOf_eq hp.subject?_eq hform hf
  rw [hfront]
  exact ofSource_eq_ok.2 ⟨_, _, _, hsends⟩

/-- A SELECT is sent, or refused, as its clauses are. -/
theorem Of.ofSource_select (hp : p.Of source .select) :
    ofSource source = match sentClauses p.rest with
      | .error fault => .error (.ofFault .select source fault)
      | .ok (out, limit) => .ok ⟨p.front ++ out, limit⟩ := by
  cases hrest : sentClauses p.rest with
  | ok sent => exact hp.ofSource_of_follows (follows_select_iff.2 hrest)
  | error fault =>
    obtain ⟨front, -, hform⟩ := hp.fits.form
    have hbody : body .select p.tail = .error fault := by
      rw [body, select_of_form hform, hrest]
      rfl
    rw [ofSource, hp.lexemesOf_eq]
    simp only [hp.subject?_eq, hbody]

/-- An accepted statement is sent as what follows its front decides. -/
theorem Of.ofSource_eq_ok_iff (hp : p.Of source subject) :
    ofSource source = .ok query ↔
      ∃ out, Follows subject p.rest out query.limit ∧ query.statement = p.front ++ out := by
  constructor
  · intro h
    have copied (hf : Follows subject p.rest (copyRest p.rest) none) :
        ∃ out, Follows subject p.rest out query.limit ∧ query.statement = p.front ++ out := by
      obtain rfl : (⟨p.front ++ copyRest p.rest, none⟩ : Query) = query := by
        simpa using (hp.ofSource_of_follows hf).symm.trans h
      exact ⟨_, hf, rfl⟩
    cases subject with
    | select =>
      rw [hp.ofSource_select] at h
      split at h
      · cases h
      · next out limit hrest =>
        cases h
        exact ⟨out, follows_select_iff.2 hrest, rfl⟩
    | _ => exact copied ⟨rfl, rfl⟩
  · rintro ⟨out, hf, hout⟩
    rw [hp.ofSource_of_follows hf, ← hout]

end Parts

/-- A source that is accepted can be cut. -/
theorem exists_parts (h : ofSource source = .ok query) :
    ∃ subject p, Parts.Of source subject p := by
  obtain ⟨subject, _, _, hsends⟩ := ofSource_eq_ok.1 h
  cases hsends with
  | @mk verb _ _ _ _ _ _ hls hs hform _ =>
    obtain ⟨p, rfl, rfl, hfits⟩ := Parts.exists_fits hform verb
    exact ⟨subject, p, hls, hs, hfits⟩

end Query

end TableShell
