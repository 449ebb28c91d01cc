import TableShell.Proofs.Lexeme
import TableShell.Query

/-!
# The form of a statement

A statement is accepted exactly if it is made up as `Query.Form` says: after the verb a front, which
ends with the table or with the keyword VALUE, and lexemes that follow it. The front is sent as it
was read, with the table in double quotes; what follows is copied (`Query.body_eq_ok_iff`).
-/

namespace TableShell

namespace Query

open Lexeme

variable {ls rest : List Lexeme} {text : String} {limit : Option Int}

/-- A word stands for itself. -/
theorem bare_word (w : String) : bare (.word w.toList) = w := String.ofList_toList

/-- A space stands for the token of a space. -/
theorem bare_space : bare .space = spaceToken := rfl

/-- Lexemes as they are read up to the table, one after the other. -/
def written (ls : List Lexeme) : String := String.ofList (ls.flatMap (Lexeme.text false))

@[simp] theorem written_nil : written [] = "" := rfl

/-- Lexemes are written one after the other. -/
@[simp] theorem written_cons (l : Lexeme) (ls : List Lexeme) :
    written (l :: ls) = bare l ++ written ls := by
  rw [written, List.flatMap_cons, String.ofList_append]
  rfl

/-! ## What is copied -/

/-- Quotes are changed character by character. -/
theorem singleQuotes_append (a b : String) :
    singleQuotes (a ++ b) = singleQuotes a ++ singleQuotes b := by
  rw [← String.toList_inj]
  simp [singleQuotes]

/-- Lexemes are copied as the texts that they show, with single quotes only. -/
theorem copyRest_eq (ls : List Lexeme) :
    copyRest ls = singleQuotes (String.ofList (ls.flatMap (Lexeme.text true))) := by
  induction ls with
  | nil => rfl
  | cons l ls ih =>
    have hcons : copyRest (l :: ls) = requoted l ++ copyRest ls := rfl
    rw [hcons, ih, requoted, ← singleQuotes_append, List.flatMap_cons, String.ofList_append]
    rfl

/-! ## Reading piece by piece -/

/-- A space is passed exactly where one stands. -/
theorem afterSpace_eq_ok :
    afterSpace ls = .ok rest ↔ ∃ l, ls = l :: rest ∧ bare l = spaceToken := by
  cases ls with
  | nil => exact ⟨nofun, nofun⟩
  | cons l ls =>
    rw [afterSpace]
    split
    · next h =>
      constructor
      · rintro ⟨⟩
        exact ⟨l, rfl, h⟩
      · rintro ⟨_, ⟨⟩, _⟩
        rfl
    · next h =>
      constructor
      · exact nofun
      · rintro ⟨_, ⟨⟩, hs⟩
        exact absurd hs h

/-- A lexeme is taken exactly where one stands. -/
theorem uncons_eq_ok {what : String} {l : Lexeme} :
    uncons what ls = .ok (l, rest) ↔ ls = l :: rest := by
  cases ls with
  | nil => exact ⟨nofun, nofun⟩
  | cons l ls => simp [uncons]

/-- Lexemes are copied through the first one that stops, and what stands behind it is left. -/
theorem copyThrough_eq_ok {what : String} {stop : String → Bool} :
    copyThrough what stop ls = .ok (text, rest) ↔
      ∃ head l, ls = head ++ l :: rest ∧ (∀ x ∈ head, stop (bare x) = false) ∧
        stop (bare l) = true ∧ text = written (head ++ [l]) := by
  induction ls generalizing text with
  | nil => simp [copyThrough]
  | cons x ls ih =>
    rw [copyThrough]
    split
    · next hstop =>
      constructor
      · intro h
        cases h
        exact ⟨[], x, rfl, nofun, hstop, by simp⟩
      · rintro ⟨_ | ⟨y, head⟩, l, hls, hhead, _, rfl⟩
        · cases hls
          simp
        · cases hls
          exact absurd hstop (by simp [hhead x List.mem_cons_self])
    · next hstop =>
      rw [bind_eq_ok]
      constructor
      · rintro ⟨⟨_, _⟩, hcopied, h⟩
        cases h
        obtain ⟨head, l, hls, hhead, hl, rfl⟩ := ih.1 hcopied
        refine ⟨x :: head, l, by rw [hls]; rfl, ?_, hl, by simp⟩
        exact List.forall_mem_cons.2 ⟨by simpa using hstop, hhead⟩
      · rintro ⟨_ | ⟨y, head⟩, l, hls, hhead, hl, rfl⟩
        · cases hls
          exact absurd hl hstop
        · cases hls
          have hcopied := ih.2 ⟨head, l, rfl, (List.forall_mem_cons.1 hhead).2, hl, rfl⟩
          refine ⟨_, hcopied, ?_⟩
          simp [pure, Except.pure]

/-- The dots and the segments that follow the first segment of a name. -/
def IsPath : List Lexeme → Prop
  | [] => True
  | [_] => False
  | dot :: _ :: path => bare dot = "." ∧ IsPath path

/-- A table is read with the longest path behind its first segment. -/
theorem target_eq_ok {name full : String} :
    target name ls = .ok (full, rest) ↔
      ∃ path, IsPath path ∧ ls = path ++ rest ∧ full = name ++ written path ∧
        ∀ l ∈ rest.head?, bare l ≠ "." := by
  constructor
  · fun_induction target name ls with
    | case1 name =>
      intro h
      cases h
      exact ⟨[], trivial, rfl, by simp, nofun⟩
    | case2 => exact nofun
    | case3 name dot hdot segment ls ih =>
      intro h
      obtain ⟨path, hpath, rfl, rfl, hrest⟩ := ih h
      refine ⟨dot :: segment :: path, ⟨hdot, hpath⟩, rfl, ?_, hrest⟩
      simp [hdot, String.append_assoc]
    | case4 name dot ls hdot =>
      intro h
      cases h
      exact ⟨[], trivial, rfl, by simp, by simpa using hdot⟩
  · rintro ⟨path, hpath, rfl, rfl, hrest⟩
    fun_induction IsPath path generalizing name with
    | case1 =>
      cases rest with
      | nil => simp [target]
      | cons l rest =>
        rw [List.nil_append, target.eq_def]
        simp [hrest l rfl]
    | case2 => exact hpath.elim
    | case3 dot segment path ih =>
      obtain ⟨hdot, hpath⟩ := hpath
      rw [List.cons_append, List.cons_append, target]
      simp [hdot, ih hpath, String.append_assoc]

/-! ## Fronts -/

/-- The keyword that is sent for VALUE or VALUES. -/
def valueKeyword? (token : String) : Option String :=
  if token = "value" ∨ token = "VALUE" then some token
  else if token = "values" ∨ token = "VALUES" then some "VALUE"
  else none

/-- How what follows the verb of a statement is made up: the text that is sent for its front, and
the lexemes after the front. -/
inductive Form : Subject → List Lexeme → String → List Lexeme → Prop
  | select {head path : List Lexeme} {keyword sep first : Lexeme} {rest : List Lexeme}
      (hhead : ∀ l ∈ head, Text.sameLetters (bare l) "FROM" = false)
      (hkeyword : Text.sameLetters (bare keyword) "FROM" = true) (hsep : bare sep = spaceToken)
      (hpath : IsPath path) (hrest : ∀ l ∈ rest.head?, bare l ≠ ".") :
      Form .select (head ++ keyword :: sep :: first :: (path ++ rest))
        (written (head ++ [keyword]) ++ " " ++ quoted (written (first :: path))) rest
  | insert {head : List Lexeme} {into sep table sep' keyword : Lexeme} {rest : List Lexeme}
      {value : String} (hhead : ∀ l ∈ head, bare l ≠ "into" ∧ bare l ≠ "INTO")
      (hinto : bare into = "into" ∨ bare into = "INTO") (hsep : bare sep = spaceToken)
      (hsep' : bare sep' = spaceToken) (hvalue : valueKeyword? (bare keyword) = some value) :
      Form .insert (head ++ into :: sep :: table :: sep' :: keyword :: rest)
        (written (head ++ [into]) ++ " " ++ quoted (bare table) ++ " " ++ value) rest
  | update {sep table : Lexeme} {rest : List Lexeme} (hsep : bare sep = spaceToken) :
      Form .update (sep :: table :: rest) (" " ++ quoted (bare table)) rest
  | delete {sep keyword sep' table : Lexeme} {rest : List Lexeme} (hsep : bare sep = spaceToken)
      (hkeyword : bare keyword = "from" ∨ bare keyword = "FROM") (hsep' : bare sep' = spaceToken) :
      Form .delete (sep :: keyword :: sep' :: table :: rest)
        (" " ++ bare keyword ++ " " ++ quoted (bare table)) rest

/-- What is sent for the lexemes after the front, and the limit. -/
def Follows : Subject → List Lexeme → String → Option Int → Prop
  | .select, rest, out, limit => afterTarget rest ≠ [] ∧
      ∃ text, clauses none (afterTarget rest) = .ok (text, limit) ∧ out = " " ++ text
  | _, rest, out, limit => out = copyRest rest ∧ limit = none

/-- A SELECT is sent exactly when it has the form of one and its clauses can be sent. -/
theorem select_eq_ok :
    select ls = .ok (text, limit) ↔
      ∃ front rest out, Form .select ls front rest ∧ Follows .select rest out limit ∧
        text = front ++ out := by
  simp only [select, bind_eq_ok, copyThrough_eq_ok, afterSpace_eq_ok, uncons_eq_ok, target_eq_ok,
    Prod.exists]
  constructor
  · rintro ⟨_, _, ⟨head, keyword, rfl, hhead, hkeyword, rfl⟩, _, ⟨sep, rfl, hsep⟩, first, _, rfl,
      _, rest, ⟨path, hpath, rfl, rfl, hrest⟩, h⟩
    cases htokens : afterTarget rest with
    | nil =>
      rw [htokens] at h
      cases h
    | cons token tokens =>
      rw [htokens] at h
      obtain ⟨⟨sent, number⟩, hclauses, h⟩ := bind_eq_ok.1 h
      obtain ⟨rfl, rfl⟩ : _ = text ∧ number = limit := by simpa [pure, Except.pure] using h
      have hfollows : Follows .select rest (" " ++ sent) number :=
        ⟨by simp [htokens], sent, by rw [htokens, hclauses], rfl⟩
      exact ⟨_, rest, _, .select hhead hkeyword hsep hpath hrest, hfollows,
        by simp [String.append_assoc]⟩
  · rintro ⟨_, rest, _, hform, ⟨hne, sent, hclauses, rfl⟩, rfl⟩
    cases hform with
    | select hhead hkeyword hsep hpath hrest =>
      refine ⟨_, _, ⟨_, _, rfl, hhead, hkeyword, rfl⟩, _, ⟨_, rfl, hsep⟩, _, _, rfl,
        _, rest, ⟨_, hpath, rfl, rfl, hrest⟩, ?_⟩
      cases htokens : afterTarget rest with
      | nil => exact absurd htokens hne
      | cons token tokens =>
        rw [htokens] at hclauses
        simp [hclauses, bind, Except.bind, pure, Except.pure, String.append_assoc]

/-- An UPDATE is sent exactly when it has the form of one. -/
theorem update_eq_ok :
    update ls = .ok text ↔
      ∃ front rest, Form .update ls front rest ∧ text = front ++ copyRest rest := by
  simp only [update, bind_eq_ok, afterSpace_eq_ok, uncons_eq_ok, Prod.exists]
  constructor
  · rintro ⟨_, ⟨sep, rfl, hsep⟩, table, rest, rfl, h⟩
    cases h
    exact ⟨_, rest, .update hsep, rfl⟩
  · rintro ⟨_, rest, hform, rfl⟩
    cases hform with
    | update hsep => exact ⟨_, ⟨_, rfl, hsep⟩, _, rest, rfl, rfl⟩

/-- A DELETE is sent exactly when it has the form of one. -/
theorem delete_eq_ok :
    delete ls = .ok text ↔
      ∃ front rest, Form .delete ls front rest ∧ text = front ++ copyRest rest := by
  simp only [delete, bind_eq_ok, afterSpace_eq_ok, uncons_eq_ok, Prod.exists]
  constructor
  · rintro ⟨_, ⟨sep, rfl, hsep⟩, keyword, _, rfl, h⟩
    split at h
    · cases h
    · next hkeyword =>
      simp only [bind_eq_ok, afterSpace_eq_ok, uncons_eq_ok, Prod.exists] at h
      obtain ⟨_, ⟨sep', rfl, hsep'⟩, table, rest, rfl, h⟩ := h
      cases h
      have hkeyword : bare keyword = "from" ∨ bare keyword = "FROM" := by
        simpa [Decidable.or_iff_not_imp_left] using hkeyword
      exact ⟨_, rest, .delete hsep hkeyword hsep', rfl⟩
  · rintro ⟨_, rest, hform, rfl⟩
    cases hform with
    | @delete sep keyword sep' table _ hsep hkeyword hsep' =>
      refine ⟨_, ⟨_, rfl, hsep⟩, keyword, _, rfl, ?_⟩
      rw [if_neg (by simpa [Decidable.or_iff_not_imp_left] using hkeyword)]
      simp only [bind_eq_ok, afterSpace_eq_ok, uncons_eq_ok, Prod.exists]
      exact ⟨_, ⟨_, rfl, hsep'⟩, table, rest, rfl, rfl⟩

/-- An INSERT is sent exactly when it has the form of one. -/
theorem insert_eq_ok :
    insert ls = .ok text ↔
      ∃ front rest, Form .insert ls front rest ∧ text = front ++ copyRest rest := by
  simp only [insert, bind_eq_ok, copyThrough_eq_ok, afterSpace_eq_ok, uncons_eq_ok, Prod.exists,
    Bool.or_eq_false_iff, Bool.or_eq_true, beq_iff_eq, beq_eq_false_iff_ne]
  constructor
  · rintro ⟨_, _, ⟨head, into, rfl, hhead, hinto, rfl⟩, _, ⟨sep, rfl, hsep⟩, table, _, rfl,
      _, ⟨sep', rfl, hsep'⟩, keyword, rest, rfl, h⟩
    split at h
    · next hvalue =>
      cases h
      exact ⟨_, rest, .insert hhead hinto hsep hsep' (if_pos hvalue), rfl⟩
    · next hvalue =>
      split at h
      · next hvalues =>
        cases h
        have hkeyword : valueKeyword? (bare keyword) = some "VALUE" := by
          rw [valueKeyword?, if_neg hvalue, if_pos hvalues]
        exact ⟨_, rest, .insert hhead hinto hsep hsep' hkeyword, rfl⟩
      · cases h
  · rintro ⟨_, rest, hform, rfl⟩
    cases hform with
    | @insert head into sep table sep' keyword _ value hhead hinto hsep hsep' hvalue =>
      refine ⟨_, _, ⟨head, into, rfl, hhead, hinto, rfl⟩, _, ⟨sep, rfl, hsep⟩, table, _, rfl,
        _, ⟨sep', rfl, hsep'⟩, keyword, rest, rfl, ?_⟩
      rw [valueKeyword?] at hvalue
      split at hvalue
      · next h =>
        cases hvalue
        rw [if_pos h]
        rfl
      · next h =>
        split at hvalue
        · next h' =>
          cases hvalue
          rw [if_neg h, if_pos h']
          rfl
        · cases hvalue

/-! ## Statements -/

/-- What follows a verb is sent exactly when it has the form of its statement and the rest can be
sent. -/
theorem body_eq_ok {verb : String} {subject : Subject} (hs : subject? verb = some subject) :
    body subject ls = .ok (text, limit) ↔
      ∃ front rest out, Form subject ls front rest ∧ Follows subject rest out limit ∧
        text = front ++ out := by
  have copied {subject : Subject} {x : Except Fault String}
      (hx : ∀ {text}, x = .ok text ↔
        ∃ front rest, Form subject ls front rest ∧ text = front ++ copyRest rest) :
      (·, none) <$> x = .ok (text, limit) ↔
        ∃ front rest out, Form subject ls front rest ∧ (out = copyRest rest ∧ limit = none) ∧
          text = front ++ out := by
    constructor
    · intro h
      cases hok : x with
      | error fault =>
        rw [hok] at h
        cases h
      | ok sent =>
        rw [hok] at h
        cases h
        obtain ⟨front, rest, hform, rfl⟩ := hx.1 hok
        exact ⟨front, rest, _, hform, ⟨rfl, rfl⟩, rfl⟩
    · rintro ⟨front, rest, _, hform, ⟨rfl, rfl⟩, rfl⟩
      rw [hx.2 ⟨front, rest, hform, rfl⟩]
      rfl
  rw [subject?] at hs
  split at hs
  · cases hs
    exact select_eq_ok
  split at hs
  · cases hs
    exact copied insert_eq_ok
  split at hs
  · cases hs
    exact copied update_eq_ok
  split at hs
  · cases hs
    exact copied delete_eq_ok
  · cases hs

/-- How a source is sent: the kind of the statement, the lexemes after its front, what is sent for
them, and all that is sent. -/
inductive Sends (source : String) : Subject → List Lexeme → String → Query → Prop
  | mk {verb : Lexeme} {ls : List Lexeme} {subject : Subject} {front out : String}
      {rest : List Lexeme} {limit : Option Int} (hls : lexemesOf source = verb :: ls)
      (hs : subject? (bare verb) = some subject) (hform : Form subject ls front rest)
      (hfollows : Follows subject rest out limit) :
      Sends source subject rest out ⟨bare verb ++ front ++ out, limit⟩

/-- What is copied is an end of the statement. -/
theorem Form.rest_suffix {subject : Subject} {front : String} (h : Form subject ls front rest) :
    rest <:+ ls := by
  cases h with
  | @select head path keyword sep first _ =>
    exact ⟨head ++ keyword :: sep :: first :: path, by simp⟩
  | @insert head into sep table sep' keyword _ =>
    exact ⟨head ++ [into, sep, table, sep', keyword], by simp⟩
  | @update sep table _ => exact ⟨[sep, table], rfl⟩
  | @delete sep keyword sep' table _ => exact ⟨[sep, keyword, sep', table], rfl⟩

/-- What is copied of a statement is an end of its lexemes. -/
theorem Sends.rest_suffix {source : String} {subject : Subject} {out : String} {query : Query}
    (h : Sends source subject rest out query) : rest <:+ lexemes true source.toList := by
  cases h with
  | @mk verb ls _ _ _ _ _ hls hs hform hfollows =>
    have hverb : verb :: ls <:+ lexemes true source.toList := by
      rw [← hls]
      exact List.dropWhile_suffix _
    exact hform.rest_suffix.trans ((List.suffix_cons verb ls).trans hverb)

/-- A source is accepted exactly if it has the form of a statement. -/
theorem ofSource_eq_ok {source : String} {query : Query} :
    ofSource source = .ok query ↔ ∃ subject rest out, Sends source subject rest out query := by
  constructor
  · intro h
    rw [ofSource] at h
    split at h
    · cases h
    · next verb ls hls =>
      split at h
      · cases h
      · next subject hs =>
        split at h
        · cases h
        · next text limit hbody =>
          cases h
          obtain ⟨front, rest, out, hform, hfollows, rfl⟩ := (body_eq_ok hs).1 hbody
          rw [← String.append_assoc]
          exact ⟨subject, rest, out, .mk hls hs hform hfollows⟩
  · rintro ⟨subject, rest, out, ⟨hls, hs, hform, hfollows⟩⟩
    rw [ofSource, hls]
    simp only [hs, (body_eq_ok hs).2 ⟨_, _, _, hform, hfollows, rfl⟩, String.append_assoc]

end Query

end TableShell
