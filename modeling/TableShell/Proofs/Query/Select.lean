import TableShell.Proofs.Query.Limit

/-!
# Which SELECT statements are accepted

A SELECT is refused for the first thing that is wrong with it. `Query.Refused` lists what can be
wrong, from a missing FROM to the number of a LIMIT clause, and `Query.Accepted` says how a
statement with nothing wrong is made up. A source is sent or refused as they say
(`Query.ofSource_select_iff`).

`Form` has a lemma on what each reader takes; here each has one on what it refuses.
-/

namespace TableShell

namespace Query

open Lexeme

variable {ls rest : List Lexeme} {tokens : List String} {text : String}
  {limit limit' : Option Int} {fault : Fault}

/-! ## What follows the table -/

/-- The tokens that follow the table. A lexeme that adjoins the table shows no quotes, and a space
behind the table is left out; something else has to follow. -/
inductive Remains : List Lexeme → List String → Prop
  | adjoining {l : Lexeme} {rest : List Lexeme} (hl : bare l ≠ spaceToken) :
      Remains (l :: rest) (bare l :: rest.map (token true))
  | spaced {sep : Lexeme} {rest : List Lexeme} (hsep : bare sep = spaceToken) (hne : rest ≠ []) :
      Remains (sep :: rest) (rest.map (token true))

/-- The tokens after the table, read from left to right: those that are copied, and the numbers of
the LIMIT clauses. A clause is the keyword, any token and a number. -/
inductive Clauses : List String → List String → List Int → Prop
  | nil : Clauses [] [] []
  | copied {token : String} {tokens copied : List String} {numbers : List Int}
      (htoken : Text.sameLetters token "LIMIT" = false) (h : Clauses tokens copied numbers) :
      Clauses (token :: tokens) (token :: copied) numbers
  | limit {keyword skipped value : String} {tokens copied : List String} {n : Int}
      {numbers : List Int} (hkeyword : Text.sameLetters keyword "LIMIT" = true)
      (hvalue : Number.readInt32 value.toList = some n) (h : Clauses tokens copied numbers) :
      Clauses (keyword :: skipped :: value :: tokens) copied (n :: numbers)

/-- The first thing that is wrong with the tokens after the table. -/
inductive ClauseFault : List String → Fault → Prop
  | copied {token : String} {tokens : List String} {fault : Fault}
      (htoken : Text.sameLetters token "LIMIT" = false) (h : ClauseFault tokens fault) :
      ClauseFault (token :: tokens) fault
  | limit {keyword skipped value : String} {tokens : List String} {n : Int} {fault : Fault}
      (hkeyword : Text.sameLetters keyword "LIMIT" = true)
      (hvalue : Number.readInt32 value.toList = some n) (h : ClauseFault tokens fault) :
      ClauseFault (keyword :: skipped :: value :: tokens) fault
  | noValue {keyword : String} {tokens : List String}
      (hkeyword : Text.sameLetters keyword "LIMIT" = true) (hshort : tokens.length < 2) :
      ClauseFault (keyword :: tokens) (.notFound "LIMIT value")
  | notInteger {keyword skipped value : String} {tokens : List String}
      (hkeyword : Text.sameLetters keyword "LIMIT" = true)
      (hvalue : Number.readInt32 value.toList = none) :
      ClauseFault (keyword :: skipped :: value :: tokens) (.notInteger "LIMIT" value)

/-- Tokens as they are copied, one after the other, with single quotes only. -/
def copyTokens (tokens : List String) : String :=
  (tokens.map singleQuotes).foldr (· ++ ·) ""

/-- What remains behind the table is what is copied, provided there is something. -/
theorem remains_iff : Remains rest tokens ↔ afterTarget rest = tokens ∧ tokens ≠ [] := by
  constructor
  · intro h
    cases h with
    | adjoining hl => exact ⟨by rw [afterTarget, if_neg hl], List.cons_ne_nil _ _⟩
    | spaced hsep hne => exact ⟨by rw [afterTarget, if_pos hsep], by simpa using hne⟩
  · rintro ⟨rfl, hne⟩
    cases rest with
    | nil => exact absurd rfl hne
    | cons l rest =>
      rw [afterTarget] at hne ⊢
      by_cases hl : bare l = spaceToken
      · rw [if_pos hl] at hne ⊢
        exact .spaced hl (by simpa using hne)
      · rw [if_neg hl]
        exact .adjoining hl

/-- Nothing remains behind the table exactly when nothing or only a space stands there. -/
theorem afterTarget_eq_nil_iff :
    afterTarget rest = [] ↔ rest = [] ∨ ∃ sep, rest = [sep] ∧ bare sep = spaceToken := by
  cases rest with
  | nil => simp [afterTarget]
  | cons l rest =>
    rw [afterTarget]
    by_cases hl : bare l = spaceToken
    · rw [if_pos hl]
      simp only [List.map_eq_nil_iff, List.cons_ne_nil, List.cons.injEq, false_or]
      constructor
      · intro h
        exact ⟨l, ⟨rfl, h⟩, hl⟩
      · rintro ⟨_, ⟨_, h⟩, _⟩
        exact h
    · rw [if_neg hl]
      simp only [List.cons_ne_nil, List.cons.injEq, false_or, false_iff]
      rintro ⟨_, ⟨rfl, _⟩, h⟩
      exact hl h

/-- The limit is the last number, or what it was before if there is none. -/
theorem clauses_eq_ok :
    clauses limit tokens = .ok (text, limit') ↔
      ∃ copied numbers, Clauses tokens copied numbers ∧ text = copyTokens copied ∧
        limit' = numbers.getLast?.or limit := by
  constructor
  · fun_induction clauses limit tokens generalizing text with
    | case1 limit =>
      rintro ⟨⟩
      exact ⟨[], [], .nil, rfl, rfl⟩
    | case2 limit keyword hkeyword skipped value rest n hn ih =>
      intro h
      obtain ⟨copied, numbers, hclauses, rfl, rfl⟩ := ih h
      refine ⟨copied, n :: numbers, .limit hkeyword hn hclauses, rfl, ?_⟩
      simp [List.getLast?_cons]
    | case3 | case4 =>
      intro h
      cases h
    | case5 limit token rest htoken ih =>
      intro h
      obtain ⟨⟨sent, found⟩, hrest, h⟩ := bind_eq_ok.1 h
      cases h
      obtain ⟨copied, numbers, hclauses, rfl, rfl⟩ := ih hrest
      exact ⟨token :: copied, numbers, .copied (Bool.eq_false_iff.2 htoken) hclauses, rfl, rfl⟩
  · rintro ⟨copied, numbers, hclauses, rfl, rfl⟩
    induction hclauses generalizing limit with
    | nil => rfl
    | copied htoken _ ih =>
      rw [clauses.eq_def]
      simp only [htoken, Bool.false_eq_true, if_false, ih]
      rfl
    | limit hkeyword hvalue _ ih =>
      rw [clauses.eq_def]
      simp only [hkeyword, if_true, hvalue, ih]
      simp [List.getLast?_cons]

/-- The clauses are refused with the first thing that is wrong with them. -/
theorem clauses_eq_error : clauses limit tokens = .error fault ↔ ClauseFault tokens fault := by
  constructor
  · fun_induction clauses limit tokens with
    | case1 =>
      intro h
      cases h
    | case2 limit keyword hkeyword skipped value rest n hn ih =>
      exact fun h => .limit hkeyword hn (ih h)
    | case3 limit keyword hkeyword skipped value rest hvalue =>
      rintro ⟨⟩
      exact .notInteger hkeyword hvalue
    | case4 limit keyword rest hkeyword hshort =>
      rintro ⟨⟩
      refine .noValue hkeyword ?_
      obtain _ | ⟨_, _ | ⟨_, _⟩⟩ := rest
      · exact Nat.zero_lt_two
      · exact Nat.one_lt_two
      · exact (hshort _ _ _ rfl).elim
    | case5 limit token rest htoken ih =>
      intro h
      obtain hrest | ⟨_, _, ⟨⟩⟩ := bind_eq_error.1 h
      exact .copied (Bool.eq_false_iff.2 htoken) (ih hrest)
  · intro h
    induction h generalizing limit with
    | copied htoken _ ih =>
      rw [clauses.eq_def]
      simp only [htoken, Bool.false_eq_true, if_false, ih]
      rfl
    | limit hkeyword hvalue _ ih =>
      rw [clauses.eq_def]
      simp only [hkeyword, if_true, hvalue, ih]
    | @noValue keyword tokens hkeyword hshort =>
      rw [clauses.eq_def]
      obtain _ | ⟨_, _ | ⟨_, _⟩⟩ := tokens
      · simp only [hkeyword, if_true]
      · simp only [hkeyword, if_true]
      · exact absurd hshort (by simp)
    | notInteger hkeyword hvalue =>
      rw [clauses.eq_def]
      simp only [hkeyword, if_true, hvalue]

/-! ## What is refused on the way to the table -/

/-- A missing space is either the end of the statement or another lexeme in its place. -/
theorem afterSpace_eq_error :
    afterSpace ls = .error fault ↔
      (ls = [] ∧ fault = .endOfStatement) ∨
        ∃ l rest, ls = l :: rest ∧ bare l ≠ spaceToken ∧ fault = .expectedSpace (bare l) := by
  cases ls with
  | nil => simp [afterSpace, eq_comm]
  | cons l ls =>
    by_cases h : bare l = spaceToken
    · simp [afterSpace, h]
    · simp only [afterSpace, if_neg h, Except.error.injEq, List.cons_ne_nil, false_and, false_or]
      constructor
      · rintro rfl
        exact ⟨l, ls, rfl, h, rfl⟩
      · rintro ⟨_, _, ⟨⟩, -, rfl⟩
        rfl

/-- A lexeme is missing exactly at the end of the statement. -/
theorem uncons_eq_error {what : String} :
    uncons what ls = .error fault ↔ ls = [] ∧ fault = .notFound what := by
  cases ls with
  | nil => simp [uncons, eq_comm]
  | cons l ls => simp [uncons]

/-- Copying fails exactly when no lexeme stops it. -/
theorem copyThrough_eq_error {what : String} {stop : String → Bool} :
    copyThrough what stop ls = .error fault ↔
      (∀ l ∈ ls, stop (bare l) = false) ∧ fault = .notFound what := by
  induction ls with
  | nil =>
    rw [copyThrough]
    constructor
    · rintro ⟨⟩
      exact ⟨List.forall_mem_nil _, rfl⟩
    · rintro ⟨-, rfl⟩
      rfl
  | cons l ls ih =>
    rw [copyThrough]
    by_cases h : stop (bare l) = true
    · simp [h]
    · rw [if_neg h, bind_eq_error, ih]
      simp [h, pure, Except.pure]

/-- A name is refused if it ends with a dot. -/
theorem target_eq_error {name : String} :
    target name ls = .error fault ↔
      ∃ path dot, IsPath path ∧ bare dot = "." ∧ ls = path ++ [dot] ∧
        fault = .notFound "index name" := by
  constructor
  · fun_induction target name ls with
    | case1 =>
      intro h
      cases h
    | case2 name dot hdot =>
      rintro ⟨⟩
      exact ⟨[], dot, trivial, hdot, rfl, rfl⟩
    | case3 name dot hdot segment ls ih =>
      intro h
      obtain ⟨path, last, hpath, hlast, rfl, rfl⟩ := ih h
      exact ⟨dot :: segment :: path, last, ⟨hdot, hpath⟩, hlast, rfl, rfl⟩
    | case4 =>
      intro h
      cases h
  · rintro ⟨path, last, hpath, hlast, rfl, rfl⟩
    fun_induction IsPath path generalizing name with
    | case1 => simp [target, hlast]
    | case2 => exact hpath.elim
    | case3 dot segment path ih =>
      obtain ⟨hdot, hpath⟩ := hpath
      rw [List.cons_append, List.cons_append, target, if_pos hdot]
      exact ih hpath

/-! ## Statements -/

/-- How a SELECT is made up after its verb, with the text that is sent and the limit. -/
inductive Accepted : List Lexeme → String → Option Int → Prop
  | mk {head path rest : List Lexeme} {keyword sep first : Lexeme} {tokens copied : List String}
      {numbers : List Int} (hhead : ∀ l ∈ head, Text.sameLetters (bare l) "FROM" = false)
      (hkeyword : Text.sameLetters (bare keyword) "FROM" = true) (hsep : bare sep = spaceToken)
      (hpath : IsPath path) (hrest : ∀ l ∈ rest.head?, bare l ≠ ".")
      (hremains : Remains rest tokens) (hclauses : Clauses tokens copied numbers) :
      Accepted (head ++ keyword :: sep :: first :: (path ++ rest))
        (written (head ++ [keyword]) ++ " " ++ quoted (written (first :: path)) ++ " " ++
          copyTokens copied) numbers.getLast?

/-- What follows the first FROM. -/
def AfterFrom (ls rest : List Lexeme) : Prop :=
  ∃ head keyword, ls = head ++ keyword :: rest ∧
    (∀ l ∈ head, Text.sameLetters (bare l) "FROM" = false) ∧
      Text.sameLetters (bare keyword) "FROM" = true

/-- The first thing that is wrong with a SELECT after its verb. -/
inductive Refused (ls : List Lexeme) : Fault → Prop
  | noFrom (h : ∀ l ∈ ls, Text.sameLetters (bare l) "FROM" = false) : Refused ls (.notFound "FROM")
  | endAfterFrom (h : AfterFrom ls []) : Refused ls .endOfStatement
  | noSpace {next : Lexeme} {rest : List Lexeme} (h : AfterFrom ls (next :: rest))
      (hnext : bare next ≠ spaceToken) : Refused ls (.expectedSpace (bare next))
  | noTable {sep : Lexeme} (h : AfterFrom ls [sep]) (hsep : bare sep = spaceToken) :
      Refused ls (.notFound "table name")
  | noSegment {sep first dot : Lexeme} {path : List Lexeme}
      (h : AfterFrom ls (sep :: first :: (path ++ [dot]))) (hsep : bare sep = spaceToken)
      (hpath : IsPath path) (hdot : bare dot = ".") : Refused ls (.notFound "index name")
  | noRemains {rest : List Lexeme} {front : String} (hform : Form .select ls front rest)
      (hrest : rest = [] ∨ ∃ sep, rest = [sep] ∧ bare sep = spaceToken) :
      Refused ls .endAfterTable
  | clause {rest : List Lexeme} {front : String} {tokens : List String} {fault : Fault}
      (hform : Form .select ls front rest) (hremains : Remains rest tokens)
      (hclause : ClauseFault tokens fault) : Refused ls fault

/-- The accepted statements, said with the form that all four kinds share. -/
theorem accepted_iff_follows :
    Accepted ls text limit ↔
      ∃ front rest out, Form .select ls front rest ∧ Follows .select rest out limit ∧
        text = front ++ out := by
  constructor
  · rintro ⟨hhead, hkeyword, hsep, hpath, hrest, hremains, hclauses⟩
    obtain ⟨rfl, hne⟩ := remains_iff.1 hremains
    have hsent := clauses_eq_ok.2 ⟨_, _, hclauses, rfl, (Option.or_none).symm⟩
    exact ⟨_, _, _, .select hhead hkeyword hsep hpath hrest, ⟨hne, _, hsent, rfl⟩,
      by simp only [String.append_assoc]⟩
  · rintro ⟨_, rest, _, hform, ⟨hne, sent, hsent, rfl⟩, rfl⟩
    obtain ⟨copied, numbers, hclauses, rfl, hlimit⟩ := clauses_eq_ok.1 hsent
    rw [Option.or_none] at hlimit
    cases hform with
    | select hhead hkeyword hsep hpath hrest =>
      rw [hlimit, ← String.append_assoc]
      exact .mk hhead hkeyword hsep hpath hrest (remains_iff.2 ⟨rfl, hne⟩) hclauses

/-- What stands behind FROM is what copying through it leaves. -/
theorem AfterFrom.exists_copyThrough (h : AfterFrom ls rest) :
    ∃ text, copyThrough "FROM" (Text.sameLetters · "FROM") ls = .ok (text, rest) := by
  obtain ⟨head, keyword, rfl, hhead, hkeyword⟩ := h
  exact ⟨_, copyThrough_eq_ok.2 ⟨head, keyword, rfl, hhead, hkeyword, rfl⟩⟩

/-- A statement with a fault is refused with it. -/
theorem Refused.select_eq (h : Refused ls fault) : select ls = .error fault := by
  cases h with
  | noFrom h => exact bind_eq_error.2 (.inl (copyThrough_eq_error.2 ⟨h, rfl⟩))
  | endAfterFrom h =>
    obtain ⟨text, hcopied⟩ := h.exists_copyThrough
    exact bind_eq_error.2 (.inr ⟨_, hcopied, rfl⟩)
  | @noSpace next rest h hnext =>
    obtain ⟨text, hcopied⟩ := h.exists_copyThrough
    refine bind_eq_error.2 (.inr ⟨_, hcopied, bind_eq_error.2 (.inl ?_)⟩)
    exact afterSpace_eq_error.2 (.inr ⟨next, rest, rfl, hnext, rfl⟩)
  | @noTable sep h hsep =>
    obtain ⟨text, hcopied⟩ := h.exists_copyThrough
    refine bind_eq_error.2 (.inr ⟨_, hcopied, ?_⟩)
    exact bind_eq_error.2 (.inr ⟨[], afterSpace_eq_ok.2 ⟨sep, rfl, hsep⟩, rfl⟩)
  | @noSegment sep first dot path h hsep hpath hdot =>
    obtain ⟨text, hcopied⟩ := h.exists_copyThrough
    refine bind_eq_error.2 (.inr ⟨_, hcopied, ?_⟩)
    refine bind_eq_error.2 (.inr ⟨_, afterSpace_eq_ok.2 ⟨sep, rfl, hsep⟩, ?_⟩)
    refine bind_eq_error.2 (.inr ⟨_, uncons_eq_ok.2 rfl, bind_eq_error.2 (.inl ?_)⟩)
    exact target_eq_error.2 ⟨path, dot, hpath, hdot, rfl, rfl⟩
  | noRemains hform hrest =>
    rw [select_of_form hform, sentClauses, afterTarget_eq_nil_iff.2 hrest]
    rfl
  | clause hform hremains hclause =>
    obtain ⟨htokens, hne⟩ := remains_iff.1 hremains
    obtain ⟨token, tokens, rfl⟩ := List.exists_cons_of_ne_nil hne
    rw [select_of_form hform, sentClauses, htokens]
    dsimp only
    rw [clauses_eq_error.2 hclause]
    rfl

/-- A SELECT is refused for the first thing that is wrong with it. -/
theorem select_eq_error : select ls = .error fault ↔ Refused ls fault := by
  refine ⟨fun h => ?_, Refused.select_eq⟩
  simp only [select, bind_eq_error, copyThrough_eq_ok, copyThrough_eq_error, afterSpace_eq_ok,
    afterSpace_eq_error, uncons_eq_ok, uncons_eq_error, target_eq_ok, target_eq_error,
    Prod.exists] at h
  obtain ⟨h, rfl⟩ | ⟨_, _, ⟨head, keyword, rfl, hhead, hkeyword, rfl⟩, h⟩ := h
  · exact .noFrom h
  have hafter (rest : List Lexeme) : AfterFrom (head ++ keyword :: rest) rest :=
    ⟨head, keyword, rfl, hhead, hkeyword⟩
  obtain (⟨rfl, rfl⟩ | ⟨next, rest, rfl, hnext, rfl⟩) | ⟨_, ⟨sep, rfl, hsep⟩, h⟩ := h
  · exact .endAfterFrom (hafter _)
  · exact .noSpace (hafter _) hnext
  obtain ⟨rfl, rfl⟩ | ⟨first, _, rfl, h⟩ := h
  · exact .noTable (hafter _) hsep
  obtain ⟨path, dot, hpath, hdot, rfl, rfl⟩ | ⟨_, rest, ⟨path, hpath, rfl, rfl, hrest⟩, h⟩ := h
  · exact .noSegment (hafter _) hsep hpath hdot
  have hform : Form .select (head ++ keyword :: sep :: first :: (path ++ rest)) _ rest :=
    .select hhead hkeyword hsep hpath hrest
  cases htokens : afterTarget rest with
  | nil =>
    rw [htokens] at h
    cases h
    exact .noRemains hform (afterTarget_eq_nil_iff.1 htokens)
  | cons token tokens =>
    rw [htokens] at h
    obtain hclause | ⟨_, _, ⟨⟩⟩ := bind_eq_error.1 h
    exact .clause hform (remains_iff.2 ⟨htokens, List.cons_ne_nil _ _⟩)
      (clauses_eq_error.1 hclause)

/-- Of all that can be wrong with a SELECT, only the number of a LIMIT clause is a value. -/
theorem Refused.exists_of_isIllegalValue (h : Refused ls fault) :
    fault.isIllegalValue = true → ∃ value, fault = .notInteger "LIMIT" value := by
  cases h with
  | clause hform hremains hclause =>
    clear hform hremains
    induction hclause with
    | copied _ _ ih | limit _ _ _ ih => exact ih
    | noValue => exact nofun
    | notInteger => exact fun _ => ⟨_, rfl⟩
  | _ => exact nofun

section Source

variable {source : String} {verb : Lexeme}

/-- A statement whose verb is SELECT in any spelling is sent, or refused, as what follows the verb
is. -/
theorem ofSource_of_spells (hls : lexemesOf source = verb :: ls)
    (hverb : Text.spells (bare verb) "SELECT" = true) :
    ofSource source = match select ls with
      | .error fault => .error (.faulty .select (Text.trim source) fault)
      | .ok (text, limit) => .ok ⟨bare verb ++ text, limit⟩ := by
  have hsubject : subject? (bare verb) = some .select := by rw [subject?, if_pos hverb]
  rw [ofSource, hls]
  simp only [hsubject, body]
  rfl

/-- A SELECT is sent if it is made up as `Accepted` says, and else refused for the first thing that
is wrong with it. The error carries the source without the blanks around it, and it is one of
validation if that thing is the number of a LIMIT clause, and one of syntax if not. -/
theorem ofSource_select_iff (hls : lexemesOf source = verb :: ls)
    (hverb : Text.spells (bare verb) "SELECT" = true) :
    (∀ query, ofSource source = .ok query ↔
      ∃ text limit, Accepted ls text limit ∧ query = ⟨bare verb ++ text, limit⟩) ∧
    (∀ error, ofSource source = .error error ↔
      ∃ fault, Refused ls fault ∧ error = .faulty .select (Text.trim source) fault) ∧
    ∀ error, ofSource source = .error error →
      error.command? = some (Text.trim source) ∧
        ((error.code = "VALIDATION_ERROR" ∧ ∃ value, Refused ls (.notInteger "LIMIT" value)) ∨
          (error.code = "SYNTAX_ERROR" ∧ ∀ value, ¬ Refused ls (.notInteger "LIMIT" value))) := by
  have haccepted {text : String} {limit : Option Int} :
      Accepted ls text limit ↔ select ls = .ok (text, limit) :=
    accepted_iff_follows.trans select_eq_ok.symm
  simp only [haccepted, ← select_eq_error, ofSource_of_spells hls hverb]
  cases hselect : select ls with
  | ok sent =>
    refine ⟨fun query => ⟨?_, ?_⟩, fun error => ⟨nofun, ?_⟩, nofun⟩
    · rintro ⟨⟩
      exact ⟨_, _, rfl, rfl⟩
    · rintro ⟨_, _, ⟨⟩, rfl⟩
      rfl
    · rintro ⟨_, ⟨⟩, _⟩
  | error fault =>
    refine ⟨fun query => ⟨nofun, ?_⟩, fun error => ⟨?_, ?_⟩, ?_⟩
    · rintro ⟨_, _, ⟨⟩, _⟩
    · rintro ⟨⟩
      exact ⟨fault, rfl, rfl⟩
    · rintro ⟨_, ⟨⟩, rfl⟩
      rfl
    · rintro _ ⟨⟩
      refine ⟨rfl, ?_⟩
      cases hvalue : fault.isIllegalValue with
      | true =>
        obtain ⟨value, rfl⟩ := (select_eq_error.1 hselect).exists_of_isIllegalValue hvalue
        exact .inl ⟨rfl, value, rfl⟩
      | false =>
        refine .inr ⟨by rw [Error.code, hvalue]; rfl, ?_⟩
        rintro value ⟨⟩
        cases hvalue

/-- A literal that adjoins the table counts as the keyword that it contains. -/
theorem ofSource_select_iff_adjoining :
    ∃ verb ls, lexemesOf "select * FROM t'limit' 5;" = verb :: ls ∧
      Text.spells (bare verb) "SELECT" = true ∧
        ofSource "select * FROM t'limit' 5;" = .ok ⟨"select * FROM \"t\" ;", some 5⟩ := by
  have hls : lexemesOf "select * FROM t'limit' 5;" = .word "select".toList ::
      ([.space, .mark '*', .space] ++ .word "FROM".toList :: .space :: .word ['t'] ::
        ([] ++ [.literal '\'' "limit".toList true, .space, .word ['5'], .mark ';'])) := by
    decide +kernel
  have hverb : Text.spells (bare (.word "select".toList)) "SELECT" = true := by decide +kernel
  have hclauses : Clauses ["limit", " ", "5", ";"] [";"] [5] :=
    .limit (by decide +kernel) (by decide +kernel) (.copied (by decide +kernel) .nil)
  have hremains : Remains [.literal '\'' "limit".toList true, .space, .word ['5'], .mark ';']
      ["limit", " ", "5", ";"] := .adjoining (by decide +kernel)
  have haccepted := @Accepted.mk [.space, .mark '*', .space] [] _ (.word "FROM".toList) .space
    (.word ['t']) _ _ _ (by decide +kernel) (by decide +kernel) rfl trivial (by decide +kernel)
    hremains hclauses
  have hsent := ((ofSource_select_iff hls hverb).1 ⟨"select * FROM \"t\" ;", some 5⟩).2
    ⟨_, _, haccepted, by decide +kernel⟩
  exact ⟨_, _, hls, hverb, hsent⟩

end Source

end Query

end TableShell
