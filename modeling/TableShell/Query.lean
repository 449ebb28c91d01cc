import TableShell.Error
import TableShell.Lexer
import TableShell.Number.Integer
import TableShell.Text.Capital

/-!
# Queries

A query is typed tersely and sent in full: its table is put in double quotes, its literals in single
quotes, `VALUES` becomes `VALUE`, and a `LIMIT` clause leaves the statement, as the service takes
the limit apart from the text. `Query.ofSource` reads what was typed.

A typed query is a list of lexemes. Up to the table they are read without quotes (`bare`), so that a
quoted table is a table; what follows is copied with the quotes (`requoted`), each double quote made
a single one.
-/

namespace TableShell

/-- A statement in the form in which it is sent. -/
structure Query where
  /-- The text of the statement. -/
  statement : String
  /-- The number of the last `LIMIT` clause. -/
  limit : Option Int
  deriving DecidableEq, Repr

namespace Query

/-- The limit to send: a limit of zero or less means none. -/
def effectiveLimit (query : Query) : Option Int := query.limit.filter (0 < ·)

/-- A limit that is sent is positive: any other one counts as no limit. -/
theorem effectiveLimit_pos {query : Query} {n : Int} (h : query.effectiveLimit = some n) :
    0 < n := by
  simp only [effectiveLimit, Option.filter_eq_some_iff, decide_eq_true_eq] at h
  exact h.2

/-! ## Tokens of a query -/

/-- A lexeme as it is read up to the table. -/
abbrev bare (l : Lexeme) : String := l.token false

/-- The text with each double quote made a single one. -/
def singleQuotes (s : String) : String :=
  String.ofList (s.toList.map fun c => if c = '"' then '\'' else c)

/-- A lexeme as it is copied after the table. -/
def requoted (l : Lexeme) : String := singleQuotes (l.token true)

/-- A name in double quotes. -/
def quoted (name : String) : String := "\"" ++ name ++ "\""

/-- The lexemes after a space, and the fault if there is none. -/
def afterSpace : List Lexeme → Except Fault (List Lexeme)
  | [] => .error .endOfStatement
  | l :: ls => if bare l = Lexeme.spaceToken then .ok ls else .error (.expectedSpace (bare l))

/-- The first lexeme and the others, and the fault if there is none. -/
def uncons (what : String) : List Lexeme → Except Fault (Lexeme × List Lexeme)
  | [] => .error (.notFound what)
  | l :: ls => .ok (l, ls)

/-- The text up to the first lexeme that satisfies `stop`, that lexeme included, and the lexemes
after it. -/
def copyThrough (what : String) (stop : String → Bool) :
    List Lexeme → Except Fault (String × List Lexeme)
  | [] => .error (.notFound what)
  | l :: ls =>
    if stop (bare l) then .ok (bare l, ls)
    else do
      let (text, rest) ← copyThrough what stop ls
      pure (bare l ++ text, rest)

/-- Everything that is left, copied. -/
def copyRest (ls : List Lexeme) : String := (ls.map requoted).foldr (· ++ ·) ""

/-! ## The table of a SELECT -/

/-- A table and its dotted segments: the name so far is extended as long as a dot follows. The
segment after a dot may be anything. -/
def target (name : String) : List Lexeme → Except Fault (String × List Lexeme)
  | [] => .ok (name, [])
  | dot :: ls =>
    if bare dot = "." then
      match ls with
      | [] => .error (.notFound "index name")
      | segment :: ls => target (name ++ "." ++ bare segment) ls
    else .ok (name, dot :: ls)

/-- The tokens after the table. The first one was read together with the table and shows no quotes;
a space there is left out. -/
def afterTarget : List Lexeme → List String
  | [] => []
  | l :: ls =>
    let tail := ls.map (Lexeme.token true)
    if bare l = Lexeme.spaceToken then tail else bare l :: tail

/-- The text of the clauses after the table, and the limit of the last `LIMIT` clause among them.
Such a clause is the keyword, one token that is not looked at, and the number. -/
def clauses (limit : Option Int) : List String → Except Fault (String × Option Int)
  | [] => .ok ("", limit)
  | token :: rest =>
    if Text.sameLetters token "LIMIT" then
      match rest with
      | _ :: value :: rest =>
        match Number.readInt32 value.toList with
        | some n => clauses (some n) rest
        | none => .error (.notInteger "LIMIT" value)
      | _ => .error (.notFound "LIMIT value")
    else do
      let (text, limit) ← clauses limit rest
      pure (singleQuotes token ++ text, limit)

/-! ## The four statements, after their verb -/

/-- The text and the limit of a SELECT. -/
def select (ls : List Lexeme) : Except Fault (String × Option Int) := do
  let (projection, ls) ← copyThrough "FROM" (Text.sameLetters · "FROM") ls
  let ls ← afterSpace ls
  let (first, ls) ← uncons "table name" ls
  let (name, ls) ← target (bare first) ls
  match afterTarget ls with
  | [] => throw .endAfterTable
  | tokens =>
    let (text, limit) ← clauses none tokens
    pure (projection ++ " " ++ quoted name ++ " " ++ text, limit)

/-- The text of an INSERT. -/
def insert (ls : List Lexeme) : Except Fault String := do
  let (head, ls) ← copyThrough "INTO" (fun t => t == "into" || t == "INTO") ls
  let ls ← afterSpace ls
  let (table, ls) ← uncons "table name" ls
  let ls ← afterSpace ls
  let (word, ls) ← uncons "VALUE" ls
  let keyword ←
    if bare word = "value" ∨ bare word = "VALUE" then pure (bare word)
    else if bare word = "values" ∨ bare word = "VALUES" then pure "VALUE"
    else throw (.expected "VALUE" (bare word))
  pure (head ++ " " ++ quoted (bare table) ++ " " ++ keyword ++ copyRest ls)

/-- The text of an UPDATE. -/
def update (ls : List Lexeme) : Except Fault String := do
  let ls ← afterSpace ls
  let (table, ls) ← uncons "table name" ls
  pure (" " ++ quoted (bare table) ++ copyRest ls)

/-- The text of a DELETE. -/
def delete (ls : List Lexeme) : Except Fault String := do
  let ls ← afterSpace ls
  let (word, ls) ← uncons "FROM" ls
  if bare word ≠ "from" ∧ bare word ≠ "FROM" then throw (.expected "FROM" (bare word))
  let ls ← afterSpace ls
  let (table, ls) ← uncons "table name" ls
  pure (" " ++ bare word ++ " " ++ quoted (bare table) ++ copyRest ls)

/-! ## Reading -/

/-- The lexemes of a query from its verb on; leading spaces are left out. -/
def lexemesOf (source : String) : List Lexeme :=
  (lexemes true source.toList).dropWhile fun l => bare l == Lexeme.spaceToken

/-- The kind of query that a verb starts, in any letter case. -/
def subject? (verb : String) : Option Subject :=
  if Text.spells verb "SELECT" then some .select
  else if Text.spells verb "INSERT" then some .insert
  else if Text.spells verb "UPDATE" then some .update
  else if Text.spells verb "DELETE" then some .delete
  else none

/-- The text after the verb, and the limit. -/
def body : Subject → List Lexeme → Except Fault (String × Option Int)
  | .select, ls => select ls
  | .insert, ls => (·, none) <$> insert ls
  | .update, ls => (·, none) <$> update ls
  | _, ls => (·, none) <$> delete ls

/-- The query that was typed. -/
def ofSource (source : String) : Except Error Query :=
  match lexemesOf source with
  | [] => .error (.unsupported (Text.trim source))
  | verb :: ls =>
    match subject? (bare verb) with
    | none => .error (.unsupported (Text.trim source))
    | some subject =>
      match body subject ls with
      | .error fault => .error (.ofFault subject source fault)
      | .ok (text, limit) => .ok ⟨bare verb ++ text, limit⟩

end Query

end TableShell
