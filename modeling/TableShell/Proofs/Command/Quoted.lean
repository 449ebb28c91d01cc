import TableShell.Proofs.Command.Grammar
import TableShell.Proofs.Lexeme.Typed

/-!
# Names in quotes

Any text can be put in quotes, and its tokens are then the text as it is
(`Command.tokensOf_inLiteral`). The readers do not see the quotes, so a name in quotes is still
taken for a mark, for `IF` or for `INDEX` if it is spelled like one, and the command is refused;
every other name is read as it is (`Command.quoted_names`).
-/

namespace TableShell

namespace Command

open Lexeme Reader

variable {quote : Char} {name front back : String}

/-- The name in quotes, with its quotes and its backslashes escaped. -/
def inLiteral (quote : Char) (name : String) : String :=
  String.ofList (Lexeme.literal quote name.toList true).typed

/-- Quotes do not show in tokens. -/
theorem tokensOf_inLiteral {fronts backs : List String} (hq : isQuote quote = true)
    (hopen : ∀ l ∈ (lexemes false front.toList).getLast?, l.isOpen = false)
    (hfront : tokensOf front = fronts) (hback : tokensOf back = backs) (name : String) :
    tokensOf (front ++ inLiteral quote name ++ back) = fronts ++ name :: backs := by
  have htext : (front ++ inLiteral quote name ++ back).toList =
      front.toList ++ quote :: (escaped quote name.toList ++ quote :: back.toList) := by
    simp [inLiteral, typed]
  have hlexemes : lexemes false (front ++ inLiteral quote name ++ back).toList =
      lexemes false front.toList ++
        .literal quote name.toList true :: lexemes false back.toList := by
    rw [htext, lexemes_append fun l hl => endsBefore_quote (hopen l hl) hq _, lexemes_quote hq,
      scanLiteral_escaped hq]
  have hname : (Lexeme.literal quote name.toList true).token false = name := String.ofList_toList
  rw [← hfront, ← hback, tokensOf_eq, hlexemes, List.map_append, List.map_cons, hname,
    tokensOf_eq, tokensOf_eq]

/-! ## What is done with a token -/

section Run

variable {α : Type} {t word what m : String} {ts : List String}

/-- A reader that starts with a keyword goes on behind a token with the same letters. -/
theorem run_keyword_bind (h : Text.sameLetters t word = true) (f : Unit → Reader α) :
    (keyword word >>= f).run (t :: ts) = (f ()).run ts := by
  rw [StateT.run_bind, keyword_eq_ok.2 ⟨t, h, rfl⟩]
  rfl

/-- A reader that starts with a mark goes on behind that mark. -/
theorem run_mark_bind (f : Unit → Reader α) :
    (Reader.mark m >>= f).run (m :: ts) = (f ()).run ts := by
  rw [StateT.run_bind, mark_eq_ok.2 rfl]
  rfl

/-- A reader that starts with a name refuses a mark and goes on with any other token. -/
theorem run_name_bind (f : String → Reader α) :
    (Reader.name what >>= f).run (t :: ts) =
      if t ∈ marks then .error (.undefined what) else (f t).run ts := by
  split
  · next h =>
    have hname : (Reader.name what).run (t :: ts) = .error (.undefined what) := by
      change (if t ∈ marks then _ else _ : Reader String).run ts = _
      rw [if_pos h]
      rfl
    rw [StateT.run_bind, hname]
    rfl
  · next h =>
    rw [StateT.run_bind, name_eq_ok.2 ⟨h, rfl⟩]
    rfl

end Run

/-! ## Entries that are refused -/

/-- A list whose first element is refused is refused with the fault of that element. -/
theorem run_commaList_of_error {α : Type} {element : Reader α} {ts : List String} {fault : Fault}
    (h : element.run ts = .error fault) : (commaList element).run ts = .error fault := by
  change (separated element ts.length).run ts = _
  cases ts.length with
  | zero =>
    rw [separated, StateT.run_bind, h]
    rfl
  | succ n =>
    rw [separated, StateT.run_bind, h]
    rfl

/-- A mark is refused in the place of an attribute, quoted or not: the quotes are gone here. -/
theorem run_entry_of_marks (h : name ∈ marks) (ts : List String) :
    entry.run (name :: ts) = .error (.undefined "attribute name") := by
  rw [entry, run_name_bind, if_pos h]

/-- An attribute named like the keyword INDEX is taken for an index and refused for its kind. -/
theorem run_entry_of_index (hmark : name ∉ marks) (h : Text.sameLetters name "INDEX" = true)
    (ts : List String) :
    entry.run (name :: "S" :: ts) = .error (.illegal "index type" "S") := by
  rw [entry, run_name_bind, if_neg hmark, if_pos h]
  rfl

/-! ## Commands with a name in quotes -/

/-- A `DESC` command. -/
def describeLine (quote : Char) (table : String) : String :=
  "DESC " ++ inLiteral quote table ++ ";"

/-- A `TRUNCATE TABLE` command. -/
def truncateTableLine (quote : Char) (table : String) : String :=
  "TRUNCATE TABLE " ++ inLiteral quote table ++ ";"

/-- A `DROP TABLE` command. -/
def dropTableLine (quote : Char) (table : String) : String :=
  "DROP TABLE " ++ inLiteral quote table ++ ";"

/-- A `CREATE TABLE` command with one attribute, the key of the table. -/
def createTableLine (quote : Char) (key : String) : String :=
  "CREATE TABLE t (" ++ inLiteral quote key ++ " S HASH);"

/-- The end of a command is one token. -/
theorem tokensOf_semicolon : tokensOf ";" = [";"] := by decide +kernel

/-- What DESC makes of a quoted name: every name but a mark is read. -/
theorem readDescribe_line (hq : isQuote quote = true) (table : String) :
    readDescribe (describeLine quote table) =
      if table ∈ marks then
        .error (.ofFault .describe (describeLine quote table) (.undefined "table name"))
      else .ok table := by
  have hopen : ∀ l ∈ (lexemes false "DESC ".toList).getLast?, l.isOpen = false := by
    decide +kernel
  have hfront : tokensOf "DESC " = ["DESC"] := by decide +kernel
  have hts : tokensOf (describeLine quote table) = "DESC" :: table :: [";"] :=
    tokensOf_inLiteral hq hopen hfront tokensOf_semicolon table
  rw [readDescribe, Reader.read, hts, describe, run_keyword_bind (Text.sameLetters_refl _),
    run_name_bind, run_mark_bind]
  by_cases hmark : table ∈ marks
  · rw [if_pos hmark, if_pos hmark]
  · rw [if_neg hmark, if_neg hmark]
    rfl

/-- What TRUNCATE TABLE makes of a quoted name: every name but a mark is read. -/
theorem readTruncateTable_line (hq : isQuote quote = true) (table : String) :
    readTruncateTable (truncateTableLine quote table) =
      if table ∈ marks then
        .error (.ofFault .truncateTable (truncateTableLine quote table) (.undefined "table name"))
      else .ok table := by
  have hopen : ∀ l ∈ (lexemes false "TRUNCATE TABLE ".toList).getLast?, l.isOpen = false := by
    decide +kernel
  have hfront : tokensOf "TRUNCATE TABLE " = ["TRUNCATE", "TABLE"] := by decide +kernel
  have hts : tokensOf (truncateTableLine quote table) =
      "TRUNCATE" :: "TABLE" :: table :: [";"] :=
    tokensOf_inLiteral hq hopen hfront tokensOf_semicolon table
  rw [readTruncateTable, Reader.read, hts, truncateTable,
    run_keyword_bind (Text.sameLetters_refl _), run_keyword_bind (Text.sameLetters_refl _),
    run_name_bind, run_mark_bind]
  by_cases hmark : table ∈ marks
  · rw [if_pos hmark, if_pos hmark]
  · rw [if_neg hmark, if_neg hmark]
    rfl

/-- What DROP TABLE makes of a quoted name: a mark is refused, and a name with the letters of IF is
taken for the keyword. -/
theorem readDropTable_line (hq : isQuote quote = true) (table : String) :
    readDropTable (dropTableLine quote table) =
      if table ∈ marks then
        .error (.ofFault .dropTable (dropTableLine quote table) (.undefined "table name"))
      else if Text.sameLetters table "IF" then
        .error (.ofFault .dropTable (dropTableLine quote table) (.expected "EXISTS" ";"))
      else .ok ⟨table, false⟩ := by
  have hopen : ∀ l ∈ (lexemes false "DROP TABLE ".toList).getLast?, l.isOpen = false := by
    decide +kernel
  have hfront : tokensOf "DROP TABLE " = ["DROP", "TABLE"] := by decide +kernel
  have hts : tokensOf (dropTableLine quote table) = "DROP" :: "TABLE" :: table :: [";"] :=
    tokensOf_inLiteral hq hopen hfront tokensOf_semicolon table
  rw [readDropTable, Reader.read, hts, dropTable, run_keyword_bind (Text.sameLetters_refl _),
    run_keyword_bind (Text.sameLetters_refl _), run_name_bind]
  by_cases hmark : table ∈ marks
  · rw [if_pos hmark, if_pos hmark]
  · rw [if_neg hmark, if_neg hmark]
    by_cases hif : Text.sameLetters table "IF" = true
    · rw [if_pos hif, if_pos hif]
      rfl
    · rw [if_neg hif, if_neg hif]
      rfl

/-- What CREATE TABLE makes of a quoted key name: a mark is refused, and a name with the letters of
INDEX is taken for the keyword. -/
theorem readCreateTable_line (hq : isQuote quote = true) (key : String) :
    readCreateTable (createTableLine quote key) =
      if key ∈ marks then
        .error (.ofFault .createTable (createTableLine quote key) (.undefined "attribute name"))
      else if Text.sameLetters key "INDEX" then
        .error (.ofFault .createTable (createTableLine quote key) (.illegal "index type" "S"))
      else .ok ⟨"t", [⟨key, .string, some .hash⟩], []⟩ := by
  have hopen : ∀ l ∈ (lexemes false "CREATE TABLE t (".toList).getLast?, l.isOpen = false := by
    decide +kernel
  have hfront : tokensOf "CREATE TABLE t (" = ["CREATE", "TABLE", "t", "("] := by decide +kernel
  have hback : tokensOf " S HASH);" = ["S", "HASH", ")", ";"] := by decide +kernel
  have ht : "t" ∉ marks := by decide
  have hts : tokensOf (createTableLine quote key) =
      "CREATE" :: "TABLE" :: "t" :: "(" :: key :: "S" :: ["HASH", ")", ";"] :=
    tokensOf_inLiteral hq hopen hfront hback key
  rw [readCreateTable, Reader.read, hts, createTable, run_keyword_bind (Text.sameLetters_refl _),
    run_keyword_bind (Text.sameLetters_refl _), run_name_bind, if_neg ht, run_mark_bind,
    StateT.run_bind]
  by_cases hmark : key ∈ marks
  · rw [if_pos hmark, run_commaList_of_error (run_entry_of_marks hmark _)]
    rfl
  · rw [if_neg hmark]
    by_cases hindex : Text.sameLetters key "INDEX" = true
    · rw [if_pos hindex, run_commaList_of_error (run_entry_of_index hmark hindex _)]
      rfl
    · have hphrase : EntryPhrase (.ofAttribute ⟨key, .string, some .hash⟩) [key, "S", "HASH"] :=
        .key hmark (Bool.eq_false_iff.2 hindex) (by decide) (by decide)
      have hentries : (commaList entry).run (key :: "S" :: ["HASH", ")", ";"]) =
          .ok ([.ofAttribute ⟨key, .string, some .hash⟩], [";"]) :=
        (commaList_eq_ok takesElement_entry).2 ⟨_, .last hphrase, rfl⟩
      rw [if_neg hindex, hentries]
      rfl

/-- A name in quotes is read as it is. A command is refused only if the name is spelled like a mark
or like the keyword that may stand in its place: IF in a `DROP TABLE` command, INDEX in a
`CREATE TABLE` command. -/
theorem quoted_names (hq : isQuote quote = true) (name : String) :
    ((readDescribe (describeLine quote name)).toOption =
      if name ∈ marks then none else some name) ∧
    ((readTruncateTable (truncateTableLine quote name)).toOption =
      if name ∈ marks then none else some name) ∧
    ((readDropTable (dropTableLine quote name)).toOption =
      if name ∈ marks ∨ Text.sameLetters name "IF" = true then none else some ⟨name, false⟩) ∧
    ((readCreateTable (createTableLine quote name)).toOption =
      if name ∈ marks ∨ Text.sameLetters name "INDEX" = true then none
      else some ⟨"t", [⟨name, .string, some .hash⟩], []⟩) := by
  rw [readDescribe_line hq, readTruncateTable_line hq, readDropTable_line hq,
    readCreateTable_line hq]
  by_cases hmark : name ∈ marks
  · simp only [hmark, true_or, if_true]
    exact ⟨rfl, rfl, rfl, rfl⟩
  · simp only [hmark, false_or, if_false]
    refine ⟨rfl, rfl, ?_, ?_⟩
    · split
      · rfl
      · rfl
    · split
      · rfl
      · rfl

/-- An attribute cannot be named like the keyword of an index, and a table that is named like `IF`
cannot be dropped. -/
theorem quoted_names_index_and_if :
    isQuote '\'' = true ∧ createTableLine '\'' "index" = "CREATE TABLE t ('index' S HASH);" ∧
      (readCreateTable (createTableLine '\'' "index")).toOption = none ∧
      dropTableLine '\'' "if" = "DROP TABLE 'if';" ∧
      (readDropTable (dropTableLine '\'' "if")).toOption = none := by
  have hquote : isQuote '\'' = true := rfl
  obtain ⟨-, -, -, hindex⟩ := quoted_names hquote "index"
  obtain ⟨-, -, hif, -⟩ := quoted_names hquote "if"
  refine ⟨hquote, rfl, ?_, rfl, ?_⟩
  · rw [hindex, if_pos (.inr (by decide))]
  · rw [hif, if_pos (.inr (by decide))]

end Command

end TableShell
